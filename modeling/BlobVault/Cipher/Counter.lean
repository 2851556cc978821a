import BlobVault.Cipher.Aes

/-!
# Counter mode

A key and an initial counter block fix one infinite keystream.  Its `i`-th block is the
encryption of the initial block plus `i`, as a 128-bit number that wraps around.  Data is hidden
and revealed by the same operation, the exclusive or with the start of the keystream.
-/

namespace BlobVault.Counter

/-- The block that encrypts to the `i`-th block of the keystream. -/
def counterBlock (iv : Bytes) (i : Nat) : Bytes :=
  Bytes.ofNatBE 16 ((Bytes.toNatBE iv + i) % Nat.pow 2 128)

/-- The `i`-th block of the keystream. -/
def keystreamBlock (key iv : Bytes) (i : Nat) : Bytes :=
  Aes.encrypt key (counterBlock iv i)

/-- The `j`-th byte of the keystream. -/
def keystream (key iv : Bytes) (j : Nat) : UInt8 :=
  (keystreamBlock key iv (j / 16)).getD (j % 16) 0

/-- The first `blocks` blocks from counter value `counter` on, newest first. -/
def blocksFrom (keys : List Aes.State) (counter : Nat) : (blocks : Nat) → List Bytes → List Bytes
  | 0, made => made
  | blocks + 1, made =>
    blocksFrom keys (counter + 1) blocks
      ((Aes.encryptWith keys (Aes.State.ofBytes (Bytes.ofNatBE 16 (counter % Nat.pow 2 128)))).toBytes
        :: made)

/-- At least the first `n` bytes of the keystream, in whole blocks. -/
def keystreamBytes (key iv : Bytes) (n : Nat) : Bytes :=
  (blocksFrom (Aes.schedule key) (Bytes.toNatBE iv) ((n + 15) / 16) []).reverse.flatten

/-- Exclusive or with the start of the keystream. -/
def apply (key iv data : Bytes) : Bytes :=
  Bytes.xor data (keystreamBytes key iv data.length)

end BlobVault.Counter
