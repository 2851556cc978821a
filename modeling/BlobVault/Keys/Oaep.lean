import BlobVault.Digest.Sha256
import BlobVault.Number.Modular

/-!
# RSA with optimal asymmetric padding

A data key is wrapped under a public key: padded with a random seed and the digest of an empty
label, then raised to the public exponent.  The digest is SHA-256 throughout.
-/

namespace BlobVault.Oaep

/-- The length of the digest. -/
def digestLength : Nat := 32

/-- A mask of the given length grown from a seed. -/
def mask (seed : Bytes) (length : Nat) : Bytes :=
  (((List.range ((length + 31) / 32)).map fun i =>
    Sha256.hash (seed ++ Bytes.ofNatBE 4 i)).flatten).take length

/-- The digest of the empty label. -/
def labelDigest : Bytes := Sha256.hash []

/-- The padded form of a message for a modulus of `size` bytes, or `none` if the message is too
long. -/
def pad? (size : Nat) (seed message : Bytes) : Option Bytes :=
  if message.length + 2 * digestLength + 2 ≤ size then
    let zeros := List.replicate (size - message.length - 2 * digestLength - 2) 0
    let block := labelDigest ++ zeros ++ 1 :: message
    let maskedBlock := Bytes.xor block (mask seed block.length)
    let maskedSeed := Bytes.xor seed (mask maskedBlock digestLength)
    some (0 :: maskedSeed ++ maskedBlock)
  else none

/-- The message of a padded form, if the padding is right. -/
def unpad? (padded : Bytes) : Option Bytes :=
  match padded with
  | [] => none
  | first :: rest =>
    if padded.length < 2 * digestLength + 2 then none
    else
      let maskedSeed := rest.take digestLength
      let maskedBlock := rest.drop digestLength
      let seed := Bytes.xor maskedSeed (mask maskedBlock digestLength)
      let block := Bytes.xor maskedBlock (mask seed maskedBlock.length)
      match (block.drop digestLength).dropWhile (· = 0) with
      | [] => none
      | mark :: message =>
        if first = 0 ∧ block.take digestLength = labelDigest ∧ mark = 1 then some message else none

end BlobVault.Oaep
