import BlobVault.Keys.Oaep
import BlobVault.Number.Modular

/-!
# Wrapping keys

Data keys are wrapped under RSA keys.  A key on a curve can be registered as well, and has a
fingerprint, but cannot wrap anything.
-/

namespace BlobVault

/-- The public half of a wrapping key. -/
inductive PublicKey where
  | rsa (modulus exponent : Nat)
  /-- A point on the curve P-256, in its uncompressed form. -/
  | curve (point : Bytes)
  deriving DecidableEq, Repr

/-- A wrapping key with its private half. -/
inductive PrivateKey where
  | rsa (modulus exponent secret : Nat)
  | curve (point : Bytes)
  deriving DecidableEq, Repr

/-- The public half of a key. -/
def PrivateKey.toPublic : PrivateKey → PublicKey
  | rsa n e _ => .rsa n e
  | curve point => .curve point

/-- The number of bits of a natural number. -/
def bitCount (n : Nat) : Nat := if n = 0 then 0 else Nat.log2 n + 1

/-- The number of bits of a key's modulus or curve. -/
def PublicKey.bits : PublicKey → Nat
  | rsa n _ => bitCount n
  | curve _ => 256

/-- The number of bytes of a modulus. -/
def modulusSize (n : Nat) : Nat := (bitCount n + 7) / 8

/-- Wraps a data key with a random seed; `none` if the key cannot wrap it. -/
def PublicKey.wrap? (k : PublicKey) (seed dataKey : Bytes) : Option Bytes :=
  match k with
  | rsa n e =>
    (Oaep.pad? (modulusSize n) seed dataKey).bind fun padded =>
      let m := Bytes.toNatBE padded
      if e < n ∧ m < n then some (Bytes.ofNatBE (modulusSize n) (Modular.pow m e n)) else none
  | curve _ => none

/-- Unwraps a data key; `none` if the key does not open it. -/
def PrivateKey.unwrap? (k : PrivateKey) (wrapped : Bytes) : Option Bytes :=
  match k with
  | rsa n _ d =>
    if modulusSize n < wrapped.length then none
    else
      let c := Bytes.toNatBE wrapped
      if c < n then Oaep.unpad? (Bytes.ofNatBE (modulusSize n) (Modular.pow c d n)) else none
  | curve _ => none

end BlobVault
