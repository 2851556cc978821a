import BlobVault.Entropy
import BlobVault.Keys.Key

/-!
# Making wrapping keys

A new RSA key is made of two random primes, each with its two highest bits set, so that their
product has exactly the wanted size.
-/

namespace BlobVault.Generate

/-- The public exponent of new keys. -/
def publicExponent : Nat := 65537

/-- The fewest bits of a new key. -/
def leastBits : Nat := 512

/-- A random probable prime with the given number of bits. -/
def prime (bits : Nat) (pool : Entropy) : Option Nat × Entropy :=
  let (bytes, pool) := pool.draw ((bits + 7) / 8)
  let low := Bytes.toNatBE bytes % Nat.pow 2 (bits - 2)
  let candidate := 3 * Nat.pow 2 (bits - 2) + low
  (Modular.primeFrom publicExponent (40 * bits) (candidate / 2 * 2 + 1), pool)

/-- The key made of two primes. -/
def keyOfPrimes (p q : Nat) : Option PrivateKey :=
  if p = q then none
  else (Modular.inverse? publicExponent ((p - 1) * (q - 1))).map fun d =>
    .rsa (p * q) publicExponent d

/-- A new key, drawing primes at most `fuel` times. -/
def attempt (bits : Nat) : (fuel : Nat) → Entropy → Option PrivateKey × Entropy
  | 0, pool => (none, pool)
  | fuel + 1, pool =>
    let (p?, pool) := prime ((bits + 1) / 2) pool
    let (q?, pool) := prime (bits / 2) pool
    match p?, q? with
    | some p, some q =>
      match keyOfPrimes p q with
      | some k => if k.toPublic.bits = bits then (some k, pool) else attempt bits fuel pool
      | none => attempt bits fuel pool
    | _, _ => attempt bits fuel pool

/-- A new key of the given size, if the size is allowed. -/
def key (bits : Nat) (pool : Entropy) : Option PrivateKey × Entropy :=
  if bits < leastBits ∨ 16384 < bits then (none, pool) else attempt bits 20 pool

end BlobVault.Generate
