/-!
# Modular arithmetic

Powers and inverses modulo a number, a test for primes, and the search for a prime of a given
size, all on natural numbers.
-/

namespace BlobVault.Modular

/-- Multiplies `acc` by `base` to the power of `e`, modulo `m`, for an `e` of at most `fuel`
bits. -/
def powTimes (m : Nat) : (fuel base e acc : Nat) → Nat
  | 0, _, _, acc => acc
  | fuel + 1, base, e, acc =>
    if e = 0 then acc
    else powTimes m fuel (base * base % m) (e / 2) (if e % 2 = 1 then acc * base % m else acc)

/-- A power modulo `m`. -/
def pow (base e m : Nat) : Nat := powTimes m (Nat.log2 e + 1) (base % m) e (1 % m)

/-- The extended Euclidean algorithm: with `r = x * s` and `r' = x * s'` modulo some number, goes
on to the greatest common divisor and its factor. -/
def euclid : (fuel : Nat) → (r r' : Nat) → (s s' : Int) → Nat × Int
  | 0, r, _, s, _ => (r, s)
  | fuel + 1, r, r', s, s' =>
    if r' = 0 then (r, s) else euclid fuel r' (r % r') s' (s - (r / r' : Nat) * s')

/-- The inverse of `x` modulo `m`, if there is one. -/
def inverse? (x m : Nat) : Option Nat :=
  let (g, s) := euclid (2 * Nat.log2 m + 4) (x % m) m 1 0
  if g = 1 then some (s % (m : Int)).toNat else none

/-- The primes below 200. -/
def smallPrimes : List Nat :=
  [ 2, 3, 5, 7, 11, 13, 17, 19, 23, 29, 31, 37, 41, 43, 47, 53, 59, 61, 67, 71, 73, 79, 83, 89, 97,
    101, 103, 107, 109, 113, 127, 131, 137, 139, 149, 151, 157, 163, 167, 173, 179, 181, 191, 193,
    197, 199 ]

/-- Squares `x` up to `fuel` times modulo `n` and looks for `n - 1`. -/
def reachesMinusOne (n : Nat) : (fuel x : Nat) → Bool
  | 0, _ => false
  | fuel + 1, x => x == n - 1 || reachesMinusOne n fuel (x * x % n)

/-- How often two divides a positive number of at most `fuel` bits, and what is left. -/
def oddPart : (fuel twos n : Nat) → Nat × Nat
  | 0, twos, n => (twos, n)
  | fuel + 1, twos, n => if n % 2 = 0 then oddPart fuel (twos + 1) (n / 2) else (twos, n)

/-- The base shows nothing against `n` being prime. -/
def passes (n base : Nat) : Bool :=
  let (twos, odd) := oddPart (Nat.log2 n + 1) 0 (n - 1)
  let x := pow base odd n
  x == 1 || reachesMinusOne n twos x

/-- An odd number above 200 is taken for a prime: no small prime divides it, and it passes the
test for the first twelve primes as bases. -/
def isProbablePrime (n : Nat) : Bool :=
  smallPrimes.all (fun p => n % p != 0) && (smallPrimes.take 12).all (passes n)

/-- The first probable prime from `n` on in steps of two that has no common factor with `e` after
subtracting one. -/
def primeFrom (e : Nat) : (fuel n : Nat) → Option Nat
  | 0, _ => none
  | fuel + 1, n =>
    if smallPrimes.all (fun p => n % p != 0) && Nat.gcd e (n - 1) == 1 && isProbablePrime n then
      some n
    else primeFrom e fuel (n + 2)

end BlobVault.Modular
