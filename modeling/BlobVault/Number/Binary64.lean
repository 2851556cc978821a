/-!
# Double precision numbers

A finite number is a sign, a mantissa and a power of two; arithmetic goes through exact fractions
and rounds once, to the nearest number with ties to the even mantissa.
-/

namespace BlobVault

/-- A double precision number.  Mantissas of finite numbers have at most 53 bits, exponents are
at least -1074, and the mantissa has 53 bits unless the exponent is -1074. -/
inductive Binary64 where
  | finite (negative : Bool) (mantissa : Nat) (exponent : Int)
  | infinite (negative : Bool)
  | nan
  deriving DecidableEq, Repr

namespace Binary64

/-- A fraction times a power of two, as a fraction. -/
def scale (num den : Nat) (power : Int) : Nat × Nat :=
  if 0 ≤ power then (num * Nat.pow 2 power.toNat, den) else (num, den * Nat.pow 2 (-power).toNat)

/-- The quotient rounded to the nearest integer, ties to even. -/
def roundQuotient (num den : Nat) : Nat :=
  let q := num / den
  let twice := 2 * (num % den)
  if twice < den then q else if den < twice then q + 1 else if q % 2 = 0 then q else q + 1

/-- The double nearest to a fraction; `den` is positive. -/
def ofRatio (negative : Bool) (num den : Nat) : Binary64 :=
  if num = 0 then .finite negative 0 (-1074)
  else
    let guess : Int := (Nat.log2 num : Int) - Nat.log2 den - 52
    let (n, d) := scale num den (-guess)
    let fitting := if n / d < Nat.pow 2 52 then guess - 1 else guess
    let exponent := max fitting (-1074)
    let (n, d) := scale num den (-exponent)
    let mantissa := roundQuotient n d
    let (mantissa, exponent) :=
      if mantissa = Nat.pow 2 53 then (Nat.pow 2 52, exponent + 1) else (mantissa, exponent)
    if exponent > 971 then .infinite negative else .finite negative mantissa exponent

/-- The double nearest to a natural number. -/
def ofNat (n : Nat) : Binary64 := ofRatio false n 1

/-- The double nearest to `digits` times a power of ten. -/
def ofDecimal (negative : Bool) (digits : Nat) (power : Int) : Binary64 :=
  if 0 ≤ power then ofRatio negative (digits * Nat.pow 10 power.toNat) 1
  else ofRatio negative digits (Nat.pow 10 (-power).toNat)

/-- Changes the sign. -/
def neg : Binary64 → Binary64
  | finite negative m e => finite (!negative) m e
  | infinite negative => infinite (!negative)
  | nan => nan

/-- The magnitude of a finite number as a fraction. -/
def fraction (m : Nat) (e : Int) : Nat × Nat := scale m 1 e

/-- The product of two finite numbers. -/
def mul : Binary64 → Binary64 → Binary64
  | finite s m e, finite t n f =>
    let (a, b) := fraction m e
    let (c, d) := fraction n f
    ofRatio (s != t) (a * c) (b * d)
  | x, _ => x

/-- The quotient of two finite numbers, of which the second is not zero. -/
def div : Binary64 → Binary64 → Binary64
  | finite s m e, finite t n f =>
    let (a, b) := fraction m e
    let (c, d) := fraction n f
    ofRatio (s != t) (a * d) (b * c)
  | x, _ => x

/-- The sum of two finite numbers that are not negative. -/
def add : Binary64 → Binary64 → Binary64
  | finite _ m e, finite _ n f =>
    let (a, b) := fraction m e
    let (c, d) := fraction n f
    ofRatio false (a * d + c * b) (b * d)
  | x, _ => x

/-- The number is zero of either sign. -/
def isZero : Binary64 → Bool
  | finite _ m _ => m == 0
  | _ => false

/-- The number is neither infinite nor undefined. -/
def isFinite : Binary64 → Bool
  | finite _ _ _ => true
  | _ => false

end Binary64

end BlobVault
