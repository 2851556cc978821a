import BlobVault.Number.Binary64

/-!
# Shortest decimal text

A double is written with the fewest digits that read back as the same double, and of those with
the ones nearest to it.  `Binary64.shortest` finds the digits; `FloatStyle` says where the point
goes and how an exponent is written.
-/

namespace BlobVault

namespace Binary64

/-- Decimal digits and the power of ten of the last one. -/
structure Decimal where
  digits : Nat
  power : Int
  deriving DecidableEq, Repr

/-- The fraction `num / den` is at least ten to the given power. -/
def atLeastPower (num den : Nat) (power : Int) : Bool :=
  if 0 ≤ power then decide (den * Nat.pow 10 power.toNat ≤ num)
  else decide (den ≤ num * Nat.pow 10 (-power).toNat)

/-- The greatest power of ten that a positive fraction reaches, found by going down from
`power`. -/
def reachedPower (num den : Nat) : (fuel : Nat) → (power : Int) → Int
  | 0, power => power
  | fuel + 1, power =>
    if atLeastPower num den power then power else reachedPower num den fuel (power - 1)

/-- A fraction in units of ten to the given power. -/
def inUnits (num den : Nat) (power : Int) : Nat × Nat :=
  if 0 ≤ power then (num, den * Nat.pow 10 power.toNat) else (num * Nat.pow 10 (-power).toNat, den)

/-- `k` units lie in the interval of numbers that round to mantissa `m`, where `num / den` is the
value in these units.  The interval reaches half a mantissa step to either side, but only a
quarter below a power of two, and holds its ends if `m` is even. -/
def roundsBack (m : Nat) (narrow : Bool) (num den k : Nat) : Bool :=
  let value := 4 * m * den * k
  let upper := num * (4 * m + 2)
  let lower := num * (4 * m - if narrow then 1 else 2)
  if m % 2 = 0 then lower ≤ value && value ≤ upper else lower < value && value < upper

/-- The nearest of the two neighbours `k` and `k + 1` of a value that round back to it. -/
def bestNeighbour (m : Nat) (narrow : Bool) (num den : Nat) : Option Nat :=
  let k := num / den
  let below := k ≠ 0 && roundsBack m narrow num den k
  let above := roundsBack m narrow num den (k + 1)
  if below && above then
    let twice := 2 * (num % den)
    some (if twice < den then k else if den < twice then k + 1 else if k % 2 = 0 then k else k + 1)
  else if below then some k
  else if above then some (k + 1)
  else none

/-- Drops zeros at the end of the digits. -/
def trimZeros : (fuel : Nat) → Decimal → Decimal
  | 0, d => d
  | fuel + 1, d =>
    if d.digits ≠ 0 ∧ d.digits % 10 = 0 then trimZeros fuel ⟨d.digits / 10, d.power + 1⟩ else d

/-- Tries ever finer units, from that of the leading digit on. -/
def shortestFrom (m : Nat) (narrow : Bool) (num den : Nat) : (fuel : Nat) → (power : Int) → Decimal
  | 0, power => ⟨0, power⟩
  | fuel + 1, power =>
    let (n, d) := inUnits num den power
    match bestNeighbour m narrow n d with
    | some k => trimZeros 20 ⟨k, power⟩
    | none => shortestFrom m narrow num den fuel (power - 1)

/-- The shortest digits of a positive number. -/
def shortest (m : Nat) (e : Int) : Decimal :=
  let (num, den) := fraction m e
  let narrow := m = Nat.pow 2 52 ∧ e > -1074
  let guess : Int := ((Nat.log2 num : Int) - Nat.log2 den + 1) * 30103 / 100000 + 1
  shortestFrom m narrow num den 20 (reachedPower num den 5 guess)

end Binary64

/-- How digits become a text. -/
structure FloatStyle where
  /-- The text is positional if the point stands after more digits than this … -/
  pointAbove : Int
  /-- … and after at most this many. -/
  pointUpTo : Int
  /-- A whole number ends with a point and a zero. -/
  wholePoint : Bool
  /-- A positive exponent has a sign. -/
  plusSign : Bool
  /-- The least number of exponent digits. -/
  exponentWidth : Nat
  /-- The texts of infinity, of its negative and of the undefined number. -/
  infinity : String
  negInfinity : String
  nan : String

namespace FloatStyle

/-- The digits of an exponent. -/
def exponentText (style : FloatStyle) (n : Int) : String :=
  let sign := if n < 0 then "-" else if style.plusSign then "+" else ""
  let digits := toString n.natAbs
  sign ++ String.ofList (List.replicate (style.exponentWidth - digits.length) '0') ++ digits

/-- Zeros. -/
def zeros (n : Nat) : List Char := List.replicate n '0'

/-- The text of a positive decimal. -/
def decimalText (style : FloatStyle) (d : Binary64.Decimal) : String :=
  let ds := Nat.toDigits 10 d.digits
  let point : Int := ds.length + d.power
  if style.pointAbove < point ∧ point ≤ style.pointUpTo then
    if 0 ≤ d.power then
      String.ofList (ds ++ zeros d.power.toNat) ++ (if style.wholePoint then ".0" else "")
    else if 0 < point then
      String.ofList (ds.take point.toNat ++ '.' :: ds.drop point.toNat)
    else String.ofList ('0' :: '.' :: zeros (-point).toNat ++ ds)
  else
    let tail := if ds.length = 1 then [] else '.' :: ds.drop 1
    String.ofList (ds.take 1 ++ tail) ++ "e" ++ style.exponentText (point - 1)

/-- The text of a number. -/
def text (style : FloatStyle) : Binary64 → String
  | .nan => style.nan
  | .infinite negative => if negative then style.negInfinity else style.infinity
  | .finite negative m e =>
    (if negative then "-" else "") ++
      if m = 0 then (if style.wholePoint then "0.0" else "0")
      else style.decimalText (Binary64.shortest m e)

/-- Every digit is written out. -/
def positional : FloatStyle := ⟨-400, 400, false, false, 1, "inf", "-inf", "NaN"⟩

/-- Every digit is written out, and a whole number has a point. -/
def pointed : FloatStyle := ⟨-400, 400, true, false, 1, "inf", "-inf", "NaN"⟩

/-- Very large and very small numbers have a signed exponent of at least two digits. -/
def signed : FloatStyle := ⟨-5, 16, true, true, 2, "inf", "-inf", "NaN"⟩

/-- Very large and very small numbers have a bare exponent; the special numbers start with a
point. -/
def plain : FloatStyle := ⟨-5, 16, true, false, 1, ".inf", "-.inf", ".nan"⟩

end FloatStyle

end BlobVault
