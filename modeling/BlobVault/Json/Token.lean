import BlobVault.Document.Shape
import BlobVault.Json.Cursor

/-!
# Numbers, strings and names in JSON

Integers of up to 64 bits are kept exact.  Any other number becomes a double: its first digits,
as many as fit into 64 bits, times a power of ten, with one rounding for each.
-/

namespace BlobVault.Json

namespace Reading

/-! ### Numbers -/

/-- Takes digits into a significand as long as it fits into 64 bits; counts those left. -/
def accumulate : List Nat → (significand : Nat) → Nat × Nat
  | [], s => (s, 0)
  | d :: ds, s => if s * 10 + d < Nat.pow 2 64 then accumulate ds (s * 10 + d) else (s, ds.length + 1)

/-- Ten to a power of at most 308, as a double. -/
def tenTo (n : Nat) : Binary64 := Binary64.ofNat (Nat.pow 10 n)

/-- A significand times a power of ten. -/
def scaleBy : (fuel : Nat) → Binary64 → Int → Reading Binary64
  | 0, x, _ => pure x
  | fuel + 1, x, power =>
    if power.natAbs ≤ 308 then
      if 0 ≤ power then
        let y := x.mul (tenTo power.natAbs)
        if y.isFinite then pure y else failHere .numberRange
      else pure (x.div (tenTo power.natAbs))
    else if x.isZero then pure x
    else if 0 ≤ power then failHere .numberRange
    else scaleBy fuel (x.div (tenTo 308)) (power + 308)

/-- A double with its sign. -/
def signed (positive : Bool) (x : Binary64) : Found := .float (if positive then x else x.neg)

/-- The double made of a significand and a power of ten. -/
def float (positive : Bool) (significand : Nat) (power : Int) : Reading Found := do
  let x ← scaleBy 8 (Binary64.ofNat significand) power
  pure (signed positive x)

/-- Reads the exponent of a number; the mark before it is next. -/
def exponent (positive : Bool) (significand : Nat) (power : Int) : Reading Found := do
  skip
  let sign ← peekChar
  if sign = '+' ∨ sign = '-' then skip
  match ← next with
  | none => failHere .endInValue
  | some b =>
    if b < 48 ∨ 57 < b then failHere .badNumber
    else
      let ds ← digits
      let n := ds.foldl (fun n d => n * 10 + d) (b.toNat - 48)
      if n < Nat.pow 2 31 then float positive significand (if sign = '-' then power - n else power + n)
      else if significand ≠ 0 ∧ sign ≠ '-' then failHere .numberRange
      else pure (signed positive (.ofNat 0))

/-- Reads what follows the digits of a fraction. -/
def afterFraction (positive : Bool) (significand : Nat) (power : Int) : Reading Found := do
  let ch ← peekChar
  if ch = 'e' ∨ ch = 'E' then exponent positive significand power
  else float positive significand power

/-- Reads the fraction of a number; the point is next. -/
def decimals (positive : Bool) (significand : Nat) (power : Int) : Reading Found := do
  skip
  let ds ← digits
  if ds.isEmpty then
    match ← peek with
    | some _ => failNext .badNumber
    | none => failNext .endInValue
  else
    let (s, left) := accumulate ds significand
    afterFraction positive s (power - ((ds.length : Int) - left))

/-- Reads the rest of a number after the digits of its whole part, of which `left` did not fit
into the significand. -/
def afterWhole (positive : Bool) (significand left : Nat) : Reading Found := do
  let ch ← peekChar
  if ch = '.' then decimals positive significand left
  else if ch = 'e' ∨ ch = 'E' then exponent positive significand left
  else if left ≠ 0 then float positive significand left
  else if positive then pure (.unsigned significand)
  else if significand = 0 ∨ Nat.pow 2 63 < significand then pure (signed false (.ofNat significand))
  else pure (.negative significand)

/-- Reads a number after its sign. -/
def number (positive : Bool) : Reading Found := do
  match ← next with
  | none => failHere .endInValue
  | some b =>
    if b = 48 then
      let ch ← peekChar
      if ch.isDigit then failNext .badNumber else afterWhole positive 0 0
    else if 49 ≤ b ∧ b ≤ 57 then
      let ds ← digits
      let (s, left) := accumulate ds (b.toNat - 48)
      afterWhole positive s left
    else failHere .badNumber

/-! ### Strings -/

/-- Takes the next four bytes as hexadecimal digits. -/
def hex4 : Reading Nat := fun c =>
  let ds := (c.rest.take 4).map fun b => Hex.value? (Char.ofNat b.toNat)
  if ds.length < 4 then (.error ⟨.endInString, some (c.advanceMany ds.length).place⟩,
    c.advanceMany ds.length)
  else
    let c := c.advanceMany 4
    match ds with
    | [some w, some x, some y, some z] => (.ok (((w * 16 + x) * 16 + y) * 16 + z), c)
    | _ => (.error ⟨.badEscape, some c.place⟩, c)

/-- Takes a byte that must be there inside a string. -/
def inString : Reading UInt8 := do
  match ← next with
  | some b => pure b
  | none => failHere .endInString

/-- Takes a byte that must follow the first half of a surrogate pair. -/
def pairMark (mark : UInt8) : Reading Unit := do
  match ← peek with
  | none => failHere .endInString
  | some b => do
    skip
    if b = mark then pure () else failHere .missingSurrogate

/-- Reads the digits of a numeric escape, which may be a surrogate pair. -/
def unicodeEscape : Reading Bytes := do
  let n ← hex4
  if 0xDC00 ≤ n ∧ n < 0xE000 then failHere .loneSurrogate
  else if n < 0xD800 ∨ 0xE000 ≤ n then pure (Utf8.encodeCode n)
  else
    pairMark 92
    pairMark 117
    let m ← hex4
    if m < 0xDC00 ∨ 0xE000 ≤ m then failHere .loneSurrogate
    else pure (Utf8.encodeCode ((n - 0xD800) * 1024 + (m - 0xDC00) + 0x10000))

/-- What a letter after a backslash stands for. -/
def simpleEscape? (b : UInt8) : Option UInt8 :=
  match Char.ofNat b.toNat with
  | '"' => some 34
  | '\\' => some 92
  | '/' => some 47
  | 'b' => some 8
  | 'f' => some 12
  | 'n' => some 10
  | 'r' => some 13
  | 't' => some 9
  | _ => none

/-- Reads an escape after its backslash. -/
def escape : Reading Bytes := do
  let b ← inString
  match simpleEscape? b with
  | some x => pure [x]
  | none => if b = 117 then unicodeEscape else failHere .badEscape

/-- A byte of a string that stands for itself. -/
def isOrdinary (b : UInt8) : Bool := b != 34 && b != 92 && 32 ≤ b

/-- Moves over ordinary bytes, and gives them. -/
def ordinary : Reading Bytes := fun c =>
  let bs := c.rest.takeWhile isOrdinary
  (.ok bs, c.advanceMany bs.length)

/-- Reads the bytes of a string before its closing quote; `parts` holds the first ones, newest
first. -/
def stringBytes : (fuel : Nat) → (parts : List Bytes) → Reading Bytes
  | 0, _ => failHere .endInString
  | fuel + 1, parts => do
    let run ← ordinary
    match ← peek with
    | none => failHere .endInString
    | some b =>
      if b = 34 then pure (run :: parts).reverse.flatten
      else do
        skip
        if b = 92 then
          let bs ← escape
          stringBytes fuel (bs :: run :: parts)
        else failHere .controlCharacter

/-- Reads a string after its opening quote. -/
def string : Reading String := do
  let bs ← stringBytes ((← remaining) + 1) []
  match Utf8.decode? bs with
  | some s => do
    skip
    pure s
  | none => failHere .badUnicode

/-- Moves over a string after its opening quote. -/
def skipString : (fuel : Nat) → Reading Unit
  | 0 => failHere .endInString
  | fuel + 1 => do
    let _ ← ordinary
    match ← peek with
    | none => failHere .endInString
    | some b =>
      if b = 34 then skip
      else if b = 92 then do
        skip
        let e ← inString
        if (simpleEscape? e).isSome then skipString fuel
        else if e = 117 then do
          let _ ← hex4
          skipString fuel
        else failHere .badEscape
      else failHere .controlCharacter

/-! ### Values without parts -/

/-- Reads the value that starts at the next byte, but not into a list or an object. -/
def found : Reading Found := do
  match ← peekToken with
  | none => failNext .endInValue
  | some b =>
    match Char.ofNat b.toNat with
    | 'n' => do skip; literal ['u', 'l', 'l']; pure .null
    | 't' => do skip; literal ['r', 'u', 'e']; pure (.boolean true)
    | 'f' => do skip; literal ['a', 'l', 's', 'e']; pure (.boolean false)
    | '-' => do skip; number false
    | '"' => do
      skip
      let s ← string
      pure (.text s)
    | '[' => pure .list
    | '\x7b' => pure .map
    | ch => if ch.isDigit then number true else failNext .expectedValue

end Reading

end BlobVault.Json
