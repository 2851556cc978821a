import BlobVault.Document.Shape
import BlobVault.Text.Hex
import BlobVault.Yaml.Node

/-!
# What scalars denote

A plain scalar denotes null, a truth value, a number or else its own text; a tag can say which of
these it is.  Integers may be hexadecimal, octal or binary.  Several digits of which the first is
zero are a text.
-/

namespace BlobVault.Yaml

/-- YAML calls null a unit value, and writes every digit of a number. -/
def wording : Wording := ⟨"unit value", FloatStyle.pointed⟩

/-- The scalar denotes null. -/
def isNull (text : String) : Bool := ["null", "Null", "NULL", "~"].contains text

/-- The truth value of a scalar. -/
def boolean? (text : String) : Option Bool :=
  if ["true", "True", "TRUE"].contains text then some true
  else if ["false", "False", "FALSE"].contains text then some false
  else none

/-- The number with the given digits. -/
def digits? (radix : Nat) (cs : List Char) : Option Nat := do
  let ds ← cs.mapM Hex.value?
  if ds.isEmpty || ds.any (radix ≤ ·) then none
  else some (ds.foldl (fun n d => n * radix + d) 0)

/-- Several digits of which the first is zero, perhaps after a sign. -/
def isPaddedNumber (cs : List Char) : Bool :=
  let cs := match cs with
    | '-' :: rest => rest
    | '+' :: rest => rest
    | _ => cs
  match cs with
  | '0' :: c :: rest => (c :: rest).all Char.isDigit
  | _ => false

/-- The number after a mark of its radix. -/
def marked? : List Char → Option Nat
  | '0' :: 'x' :: cs => digits? 16 cs
  | '0' :: 'o' :: cs => digits? 8 cs
  | '0' :: 'b' :: cs => digits? 2 cs
  | _ => none

/-- The number of an integer without a minus sign. -/
def unsigned? (text : String) : Option Nat :=
  let cs := text.toList
  let unmarked := match cs with
    | '+' :: rest => rest
    | _ => cs
  match marked? unmarked with
  | some n => some n
  | none => if isPaddedNumber cs then none else digits? 10 unmarked

/-- The magnitude of an integer with a minus sign. -/
def negative? (text : String) : Option Nat :=
  match text.toList with
  | '-' :: cs =>
    match marked? cs with
    | some n => some n
    | none => if isPaddedNumber cs then none else digits? 10 cs
  | _ => none

/-- What an integer of at most 128 bits is found to be. -/
def integer? (text : String) : Option Found :=
  match unsigned? text, negative? text with
  | some n, _ =>
    if n < Nat.pow 2 64 then some (.unsigned n)
    else if n < Nat.pow 2 128 then some (.wide n)
    else none
  | none, some n =>
    if n = 0 then some (.unsigned 0)
    else if n ≤ Nat.pow 2 63 then some (.negative n)
    else if n ≤ Nat.pow 2 127 then some (.wide (-n))
    else none
  | none, none => none

/-- The number of a decimal fraction; too large numbers are none. -/
def fraction? (negative : Bool) (cs : List Char) : Option Binary64 := do
  let whole := cs.takeWhile Char.isDigit
  let rest := cs.drop whole.length
  let (part, rest) := match rest with
    | '.' :: rest => (rest.takeWhile Char.isDigit, rest.dropWhile Char.isDigit)
    | _ => ([], rest)
  let power : Int ← match rest with
    | [] => some 0
    | c :: '-' :: ds => if c == 'e' || c == 'E' then (digits? 10 ds).map fun n => -(n : Int) else none
    | c :: '+' :: ds => if c == 'e' || c == 'E' then (digits? 10 ds).map Int.ofNat else none
    | c :: ds => if c == 'e' || c == 'E' then (digits? 10 ds).map Int.ofNat else none
  let digits ← digits? 10 (whole ++ part)
  let power := power - part.length
  let size : Int := (Nat.toDigits 10 digits).length + power
  if digits = 0 || size < -400 then some (.finite negative 0 (-1074))
  else if 400 < size then none
  else
    let x := Binary64.ofDecimal negative digits power
    if x.isFinite then some x else none

/-- The number of a scalar that denotes one with a fraction, or that may stand for one. -/
def float? (text : String) : Option Binary64 :=
  if [".inf", ".Inf", ".INF", "+.inf", "+.Inf", "+.INF"].contains text then some (.infinite false)
  else if ["-.inf", "-.Inf", "-.INF"].contains text then some (.infinite true)
  else if [".nan", ".NaN", ".NAN"].contains text then some .nan
  else
    match text.toList with
    | '-' :: cs => fraction? true cs
    | '+' :: cs => fraction? false cs
    | cs => fraction? false cs

/-- What a plain scalar without a tag is found to be. -/
def foundOf (text : String) : Found :=
  if text.isEmpty || isNull text then .null
  else
    match boolean? text with
    | some b => .boolean b
    | none =>
      match integer? text with
      | some f => f
      | none =>
        match (if isPaddedNumber text.toList then none else float? text) with
        | some x => .float x
        | none => .text text

/-- The tag of a type that every document knows. -/
def commonTag (name : String) : String := "tag:yaml.org,2002:" ++ name

/-- What a scalar is found to be.  A tag of a common type must fit the text. -/
def foundIn (text : String) (style : ScalarStyle) (tag? : Option String) : Except Misfit Found :=
  match tag? with
  | none => .ok (if style = .plain then foundOf text else .text text)
  | some tag =>
    let refuse (expecting : String) : Except Misfit Found :=
      .error (.wrongValue (.text text) expecting)
    if tag == commonTag "bool" then
      match boolean? text with
      | some b => .ok (.boolean b)
      | none => refuse "a boolean"
    else if tag == commonTag "int" then
      match integer? text with
      | some f => .ok f
      | none => refuse "an integer"
    else if tag == commonTag "float" then
      match float? text with
      | some x => .ok (.float x)
      | none => refuse "a float"
    else if tag == commonTag "null" then (if isNull text then .ok .null else refuse "null")
    else if tag.startsWith "!" && style == .plain then .ok (foundOf text)
    else .ok (.text text)

/-- A scalar that denotes something of a type: it is plain, or a literal block with the tag of the
type. -/
def mayDenote (type : String) (style : ScalarStyle) (tag? : Option String) : Bool :=
  style = .plain || (style = .literal && tag? == some (commonTag type))

end BlobVault.Yaml
