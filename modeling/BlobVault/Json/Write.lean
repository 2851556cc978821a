import BlobVault.Text.Hex

/-!
# Writing JSON

A document is written without blanks.  In strings only quotes, backslashes and control characters
are escaped.
-/

namespace BlobVault.Json

/-- A document to be written. -/
inductive Value where
  | null
  | boolean (b : Bool)
  | natural (n : Nat)
  | text (s : String)
  | list (items : List Value)
  | object (members : List (String × Value))
  deriving Inhabited

/-- The written form of a character of a string. -/
def escapeChar (c : Char) : List Char :=
  if c = '"' then ['\\', '"']
  else if c = '\\' then ['\\', '\\']
  else if c = '\n' then ['\\', 'n']
  else if c = '\r' then ['\\', 'r']
  else if c = '\t' then ['\\', 't']
  else if c.toNat = 8 then ['\\', 'b']
  else if c.toNat = 12 then ['\\', 'f']
  else if c.toNat < 32 then
    ['\\', 'u', '0', '0', Hex.digit (c.toNat / 16), Hex.digit (c.toNat % 16)]
  else [c]

/-- A string in quotes. -/
def quoted (s : String) : List Char := '"' :: (s.toList.flatMap escapeChar ++ ['"'])

namespace Value

mutual

/-- The characters of a document. -/
def chars : Value → List Char
  | null => ['n', 'u', 'l', 'l']
  | boolean true => ['t', 'r', 'u', 'e']
  | boolean false => ['f', 'a', 'l', 's', 'e']
  | natural n => Nat.toDigits 10 n
  | text s => quoted s
  | list items => '[' :: itemChars true items
  | object members => '\x7b' :: memberChars true members

/-- The characters of the items of a list, and its end. -/
def itemChars (first : Bool) : List Value → List Char
  | [] => [']']
  | v :: vs => (if first then [] else [',']) ++ v.chars ++ itemChars false vs

/-- The characters of the members of an object, and its end. -/
def memberChars (first : Bool) : List (String × Value) → List Char
  | [] => ['\x7d']
  | (key, v) :: rest =>
    (if first then [] else [',']) ++ quoted key ++ ':' :: v.chars ++ memberChars false rest

end

/-- The text of a document. -/
def render (v : Value) : String := String.ofList v.chars

end Value

end BlobVault.Json
