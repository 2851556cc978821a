/-!
# Places in a YAML text

A `Cursor` is a place in a text, with the line and the column that it lies in.  Columns decide how
blocks are nested, and lines decide which keys need no mark of their own.
-/

namespace BlobVault.Yaml

/-- The character ends a line. -/
def isBreak (c : Char) : Bool :=
  c == '\n' || c == '\r' || c == '\u0085' || c == '\u2028' || c == '\u2029'

/-- The character is a space or a tab. -/
def isBlank (c : Char) : Bool := c == ' ' || c == '\t'

/-- The character separates words. -/
def isGap (c : Char) : Bool := isBlank c || isBreak c

/-- The character may stand in a name. -/
def isWord (c : Char) : Bool := c.isAlphanum || c == '_' || c == '-'

/-- The character may stand in a text at all. -/
def isAllowed (c : Char) : Bool :=
  let n := c.toNat
  n == 9 || n == 10 || n == 13 || (32 ≤ n && n ≤ 126) || n == 0x85 || (0xA0 ≤ n && n ≤ 0xFFFD)
    || 0x10000 ≤ n

/-- A place in a text. -/
structure Cursor where
  /-- The text from here on. -/
  rest : List Char
  /-- The characters before this place. -/
  index : Nat
  line : Nat
  column : Nat

namespace Cursor

/-- The start of a text, after a mark of its byte order. -/
def start (text : String) : Cursor :=
  match text.toList with
  | '\ufeff' :: rest => ⟨rest, 0, 0, 0⟩
  | cs => ⟨cs, 0, 0, 0⟩

/-- The character here. -/
def here? (c : Cursor) : Option Char := c.rest.head?

/-- The character so many places further on. -/
def ahead? (c : Cursor) (n : Nat) : Option Char := c.rest[n]?

/-- The text ends here. -/
def atEnd (c : Cursor) : Bool := c.rest.isEmpty

/-- A break stands here. -/
def atBreak (c : Cursor) : Bool := c.here?.any isBreak

/-- A space or a tab stands here. -/
def atBlank (c : Cursor) : Bool := c.here?.any isBlank

/-- A break or the end of the text stands here. -/
def atLineEnd (c : Cursor) : Bool := c.here?.all isBreak

/-- A blank, a break or the end of the text stands so many places further on. -/
def gapAt (c : Cursor) (n : Nat) : Bool := (c.ahead? n).all isGap

/-- The given character stands here. -/
def isAt (c : Cursor) (ch : Char) : Bool := c.here? == some ch

/-- Moves over characters that are no breaks. -/
def skip (c : Cursor) (n : Nat := 1) : Cursor :=
  ⟨c.rest.drop n, c.index + n, c.line, c.column + n⟩

/-- The number of characters of the break that a text begins with. -/
def breakLength : List Char → Nat
  | '\r' :: '\n' :: _ => 2
  | _ => 1

/-- Moves over a break. -/
def skipBreak (c : Cursor) : Cursor :=
  let n := breakLength c.rest
  ⟨c.rest.drop n, c.index + n, c.line + 1, 0⟩

/-- What the break that stands here means in a scalar, and the place after it.  Breaks of
paragraphs are kept and all others are the same. -/
def readBreak (c : Cursor) : List Char × Cursor :=
  match c.here? with
  | some '\u2028' => (['\u2028'], c.skipBreak)
  | some '\u2029' => (['\u2029'], c.skipBreak)
  | some ch => if isBreak ch then (['\n'], c.skipBreak) else ([], c)
  | none => ([], c)

/-- Moves over the characters of a class that holds no breaks. -/
def takeWhile (c : Cursor) (p : Char → Bool) : List Char × Cursor :=
  let taken := c.rest.takeWhile p
  (taken, c.skip taken.length)

/-- Moves over blanks. -/
def skipBlanks (c : Cursor) : Cursor := (c.takeWhile isBlank).2

/-- Moves over a comment, if one stands here. -/
def skipComment (c : Cursor) : Cursor :=
  if c.isAt '#' then (c.takeWhile fun ch => !isBreak ch).2 else c

/-- Moves over the blanks and the comment at the end of a line, and over its break; `none` if
anything else stands there. -/
def endLine? (c : Cursor) : Option Cursor :=
  let c := c.skipBlanks.skipComment
  if c.atEnd then some c else if c.atBreak then some c.skipBreak else none

/-- A line of three equal characters that begins or ends a document stands here. -/
def atMarker (c : Cursor) (ch : Char) : Bool :=
  c.column == 0 && c.rest.take 3 == [ch, ch, ch] && c.gapAt 3

/-- A line that begins or ends a document stands here. -/
def atDocumentMarker (c : Cursor) : Bool := c.atMarker '-' || c.atMarker '.'

end Cursor

end BlobVault.Yaml
