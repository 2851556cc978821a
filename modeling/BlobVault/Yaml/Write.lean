import BlobVault.Number.Shortest
import BlobVault.Yaml.Typed

/-!
# Writing YAML

Maps and lists are written as blocks, two columns for each level; the items of a list stand under
their key.  A text is written plainly if it would be read as the same text, in single quotes if it
could be mistaken, as a literal block if it has several lines, and in double quotes if it holds
anything that cannot stand there.
-/

namespace BlobVault.Yaml

/-- A document to be written. -/
inductive Value where
  | text (s : String)
  | natural (n : Nat)
  | float (x : Binary64)
  | list (items : List Value)
  | map (entries : List (String × Value))
  deriving Inhabited

/-! ### Texts -/

/-- The character may stand outside double quotes. -/
def isPrintable (c : Char) : Bool :=
  let n := c.toNat
  n == 10 || (0x20 ≤ n && n ≤ 0x7E) || (0xA0 ≤ n && n ≤ 0xFFFD && n ≠ 0xFEFF)

/-- Words that some readers take for truth values. -/
def truthWords : List String :=
  [ "y", "Y", "yes", "Yes", "YES", "n", "N", "no", "No", "NO", "true", "True", "TRUE", "false",
    "False", "FALSE", "on", "On", "ON", "off", "Off", "OFF" ]

/-- A plain scalar of this text could be mistaken for something else. -/
def isAmbiguous (s : String) : Bool :=
  truthWords.contains s
    || (match foundOf s with
        | .text _ => isPaddedNumber s.toList
        | _ => true)

/-- An indicator stands where it would not be read as text; `before` is the character in front. -/
def hasIndicator (before : Option Char) : List Char → Bool
  | [] => false
  | c :: rest =>
    let gapAfter := rest.head?.all isGap
    let here :=
      match before with
      | none => "#,[]\x7b\x7d&*!|>'\"%@`".toList.contains c || ("?:-".toList.contains c && gapAfter)
      | some b => (c == ':' && gapAfter) || (c == '#' && isGap b)
    here || hasIndicator (some c) rest

/-- A character of the first class stands right in front of one of the second. -/
def hasPair (p q : Char → Bool) : List Char → Bool
  | a :: b :: rest => (p a && q b) || hasPair p q (b :: rest)
  | _ => false

/-- What can stand for a text. -/
structure Allowed where
  plain : Bool
  single : Bool
  block : Bool

/-- The ways in which a text can be written. -/
def allowedFor (cs : List Char) : Allowed :=
  let space (c : Char) : Bool := c == ' '
  let edge (c? : Option Char) (p : Char → Bool) : Bool := c?.any p
  let marker := cs.take 3 == ['-', '-', '-'] || cs.take 3 == ['.', '.', '.']
  let special := !cs.all isPrintable || hasPair space isBreak cs
  let breakSpace := hasPair isBreak space cs
  let outer := edge cs.head? (fun c => space c || isBreak c)
    || edge cs.getLast? (fun c => space c || isBreak c)
  { plain := !(special || breakSpace || outer || marker || cs.any isBreak || hasIndicator none cs),
    single := !(special || breakSpace),
    block := !(special || cs.isEmpty || edge cs.getLast? space) }

/-- The style in which a text is written. -/
def styleOf (s : String) : ScalarStyle :=
  let allowed := allowedFor s.toList
  let inQuotes : ScalarStyle := if allowed.single then .single else .double
  if truthWords.contains s then inQuotes
  else if s.toList.contains '\n' then (if allowed.block then .literal else .double)
  else if isAmbiguous s || !allowed.plain then inQuotes
  else .plain

/-- Columns of blanks. -/
def blanks (indent : Nat) : List Char := List.replicate indent ' '

/-- The characters of a text in single quotes. -/
def singleChars (indent : Nat) (afterBreak : Bool) : List Char → List Char
  | [] => if afterBreak then blanks indent else []
  | c :: rest =>
    if c == ' ' then c :: singleChars indent afterBreak rest
    else if isBreak c then c :: singleChars indent true rest
    else
      (if afterBreak then blanks indent else []) ++ (if c == '\'' then ['\'', '\''] else [c])
        ++ singleChars indent false rest

/-- A number in the given number of hexadecimal digits. -/
def hexChars (width n : Nat) : List Char :=
  (List.range width).map fun i => (Hex.digit (n / Nat.pow 16 (width - 1 - i) % 16)).toUpper

/-- The escape of a character in double quotes. -/
def escapeOf (c : Char) : List Char :=
  match c.toNat with
  | 0 => ['0']
  | 7 => ['a']
  | 8 => ['b']
  | 9 => ['t']
  | 10 => ['n']
  | 11 => ['v']
  | 12 => ['f']
  | 13 => ['r']
  | 27 => ['e']
  | 34 => ['"']
  | 92 => ['\\']
  | 0x85 => ['N']
  | 0xA0 => ['_']
  | 0x2028 => ['L']
  | 0x2029 => ['P']
  | n =>
    if n ≤ 0xFF then 'x' :: hexChars 2 n
    else if n ≤ 0xFFFF then 'u' :: hexChars 4 n
    else 'U' :: hexChars 8 n

/-- The characters of a text in double quotes. -/
def doubleChars (cs : List Char) : List Char :=
  cs.flatMap fun c =>
    if !isPrintable c || isBreak c || c == '"' || c == '\\' then '\\' :: escapeOf c else [c]

/-- The lines of a literal block. -/
def literalChars (indent : Nat) (afterBreak : Bool) : List Char → List Char
  | [] => []
  | c :: rest =>
    if isBreak c then c :: literalChars indent true rest
    else (if afterBreak then blanks indent else []) ++ c :: literalChars indent false rest

/-- The head of a literal block: a digit if the text begins with a space or a break, and the
treatment of its last breaks. -/
def literalHead (cs : List Char) : List Char :=
  let indentHint := if cs.head?.any fun c => c == ' ' || isBreak c then ['2'] else []
  let chomping :=
    match cs.reverse with
    | [] => ['-']
    | last :: before =>
      if !isBreak last then ['-']
      else if before.head?.all isBreak then ['+']
      else []
  '|' :: (indentHint ++ chomping)

/-- The characters of a text after its key, with the break at their end. -/
def textChars (indent : Nat) (s : String) : List Char :=
  let cs := s.toList
  match styleOf s with
  | .plain => cs ++ ['\n']
  | .single => '\'' :: (singleChars indent false cs ++ ['\'', '\n'])
  | .literal | .folded =>
    literalHead cs ++ '\n' :: literalChars indent true cs
      ++ (if cs.getLast?.any isBreak then [] else ['\n'])
  | .double => '"' :: (doubleChars cs ++ ['"', '\n'])

namespace Value

mutual

/-- The characters of a value after its key or mark.  Its own lines are indented by `indent`;
`fresh` says that the value may go on in the same line. -/
def chars (indent : Nat) (afterMark : Bool) : Value → List Char
  | text s => ' ' :: textChars (indent + 2) s
  | natural n => ' ' :: (Nat.toDigits 10 n ++ ['\n'])
  | float x => ' ' :: ((FloatStyle.plain.text x).toList ++ ['\n'])
  | list [] => " []\n".toList
  | list items => '\n' :: itemChars indent items
  | map [] => " \x7b\x7d\n".toList
  | map entries =>
    if afterMark then ' ' :: entryChars (indent + 2) false entries
    else '\n' :: entryChars (indent + 2) true entries

/-- The characters of the items of a list. -/
def itemChars (indent : Nat) : List Value → List Char
  | [] => []
  | v :: vs => blanks indent ++ '-' :: v.chars indent true ++ itemChars indent vs

/-- The characters of the entries of a map; the first one may stand after a mark. -/
def entryChars (indent : Nat) (indented : Bool) : List (String × Value) → List Char
  | [] => []
  | (key, v) :: rest =>
    (if indented then blanks indent else []) ++ key.toList ++ ':' :: v.chars indent false
      ++ entryChars indent true rest

end

/-- The text of a document that is a map. -/
def render : Value → String
  | map entries => String.ofList (entryChars 0 true entries)
  | v => String.ofList (v.chars 0 false)

end Value

end BlobVault.Yaml
