import BlobVault.Text.Hex
import BlobVault.Yaml.Cursor

/-!
# Scalars in a YAML text

A scalar is written plainly, in single or double quotes, or as a block of lines.  Within a scalar
a single break joins two lines by a space and each further break stands for itself.
-/

namespace BlobVault.Yaml

/-- How a scalar is written. -/
inductive ScalarStyle where
  | plain
  | single
  | double
  | literal
  | folded
  deriving DecidableEq, Repr

/-- The blanks and breaks between two words. -/
structure Gap where
  /-- The blanks, if there is no break. -/
  blanks : List Char
  /-- There is a break. -/
  broken : Bool
  /-- The first break. -/
  first : List Char
  /-- The further breaks. -/
  further : List Char

namespace Gap

/-- No gap. -/
def none : Gap := ⟨[], false, [], []⟩

/-- A gap after a break that is escaped. -/
def escaped : Gap := ⟨[], true, [], []⟩

/-- What a gap means. -/
def text (g : Gap) : List Char :=
  if g.broken then
    if g.first = ['\n'] then (if g.further.isEmpty then [' '] else g.further)
    else g.first ++ g.further
  else g.blanks

/-- Adds a break to a gap. -/
def addBreak (g : Gap) (b : List Char) : Gap :=
  if g.broken then { g with further := g.further ++ b } else ⟨[], true, b, g.further⟩

/-- Reads blanks and breaks.  A tab may not stand before column `least` of a new line. -/
def read (least : Nat) : (fuel : Nat) → Cursor → Gap → Option (Gap × Cursor)
  | 0, _, _ => .none
  | fuel + 1, c, g =>
    match c.here? with
    | .none => some (g, c)
    | some ch =>
      if isBlank ch then
        if g.broken then
          if ch = '\t' ∧ c.column < least then .none else read least fuel c.skip g
        else read least fuel c.skip { g with blanks := g.blanks ++ [ch] }
      else if isBreak ch then
        let (b, c) := c.readBreak
        read least fuel c (g.addBreak b)
      else some (g, c)

end Gap

/-! ### Plain scalars -/

/-- The indicators that end a plain scalar inside brackets. -/
def isFlowMark (c : Char) : Bool := c == ',' || c == '[' || c == ']' || c == '\x7b' || c == '\x7d'

/-- The number of characters of the plain word at the start of a text; `none` if a colon stands
before an indicator. -/
def wordLength? (inFlow : Bool) : List Char → Option Nat
  | [] => some 0
  | ch :: rest =>
    if isGap ch then some 0
    else if inFlow && ch == ':' && rest.head?.any fun d => isFlowMark d || d == '?' then none
    else if (ch == ':' && rest.head?.all isGap) || (inFlow && isFlowMark ch) then some 0
    else (wordLength? inFlow rest).map (· + 1)

/-- Reads the words of a plain scalar: its text, whether the text ends in a break, and the place
after it. -/
def plainWords (inFlow : Bool) (least : Nat) :
    (fuel : Nat) → Cursor → (text : List Char) → Gap → Option (List Char × Bool × Cursor)
  | 0, _, _, _ => none
  | fuel + 1, c, text, gap => do
    if c.atDocumentMarker || c.isAt '#' then some (text, gap.broken, c)
    else
      let n ← wordLength? inFlow c.rest
      let (text, gap) := if n = 0 then (text, gap) else (text ++ gap.text ++ c.rest.take n, Gap.none)
      let c := c.skip n
      if !c.here?.any isGap then some (text, gap.broken, c)
      else
        let (gap, c) ← Gap.read least (c.rest.length + 1) c gap
        if !inFlow && decide (c.column < least) then some (text, gap.broken, c)
        else plainWords inFlow least fuel c text gap

/-! ### Quoted scalars -/

/-- What a backslash and a character mean together. -/
def simpleEscape? (c : Char) : Option Char :=
  match c with
  | '0' => some '\x00'
  | 'a' => some '\x07'
  | 'b' => some '\x08'
  | 't' => some '\t'
  | '\t' => some '\t'
  | 'n' => some '\n'
  | 'v' => some '\x0b'
  | 'f' => some '\x0c'
  | 'r' => some '\r'
  | 'e' => some '\x1b'
  | ' ' => some ' '
  | '"' => some '"'
  | '/' => some '/'
  | '\\' => some '\\'
  | 'N' => some '\u0085'
  | '_' => some '\u00a0'
  | 'L' => some '\u2028'
  | 'P' => some '\u2029'
  | _ => none

/-- The number of digits after a backslash and a character. -/
def escapeDigits? (c : Char) : Option Nat :=
  match c with
  | 'x' => some 2
  | 'u' => some 4
  | 'U' => some 8
  | _ => none

/-- The character with the number that `n` hexadecimal digits give. -/
def escapedCode? (n : Nat) (cs : List Char) : Option Char := do
  let ds ← (cs.take n).mapM Hex.value?
  if ds.length < n then none
  else
    let code := ds.foldl (fun acc d => acc * 16 + d) 0
    if h : code.isValidChar then some (Char.ofNatAux code h) else none

/-- Reads an escape, after the place of its backslash. -/
def escape? (c : Cursor) : Option (Char × Cursor) := do
  let mark ← c.ahead? 1
  match simpleEscape? mark with
  | some ch => some (ch, c.skip 2)
  | none =>
    let n ← escapeDigits? mark
    let ch ← escapedCode? n (c.rest.drop 2)
    some (ch, c.skip (n + 2))

/-- Reads a quoted word, up to a gap or the closing quote; also says whether the word ends in an
escaped break. -/
def quotedWord (single : Bool) :
    (fuel : Nat) → Cursor → (text : List Char) → Option (List Char × Bool × Cursor)
  | 0, _, _ => none
  | fuel + 1, c, text =>
    match c.here? with
    | none => some (text, false, c)
    | some ch =>
      if isGap ch then some (text, false, c)
      else if single && ch == '\'' then
        if c.ahead? 1 == some '\'' then quotedWord single fuel (c.skip 2) (text ++ [ch])
        else some (text, false, c)
      else if !single && ch == '"' then some (text, false, c)
      else if !single && ch == '\\' then
        if (c.ahead? 1).any isBreak then some (text, true, c.skip.skipBreak)
        else do
          let (ch, c) ← escape? c
          quotedWord single fuel c (text ++ [ch])
      else quotedWord single fuel c.skip (text ++ [ch])

/-- Reads the words of a quoted scalar and its closing quote. -/
def quotedWords (single : Bool) :
    (fuel : Nat) → Cursor → (text : List Char) → Option (List Char × Cursor)
  | 0, _, _ => none
  | fuel + 1, c, text => do
    if c.atDocumentMarker || c.atEnd then none
    else
      let (word, escaped, c) ← quotedWord single (c.rest.length + 1) c []
      if c.isAt (if single then '\'' else '"') then some (text ++ word, c.skip)
      else
        let (gap, c) ← Gap.read 0 (c.rest.length + 1) c (if escaped then .escaped else .none)
        quotedWords single fuel c (text ++ word ++ gap.text)

/-- Reads a quoted scalar. -/
def quoted (single : Bool) (c : Cursor) : Option (List Char × Cursor) :=
  quotedWords single (c.rest.length + 1) c.skip []

/-! ### Blocks of lines -/

/-- What becomes of the breaks after the last line of a block. -/
inductive Chomping where
  | strip
  | clip
  | keep
  deriving DecidableEq

/-- The head of a block of lines. -/
structure BlockHead where
  chomping : Chomping
  /-- The indentation within the surrounding block. -/
  increment? : Option Nat

/-- The way of chomping that a character asks for. -/
def chomping? (c : Cursor) : Option Chomping :=
  if c.isAt '+' then some .keep else if c.isAt '-' then some .strip else none

/-- Reads the digit of an indentation; zero is refused. -/
def increment? (c : Cursor) : Option (Option Nat × Cursor) :=
  match c.here? with
  | some ch =>
    if ch = '0' then none
    else if ch.isDigit then some (some (ch.toNat - 48), c.skip)
    else some (none, c)
  | none => some (none, c)

/-- Reads the head of a block after its first character. -/
def blockHead? (c : Cursor) : Option (BlockHead × Cursor) :=
  match chomping? c with
  | some chomping => (increment? c.skip).map fun (n?, c) => (⟨chomping, n?⟩, c)
  | none => do
    let (n?, c) ← increment? c
    match n?, chomping? c with
    | some n, some chomping => some (⟨chomping, some n⟩, c.skip)
    | _, _ => some (⟨.clip, n?⟩, c)

/-- Moves over the spaces of an indentation; `none` stands for one that is not known yet. -/
def skipIndent (indent? : Option Nat) (c : Cursor) : Cursor :=
  let spaces := (c.rest.takeWhile (· == ' ')).length
  match indent? with
  | none => c.skip spaces
  | some n => c.skip (min spaces (n - c.column))

/-- Reads empty lines: their breaks, the greatest column met, and the place after them. -/
def emptyLines (indent? : Option Nat) :
    (fuel : Nat) → Cursor → (breaks : List Char) → (widest : Nat) →
      Option (List Char × Nat × Cursor)
  | 0, _, _, _ => none
  | fuel + 1, c, breaks, widest =>
    let c := skipIndent indent? c
    let widest := max widest c.column
    if c.isAt '\t' && indent?.all (c.column < ·) then none
    else if c.atBreak then
      let (b, c) := c.readBreak
      emptyLines indent? fuel c (breaks ++ b) widest
    else some (breaks, widest, c)

/-- Reads the lines of a block: `text` holds those before, `last` the break after them, and
`breaks` the empty lines after that. -/
def blockLines (literal : Bool) (indent : Nat) :
    (fuel : Nat) → Cursor → (text last breaks : List Char) → (afterBlank : Bool) →
      Option (List Char × List Char × List Char × Cursor)
  | 0, _, _, _, _, _ => none
  | fuel + 1, c, text, last, breaks, afterBlank => do
    if c.column ≠ indent || c.atEnd then some (text, last, breaks, c)
    else
      let blank := c.atBlank
      let joint :=
        if !literal && last.head? == some '\n' && !afterBlank && !blank then
          (if breaks.isEmpty then [' '] else breaks)
        else last ++ breaks
      let (line, c) := c.takeWhile fun ch => !isBreak ch
      let (last, c) := c.readBreak
      let (breaks, _, c) ← emptyLines (some indent) (c.rest.length + 1) c [] 0
      blockLines literal indent fuel c (text ++ joint ++ line) last breaks blank

/-- Reads a block scalar inside a block that is indented by `outer`, or by nothing. -/
def block (literal : Bool) (outer : Option Nat) (c : Cursor) : Option (List Char × Cursor) := do
  let (head, c) ← blockHead? c.skip
  let c ← c.endLine?
  let floor := outer.elim 0 (· + 1)
  let indent? := head.increment?.map fun n => outer.getD 0 + n
  let (breaks, widest, c) ← emptyLines indent? (c.rest.length + 1) c [] 0
  let indent := indent?.getD (max (max widest floor) 1)
  let (text, last, breaks, c) ← blockLines literal indent (c.rest.length + 1) c [] [] breaks false
  match head.chomping with
  | .strip => some (text, c)
  | .clip => some (text ++ last, c)
  | .keep => some (text ++ last ++ breaks, c)

end BlobVault.Yaml
