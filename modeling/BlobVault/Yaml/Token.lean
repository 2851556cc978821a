import BlobVault.Text.Utf8
import BlobVault.Yaml.Scalar

/-!
# Tokens of a YAML text

Blocks are nested by their columns, and most keys carry no mark but the colon after them.  A
`Layout` is a place in a text with the blocks and brackets that are open there and the tokens
that may still turn out to belong to a key; `tokens` lists all tokens up to the end of the text or
up to the first place where it makes no sense.
-/

namespace BlobVault.Yaml

/-- The smallest parts of a text. -/
inductive Token where
  | streamEnd
  | version (major minor : Nat)
  | tagAlias (handle text : String)
  | documentStart
  | documentEnd
  | blockListStart
  | blockMapStart
  | blockEnd
  | listStart
  | listEnd
  | mapStart
  | mapEnd
  | item
  | separator
  | key
  | value
  | «alias» (name : String)
  | anchor (name : String)
  | tag (handle suffix : String)
  | scalar (text : String) (style : ScalarStyle)
  deriving DecidableEq, Repr

/-! ### Names and tags -/

/-- The characters that may stand right after an anchor. -/
def endsAnchor (c : Char) : Bool := isGap c || "?:,]\x7d%@`".toList.contains c

/-- Reads the name of an anchor, after the place of its mark. -/
def anchorName? (c : Cursor) : Option (String × Cursor) :=
  let (name, c) := c.skip.takeWhile isWord
  if name.isEmpty || !c.here?.all endsAnchor then none else some (String.ofList name, c)

/-- The character may stand in a tag. -/
def isTagChar (verbatim : Bool) (c : Char) : Bool :=
  isWord c || ";/?:@&=+$.%!~*'()".toList.contains c || (verbatim && ",[]".toList.contains c)

/-- The number of bytes of the character whose first byte is given. -/
def encodedWidth? (b : Nat) : Option Nat :=
  if b < 128 then some 1
  else if b / 32 = 6 then some 2
  else if b / 16 = 14 then some 3
  else if b / 8 = 30 then some 4
  else none

/-- Reads a byte that is written as a percent sign and two digits. -/
def escapedByte? (c : Cursor) : Option (Nat × Cursor) :=
  match c.rest with
  | '%' :: a :: b :: _ => do some ((← Hex.value? a) * 16 + (← Hex.value? b), c.skip 3)
  | _ => none

/-- Reads the further bytes of an escaped character. -/
def furtherBytes? : (count : Nat) → Cursor → Option (Bytes × Cursor)
  | 0, c => some ([], c)
  | n + 1, c => do
    let (b, c) ← escapedByte? c
    if b / 64 ≠ 2 then none
    else
      let (bs, c) ← furtherBytes? n c
      some (UInt8.ofNat b :: bs, c)

/-- Reads a character whose bytes are all escaped. -/
def escapedChar? (c : Cursor) : Option (List Char × Cursor) := do
  let (b, c) ← escapedByte? c
  let width ← encodedWidth? b
  let (bs, c) ← furtherBytes? (width - 1) c
  some (((Utf8.decode? (UInt8.ofNat b :: bs)).map String.toList).getD ['\ufffd'], c)

/-- Reads the characters of a tag. -/
def tagChars? (verbatim : Bool) : (fuel : Nat) → Cursor → Option (List Char × Cursor)
  | 0, _ => none
  | fuel + 1, c =>
    match c.here? with
    | none => some ([], c)
    | some ch =>
      if !isTagChar verbatim ch then some ([], c)
      else do
        let (cs, c) ← if ch == '%' then escapedChar? c else some ([ch], c.skip)
        let (rest, c) ← tagChars? verbatim fuel c
        some (cs ++ rest, c)

/-- Reads the rest of a tag, which may be empty only after a head. -/
def tagText? (verbatim : Bool) (head : List Char) (c : Cursor) : Option (List Char × Cursor) := do
  let (cs, c) ← tagChars? verbatim (c.rest.length + 1) c
  if head.isEmpty && cs.isEmpty then none else some (head.drop 1 ++ cs, c)

/-- Reads a handle: an exclamation mark, a name, and perhaps a second mark. -/
def tagHandle? (c : Cursor) : Option (List Char × Cursor) :=
  if c.isAt '!' then
    let (name, c) := c.skip.takeWhile isWord
    if c.isAt '!' then some ('!' :: name ++ ['!'], c.skip) else some ('!' :: name, c)
  else none

/-- The handle is closed by a second mark. -/
def isClosedHandle (h : List Char) : Bool := 2 ≤ h.length && h.getLast? == some '!'

/-- Reads a tag. -/
def tag? (inFlow : Bool) (c : Cursor) : Option (Token × Cursor) := do
  let (handle, suffix, c) ←
    if c.ahead? 1 == some '<' then do
      let (text, c) ← tagText? true [] (c.skip 2)
      if c.isAt '>' then some (([] : List Char), text, c.skip) else none
    else do
      let (handle, c) ← tagHandle? c
      if isClosedHandle handle then
        let (text, c) ← tagText? false [] c
        some (handle, text, c)
      else
        let (text, c) ← tagText? false handle c
        if text.isEmpty then some (([] : List Char), ['!'], c) else some (['!'], text, c)
  if c.gapAt 0 || (inFlow && c.isAt ',') then
    some (.tag (String.ofList handle) (String.ofList suffix), c)
  else none

/-! ### Directives -/

/-- Reads a number of at most nine digits. -/
def versionPart? (c : Cursor) : Option (Nat × Cursor) :=
  let (ds, c) := c.takeWhile Char.isDigit
  if ds.isEmpty || 9 < ds.length then none
  else some (ds.foldl (fun n d => n * 10 + (d.toNat - 48)) 0, c)

/-- Reads the rest of a version directive. -/
def version? (c : Cursor) : Option (Token × Cursor) := do
  let (major, c) ← versionPart? c.skipBlanks
  if c.isAt '.' then
    let (minor, c) ← versionPart? c.skip
    some (.version major minor, c)
  else none

/-- Reads the rest of a tag directive. -/
def tagAlias? (c : Cursor) : Option (Token × Cursor) := do
  let (handle, c) ← tagHandle? c.skipBlanks
  if !(isClosedHandle handle || handle == ['!']) || !c.atBlank then none
  else
    let (text, c) ← tagText? true [] c.skipBlanks
    if c.gapAt 0 then some (.tagAlias (String.ofList handle) (String.ofList text), c) else none

/-- Reads a directive and the rest of its line. -/
def directive? (c : Cursor) : Option (Token × Cursor) := do
  let (name, c) := c.skip.takeWhile isWord
  if name.isEmpty || !c.gapAt 0 then none
  else
    let (t, c) ←
      if name == "YAML".toList then version? c
      else if name == "TAG".toList then tagAlias? c
      else none
    some (t, ← c.endLine?)

/-! ### Layout -/

/-- A token that becomes a key if a colon follows. -/
structure PossibleKey where
  /-- Nothing else than a key may stand there. -/
  required : Bool
  /-- The number of the token. -/
  number : Nat
  place : Cursor

/-- A place in a text with what is open there. -/
structure Layout where
  place : Cursor
  /-- The column of the innermost block. -/
  indent? : Option Nat
  /-- The columns of the blocks around it. -/
  outer : List (Option Nat)
  /-- The possible keys of the innermost brackets and of those around them. -/
  keys : List (Option PossibleKey)
  /-- A key may begin here. -/
  keyAllowed : Bool
  /-- Tokens that are not handed out yet. -/
  queue : List Token
  /-- The number of tokens handed out. -/
  taken : Nat

namespace Layout

/-- The layout at the start of a text. -/
def start (text : String) : Layout := ⟨.start text, none, [], [none], true, [], 0⟩

/-- The place is inside brackets. -/
def inFlow (l : Layout) : Bool := 1 < l.keys.length

/-- Queues a token and goes on behind it. -/
def push (l : Layout) (t : Token) (place : Cursor) : Layout :=
  { l with queue := l.queue ++ [t], place := place }

/-- Moves over blanks, comments and breaks.  Tabs may not stand where a key may begin. -/
def skipGap : (fuel : Nat) → Layout → Layout
  | 0, l => l
  | fuel + 1, l =>
    let c := if l.place.index = 0 && l.place.isAt '\ufeff' then l.place.skip else l.place
    let tabs := l.inFlow || !l.keyAllowed
    let c := (c.takeWhile fun ch => ch == ' ' || (tabs && ch == '\t')).2.skipComment
    if c.atBreak then
      skipGap fuel { l with place := c.skipBreak, keyAllowed := l.keyAllowed || !l.inFlow }
    else { l with place := c }

/-- A possible key is forgotten after its line and after 1024 characters. -/
def PossibleKey.isStale (k : PossibleKey) (c : Cursor) : Bool :=
  k.place.line < c.line || k.place.index + 1024 < c.index

/-- Forgets a possible key, unless it is required. -/
def drop? : Option PossibleKey → Option (Option PossibleKey)
  | none => some none
  | some k => if k.required then none else some none

/-- Forgets the possible keys that came too long ago. -/
def dropStale? (l : Layout) : Option Layout := do
  let keys ← l.keys.mapM fun k? =>
    if k?.any (PossibleKey.isStale · l.place) then drop? k? else some k?
  some { l with keys := keys }

/-- Forgets the possible key of the innermost brackets. -/
def dropKey? (l : Layout) : Option Layout :=
  match l.keys with
  | [] => some l
  | k? :: ks => (drop? k?).map fun k? => { l with keys := k? :: ks }

/-- Makes the next token a possible key. -/
def noteKey? (l : Layout) : Option Layout :=
  if l.keyAllowed then do
    let l ← l.dropKey?
    let k : PossibleKey :=
      ⟨!l.inFlow && l.indent? == some l.place.column, l.taken + l.queue.length, l.place⟩
    some { l with keys := some k :: l.keys.tail }
  else some l

/-- Closes the blocks that are further right than a column, or all: their number, and the blocks
that stay open. -/
def closeBlocks (column? : Option Nat) :
    List (Option Nat) → Option Nat → Nat × Option Nat × List (Option Nat)
  | [], indent? => (0, indent?, [])
  | _ :: _, none => (0, none, [])
  | o :: os, some i =>
    if column?.all (· < i) then
      let (n, open?) := closeBlocks column? os o
      (n + 1, open?)
    else (0, some i, o :: os)

/-- Ends the blocks that are further right than a column. -/
def unroll (l : Layout) (column? : Option Nat) : Layout :=
  if l.inFlow then l
  else
    let (n, indent?, outer) := closeBlocks column? l.outer l.indent?
    { l with indent? := indent?, outer := outer,
             queue := l.queue ++ List.replicate n .blockEnd }

/-- Begins a block at a column, before the token of the given number, if the column is further
right than the innermost block. -/
def roll (l : Layout) (column : Nat) (number : Nat) (t : Token) : Layout :=
  if l.inFlow || l.indent?.any (column ≤ ·) then l
  else
    { l with indent? := some column, outer := l.indent? :: l.outer,
             queue := l.queue.insertIdx (number - l.taken) t }

/-- The number of the next token. -/
def nextNumber (l : Layout) : Nat := l.taken + l.queue.length

/-- Ends all blocks and the possible key before a line of its own. -/
def closeAll? (l : Layout) : Option Layout := do
  let l ← (l.unroll none).dropKey?
  some { l with keyAllowed := false }

/-- Queues the end of the text. -/
def streamEnd? (l : Layout) : Option Layout := do
  let c := l.place
  let c := if c.column = 0 then c else { c with line := c.line + 1, column := 0 }
  let l ← closeAll? { l with place := c }
  some (l.push .streamEnd c)

/-- Queues an opening bracket. -/
def openFlow? (l : Layout) (t : Token) : Option Layout := do
  let l ← l.noteKey?
  some { l.push t l.place.skip with keys := none :: l.keys, keyAllowed := true }

/-- Queues a closing bracket. -/
def closeFlow? (l : Layout) (t : Token) : Option Layout := do
  let l ← l.dropKey?
  let keys := if l.inFlow then l.keys.tail else l.keys
  some { l.push t l.place.skip with keys := keys, keyAllowed := false }

/-- Queues a comma. -/
def separator? (l : Layout) : Option Layout := do
  let l ← l.dropKey?
  some { l.push .separator l.place.skip with keyAllowed := true }

/-- Queues the mark of an item or of a key, and begins a block if need be. -/
def mark? (l : Layout) (start mark : Token) (keyAllowed : Bool) : Option Layout := do
  if !l.inFlow && !l.keyAllowed then none
  else
    let l ← (l.roll l.place.column l.nextNumber start).dropKey?
    some { l.push mark l.place.skip with keyAllowed := keyAllowed }

/-- Queues the colon after a key.  The key gets its mark now, if it had none. -/
def value? (l : Layout) : Option Layout :=
  match l.keys with
  | some k :: ks =>
    let l := { l with queue := l.queue.insertIdx (k.number - l.taken) .key, keys := none :: ks }
    let l := l.roll k.place.column k.number .blockMapStart
    some { l.push .value l.place.skip with keyAllowed := false }
  | _ =>
    if !l.inFlow && !l.keyAllowed then none
    else
      let l := l.roll l.place.column l.nextNumber .blockMapStart
      some { l.push .value l.place.skip with keyAllowed := !l.inFlow }

/-- Queues a token that may be a key. -/
def keyLike? (l : Layout) (read : Cursor → Option (Token × Cursor)) : Option Layout := do
  let l ← l.noteKey?
  let (t, c) ← read l.place
  some { l.push t c with keyAllowed := false }

/-- Queues a quoted scalar. -/
def quoted? (l : Layout) (single : Bool) : Option Layout :=
  l.keyLike? fun c => (quoted single c).map fun (text, c) =>
    (.scalar (String.ofList text) (if single then .single else .double), c)

/-- Queues a plain scalar.  A key may begin after it if it ends in a break. -/
def plain? (l : Layout) : Option Layout := do
  let l ← l.noteKey?
  let least := l.indent?.elim 0 (· + 1)
  let (text, broken, c) ←
    plainWords l.inFlow least (l.place.rest.length + 1) l.place [] .none
  some { l.push (.scalar (String.ofList text) .plain) c with keyAllowed := broken }

/-- Queues a block scalar. -/
def block? (l : Layout) (literal : Bool) : Option Layout := do
  let l ← l.dropKey?
  let (text, c) ← block literal l.indent? l.place
  some { l.push (.scalar (String.ofList text) (if literal then .literal else .folded)) c with
    keyAllowed := true }

/-- A plain scalar may begin with the character here. -/
def startsPlain (l : Layout) (ch : Char) : Bool :=
  let c := l.place
  !(isGap ch || "-?:,[]\x7b\x7d#&*!|>'\"%@`".toList.contains ch)
    || (ch == '-' && !(c.ahead? 1).any isBlank)
    || (!l.inFlow && (ch == '?' || ch == ':') && !c.gapAt 1)

/-- Queues the next token. -/
def advance? (l : Layout) : Option Layout := do
  let l ← (l.skipGap (l.place.rest.length + 1)).dropStale?
  let c := l.place
  let l := l.unroll (some c.column)
  match c.here? with
  | none => l.streamEnd?
  | some ch =>
    if c.column = 0 && ch == '%' then do
      let l ← l.closeAll?
      let (t, c) ← directive? c
      some (l.push t c)
    else if c.atMarker '-' then do
      some ((← l.closeAll?).push .documentStart (c.skip 3))
    else if c.atMarker '.' then do
      some ((← l.closeAll?).push .documentEnd (c.skip 3))
    else if ch == '[' then l.openFlow? .listStart
    else if ch == '\x7b' then l.openFlow? .mapStart
    else if ch == ']' then l.closeFlow? .listEnd
    else if ch == '\x7d' then l.closeFlow? .mapEnd
    else if ch == ',' then l.separator?
    else if ch == '-' && c.gapAt 1 then l.mark? .blockListStart .item true
    else if ch == '?' && (l.inFlow || c.gapAt 1) then l.mark? .blockMapStart .key (!l.inFlow)
    else if ch == ':' && (l.inFlow || c.gapAt 1) then l.value?
    else if ch == '*' then
      l.keyLike? fun c => (anchorName? c).map fun (name, c) => (.alias name, c)
    else if ch == '&' then
      l.keyLike? fun c => (anchorName? c).map fun (name, c) => (.anchor name, c)
    else if ch == '!' then l.keyLike? (tag? l.inFlow)
    else if ch == '|' && !l.inFlow then l.block? true
    else if ch == '>' && !l.inFlow then l.block? false
    else if ch == '\'' then l.quoted? true
    else if ch == '"' then l.quoted? false
    else if l.startsPlain ch then l.plain?
    else none

/-- The first queued token may still become a key, or there is none. -/
def unsettled (l : Layout) : Bool :=
  l.queue.isEmpty || l.keys.any fun k? => k?.any fun k => k.number == l.taken

/-- Queues tokens until the first one is settled. -/
def settle? : (fuel : Nat) → Layout → Option Layout
  | 0, _ => none
  | fuel + 1, l => do
    let l ← if l.queue.isEmpty then some l else l.dropStale?
    if l.unsettled then settle? fuel (← l.advance?) else some l

/-- The tokens from a place on, and whether they reach the end of the text. -/
def tokens : (fuel : Nat) → Layout → List Token × Bool
  | 0, _ => ([], false)
  | fuel + 1, l =>
    match l.settle? (l.place.rest.length + 3) with
    | none => ([], false)
    | some l =>
      match l.queue with
      | [] => ([], false)
      | .streamEnd :: _ => ([.streamEnd], true)
      | t :: queue =>
        let (ts, whole) := tokens fuel { l with queue := queue, taken := l.taken + 1 }
        (t :: ts, whole)

end Layout

/-- The tokens of a text, and whether the text makes sense up to its end. -/
def tokens (text : String) : List Token × Bool :=
  if text.toList.all isAllowed then
    Layout.tokens (5 * text.length + 10) (.start text)
  else ([], false)

end BlobVault.Yaml
