import BlobVault.Document.Content
import BlobVault.Json.Token

/-!
# Reading a JSON document of a given shape

Reading goes through the document once and stops at the first fault, be it one of the text or one
of the form.  A list may stand for a record, with its fields in order.
-/

namespace BlobVault.Json

/-- JSON calls nothing null, and writes exponents with a sign. -/
def wording : Wording := ⟨"null", FloatStyle.signed⟩

namespace Reading

variable {α σ : Type}

/-- Turns a misfit into a fault without a place. -/
def fit (x : Except Misfit α) : Reading α :=
  match x with
  | .ok a => pure a
  | .error e => failForm (e.message wording)

/-! ### Lists and objects -/

/-- Goes to the next item of a list, if there is one. -/
def moreItems (first : Bool) : Reading Bool := do
  match (← peekToken).map fun b => Char.ofNat b.toNat with
  | none => failNext .endInList
  | some ']' => pure false
  | some ',' =>
    if first then pure true
    else do
      skip
      match (← peekToken).map fun b => Char.ofNat b.toNat with
      | none => failNext .endInValue
      | some ']' => failNext .trailingComma
      | some _ => pure true
  | some _ => if first then pure true else failNext .expectedListEnd

/-- Goes to the next key of an object, if there is one. -/
def moreKeys (first : Bool) : Reading Bool := do
  match (← peekToken).map fun b => Char.ofNat b.toNat with
  | none => failNext .endInObject
  | some '\x7d' => pure false
  | some ch =>
    if first then (if ch = '"' then pure true else failNext .keyNotString)
    else if ch = ',' then do
      skip
      match (← peekToken).map fun b => Char.ofNat b.toNat with
      | none => failNext .endInValue
      | some '"' => pure true
      | some '\x7d' => failNext .trailingComma
      | some _ => failNext .keyNotString
    else failNext .expectedObjectEnd

/-- Reads the end of a list. -/
def endList : Reading Unit := do
  match (← peekToken).map fun b => Char.ofNat b.toNat with
  | none => failNext .endInList
  | some ']' => skip
  | some ',' => do
    skip
    match (← peekToken).map fun b => Char.ofNat b.toNat with
    | some ']' => failNext .trailingComma
    | _ => failNext .trailingCharacters
  | some _ => failNext .trailingCharacters

/-- Reads the end of an object. -/
def endObject : Reading Unit := do
  match (← peekToken).map fun b => Char.ofNat b.toNat with
  | none => failNext .endInObject
  | some '\x7d' => skip
  | some ',' => failNext .trailingComma
  | some _ => failNext .trailingCharacters

/-- Reads the colon between a key and its value. -/
def colon : Reading Unit := do
  match (← peekToken).map fun b => Char.ofNat b.toNat with
  | none => failNext .endInObject
  | some ':' => skip
  | some _ => failNext .expectedColon

/-- Reads the items of a list; `done` holds those before, newest first. -/
def items (item : Reading α) : (fuel : Nat) → (first : Bool) → (done : List α) → Reading (List α)
  | 0, _, done => pure done.reverse
  | fuel + 1, first, done => do
    if ← moreItems first then
      let a ← item
      items item fuel false (a :: done)
    else pure done.reverse

/-- Reads the members of an object: after each key, `member` reads its value. -/
def members (member : σ → String → Reading σ) : (fuel : Nat) → (first : Bool) → σ → Reading σ
  | 0, _, s => pure s
  | fuel + 1, first, s => do
    if ← moreKeys first then
      skip
      let key ← string
      let s ← member s key
      members member fuel false s
    else pure s

/-! ### Values of no interest -/

/-- Moves over the digits after the whole part of a number. -/
def skipNumberTail : Reading Unit := do
  let ch ← peekChar
  if ch = '.' then
    skip
    let ds ← digits
    if ds.isEmpty then failNext .badNumber
  let ch ← peekChar
  if ch = 'e' ∨ ch = 'E' then
    skip
    let sign ← peekChar
    if sign = '+' ∨ sign = '-' then skip
    match ← next with
    | some b =>
      if 48 ≤ b ∧ b ≤ 57 then
        let _ ← digits
        pure ()
      else failHere .badNumber
    | none => failHere .badNumber

/-- Moves over a number after its sign. -/
def skipNumber : Reading Unit := do
  match ← next with
  | none => failHere .badNumber
  | some b =>
    if b = 48 then
      let ch ← peekChar
      if ch.isDigit then failNext .badNumber else skipNumberTail
    else if 49 ≤ b ∧ b ≤ 57 then
      let _ ← digits
      skipNumberTail
    else failHere .badNumber

mutual

/-- Moves over a value.  One level of nesting takes at most two units of fuel for a byte. -/
def skipValue : (fuel : Nat) → Reading Unit
  | 0 => pure ()
  | fuel + 1 => do
    match ← peekToken with
    | none => failNext .endInValue
    | some b =>
      match Char.ofNat b.toNat with
      | 'n' => do skip; literal ['u', 'l', 'l']
      | 't' => do skip; literal ['r', 'u', 'e']
      | 'f' => do skip; literal ['a', 'l', 's', 'e']
      | '-' => do skip; skipNumber
      | '"' => do skip; skipString ((← remaining) + 1)
      | '[' => do skip; skipItems fuel true
      | '\x7b' => do skip; skipMembers fuel true
      | ch => if ch.isDigit then skipNumber else failNext .expectedValue

/-- Moves over the items of a list and its end. -/
def skipItems : (fuel : Nat) → (first : Bool) → Reading Unit
  | 0, _ => pure ()
  | fuel + 1, first => do
    match (← peekToken).map fun b => Char.ofNat b.toNat with
    | none => failNext .endInList
    | some ']' => skip
    | some ch =>
      if first then do skipValue fuel; skipItems fuel false
      else if ch = ',' then do skip; skipValue fuel; skipItems fuel false
      else failNext .expectedListEnd

/-- Moves over the members of an object and its end. -/
def skipMembers : (fuel : Nat) → (first : Bool) → Reading Unit
  | 0, _ => pure ()
  | fuel + 1, first => do
    match (← peekToken).map fun b => Char.ofNat b.toNat with
    | none => failNext .endInObject
    | some '\x7d' => skip
    | some ch =>
      if first then do skipMember fuel; skipMembers fuel false
      else if ch = ',' then do skip; skipMember fuel; skipMembers fuel false
      else failNext .expectedObjectEnd

/-- Moves over a key and its value. -/
def skipMember : (fuel : Nat) → Reading Unit
  | 0 => pure ()
  | fuel + 1 => do
    match (← peekToken).map fun b => Char.ofNat b.toNat with
    | none => failNext .endInObject
    | some '"' => do
      skip
      skipString ((← remaining) + 1)
      colon
      skipValue fuel
    | some _ => failNext .keyNotString

end

/-! ### Values of any shape -/

/-- Reads a value of any shape, with at most `depth` further lists and objects inside one
another. -/
def content : (depth : Nat) → Reading Content
  | 0 => do
    match ← placed found with
    | .list | .map => failNext .tooDeep
    | f => pure (.scalar f)
  | depth + 1 => do
    match ← found with
    | .list => do
      skip
      placed (followedBy (do
        let cs ← items (content depth) ((← remaining) + 1) true []
        pure (.list cs)) endList)
    | .map => do
      skip
      placed (followedBy (do
        let entries ← members (fun entries key => do
          colon
          let value ← content depth
          pure ((.scalar (.text key), value) :: entries)) ((← remaining) + 1) true []
        pure (.map entries.reverse)) endObject)
    | f => pure (.scalar f)

/-! ### Values of a given shape -/

/-- How one field of a record is read. -/
structure FieldReader where
  name : String
  read : Reading Datum
  missing : Missing

/-- Reads the fields of a record off a list. -/
def fieldItems (title : String) (count : Nat) :
    List FieldReader → (first : Bool) → (index : Nat) → Reading (List Datum)
  | [], _, _ => pure []
  | f :: fs, first, index => do
    if ← moreItems first then
      let d ← f.read
      let ds ← fieldItems title count fs false (index + 1)
      pure (d :: ds)
    else
      match f.missing.inList? with
      | some d => do
        let ds ← fieldItems title count fs first (index + 1)
        pure (d :: ds)
      | none =>
        fit (.error (.wrongLength index
          ("struct " ++ title ++ " with " ++ countText count "element")))

/-- Reads the value of a field of a record, or moves over an unknown one. -/
def fieldMember (fs : List FieldReader) (seen : List (String × Datum)) (key : String) :
    Reading (List (String × Datum)) :=
  match fs.find? fun f => f.name == key with
  | none => do
    colon
    skipValue (2 * (← remaining) + 2)
    pure seen
  | some f =>
    if (seen.lookup key).isSome then fit (.error (.duplicateField key))
    else do
      colon
      let d ← f.read
      pure ((key, d) :: seen)

/-- Reads a record. -/
def record (title : String) (fs : List FieldReader) : Reading Datum :=
  placed do
    match ← found with
    | .list => do
      skip
      followedBy (do
        let ds ← fieldItems title fs.length fs true 0
        pure (.record ds)) endList
    | .map => do
      skip
      followedBy (do
        let seen ← members (fieldMember fs) ((← remaining) + 1) true []
        let ds ← fit (fieldsOfMap (fs.map fun f => ⟨f.name, (), f.missing⟩) seen)
        pure (.record ds)) endObject
    | f => fit (.error (.wrongType f ("struct " ++ title)))

/-- Reads the tag of a tagged record. -/
def tag (variants : List Variant) : Reading Variant :=
  placed do
    match ← found with
    | .text name => fit (variantOf variants name)
    | f => fit (.error (.wrongType f "variant identifier"))

/-- Reads a tagged record. -/
def tagged (title tagName : String) (variants : List Variant) (depth : Nat) : Reading Datum := do
  let (v, c) ← placed do
    match ← found with
    | .list => do
      skip
      followedBy (do
        if ← moreItems true then
          let v ← tag variants
          let cs ← items (content depth) ((← remaining) + 1) false []
          pure (v, .list cs)
        else fit (.error (.missingField tagName))) endList
    | .map => do
      skip
      followedBy (do
        let (v?, entries) ← members (fun (s : Option Variant × List (Content × Content)) key => do
          if key == tagName then
            if s.1.isSome then fit (.error (.duplicateField tagName))
            else
              colon
              let v ← tag variants
              pure (some v, s.2)
          else
            colon
            let value ← content depth
            pure (s.1, (.scalar (.text key), value) :: s.2)) ((← remaining) + 1) true (none, [])
        match v? with
        | some v => pure (v, Content.map entries.reverse)
        | none => fit (.error (.missingField tagName))) endObject
    | f => fit (.error (.wrongType f ("internally tagged enum " ++ title)))
  let ds ← fit (c.readVariant v)
  pure (.variant v.name ds)

/-- Reads a value without parts. -/
def plain (p : Plain) : Reading Datum :=
  placed do
    let f ← found
    fit (p.accept f)

/-- Reads a list. -/
def listOf (item : Reading Datum) : Reading Datum :=
  placed do
    match ← found with
    | .list => do
      skip
      followedBy (do
        let ds ← items item ((← remaining) + 1) true []
        pure (.list ds)) endList
    | f => fit (.error (.wrongType f "a sequence"))

/-- Reads a value that may be null. -/
def optional (value : Reading Datum) : Reading Datum := do
  match ← peekToken with
  | some 110 => do
    skip
    literal ['u', 'l', 'l']
    pure .absent
  | _ => value

mutual

/-- Reads a value of a given shape; `depth` bounds the lists and objects inside one another. -/
def shaped (depth : Nat) : Shape → Reading Datum
  | .plain p => plain p
  | .optional s => optional (shaped depth s)
  | .list s => listOf (shaped (depth - 1) s)
  | .record title fields => record title (fieldReaders (depth - 1) fields)
  | .tagged title tagName variants => tagged title tagName variants (depth - 1)

/-- The readers of the fields of a record. -/
def fieldReaders (depth : Nat) : List (Field Shape) → List FieldReader
  | [] => []
  | ⟨name, shape, missing⟩ :: fs => ⟨name, shaped depth shape, missing⟩ :: fieldReaders depth fs

end

/-- Reads a whole document. -/
def document (s : Shape) : Reading Datum := do
  let d ← shaped 127 s
  match ← peekToken with
  | none => pure d
  | some _ => failNext .trailingCharacters

end Reading

/-- Reads a document of a given shape. -/
def read (s : Shape) (document : Bytes) : Except Fault Datum :=
  (Reading.document s (.start document)).1

end BlobVault.Json
