import BlobVault.Document.Content
import BlobVault.Yaml.Typed

/-!
# Reading a YAML document of a given shape

A document is read from its first node on, and reading stops at the first fault: a value that does
not fit, or the place where the text makes no sense.  A misfit is told with the path to the value,
or with the path to the record around it if a value is of the right type and still refused.
-/

namespace BlobVault.Yaml

/-- A step from a value into a part of it. -/
inductive Step where
  | key (name : String)
  | item (index : Nat)
  /-- The key is no text. -/
  | unnamed
  deriving DecidableEq, Repr

/-- The text of a path whose last step comes first. -/
def pathText : List Step → String
  | [] => "."
  | .item i :: path => pathText path ++ "[" ++ toString i ++ "]"
  | .key name :: path => (if path.isEmpty then "" else pathText path ++ ".") ++ name
  | .unnamed :: path => (if path.isEmpty then "" else pathText path ++ ".") ++ "?"

/-- Why a document cannot be read. -/
inductive Fault where
  /-- The text makes no sense, or is nested or repeated without bound. -/
  | malformed
  /-- A value does not fit. -/
  | misfit (path : Option (List Step)) (why : Misfit)
  deriving DecidableEq, Repr

/-- The text of a fault. -/
def Fault.message : Fault → String
  | .malformed => "the text is malformed"
  | .misfit none why => why.message wording
  | .misfit (some path) why =>
    (if path.isEmpty then "" else pathText path ++ ": ") ++ why.message wording

/-- Reading counts the aliases that were followed. -/
abbrev Reading (α : Type) : Type := StateT Nat (Except Fault) α

namespace Reading

variable {α : Type}

/-- Reading fails with a misfit without a path. -/
def refuse (why : Misfit) : Reading α := fun _ => .error (.misfit none why)

/-- The text makes no sense. -/
def malformed : Reading α := fun _ => .error .malformed

/-- Gives a misfit without a path this path. -/
def located (path : List Step) (r : Reading α) : Reading α := fun jumps =>
  match r jumps with
  | .error (.misfit none why) => .error (.misfit (some path) why)
  | other => other

/-- Turns a misfit into a fault without a path. -/
def fit (x : Except Misfit α) : Reading α :=
  match x with
  | .ok a => pure a
  | .error why => refuse why

/-- The node that a node stands for.  Aliases may be followed a hundred times as often as the
document has parts. -/
def resolve (anchors : Anchors) : Node → Reading Node
  | .alias number => fun jumps =>
    if anchors.marks * 100 < jumps + 1 then .error .malformed
    else
      match anchors.node? number with
      | some n => .ok (n, jumps + 1)
      | none => .error .malformed
  | .broken => malformed
  | n => pure n

/-- Checks that the text makes sense throughout a value of no interest. -/
def ignore (n : Node) : Reading Unit := if n.isWhole then pure () else malformed

/-- What a node is found to be, its type tags apart. -/
def plainFound : Node → Except Misfit Found
  | .scalar text style tag? => foundIn text style tag?
  | .list .. => .ok .list
  | .map .. => .ok .map
  | _ => .ok .null

/-- The type of a value is wrong. -/
def wrongType (n : Node) (expecting : String) : Reading α :=
  match plainFound n with
  | .error why => refuse why
  | .ok found => refuse (.wrongType found expecting)

/-- The step to the value of a key. -/
def stepTo : Node → Step
  | .scalar text .. => .key text
  | _ => .unnamed

/-- A tag that makes a value one of several forms. -/
def isFormTag (tag? : Option String) : Bool := tag?.any fun tag => tag.startsWith "!"

/-- The form tag of a node. -/
def hasForm : Node → Bool
  | .scalar _ _ tag? => isFormTag tag?
  | .list tag? .. => isFormTag tag?
  | .map tag? .. => isFormTag tag?
  | _ => false

/-! ### Values of any shape -/

/-- What a value with a form tag is told when any shape is due. -/
def formWords : String := "untagged and internally tagged enums do not support enum input"

mutual

/-- Reads a value of any shape; `depth` bounds the lists and maps inside one another. -/
def content (anchors : Anchors) : (depth : Nat) → List Step → Node → Reading Content
  | depth, path, n => located path do
    let n ← resolve anchors n
    if hasForm n then refuse (.refused formWords)
    else
      match n with
      | .list _ items closed =>
        match depth with
        | 0 => malformed
        | depth + 1 => do
          let cs ← contents anchors depth path 0 items
          if closed then pure (.list cs) else malformed
      | .map _ entries closed =>
        match depth with
        | 0 => malformed
        | depth + 1 => do
          let cs ← contentEntries anchors depth path entries
          if closed then pure (.map cs) else malformed
      | n => do
        match ← fit (plainFound n) with
        | .wide i => refuse (.wrongType (.wide i) "any value")
        | found => pure (.scalar found)
termination_by depth _ _ => (depth, 1, 0)

/-- Reads values of any shape. -/
def contents (anchors : Anchors) (depth : Nat) (path : List Step) (index : Nat) :
    List Node → Reading (List Content)
  | [] => pure []
  | n :: ns => do
    let c ← content anchors depth (.item index :: path) n
    let cs ← contents anchors depth path (index + 1) ns
    pure (c :: cs)
termination_by ns => (depth, 2, ns.length)

/-- Reads entries of any shape. -/
def contentEntries (anchors : Anchors) (depth : Nat) (path : List Step) :
    List (Node × Node) → Reading (List (Content × Content))
  | [] => pure []
  | (k, v) :: rest => do
    let key ← content anchors depth path k
    let value ← content anchors depth (stepTo k :: path) v
    let cs ← contentEntries anchors depth path rest
    pure ((key, value) :: cs)
termination_by entries => (depth, 2, entries.length)

end

/-! ### Values of a given shape -/

/-- Reads a value without parts. -/
def plain (anchors : Anchors) (path : List Step) (p : Plain) (n : Node) : Reading Datum := do
  let wrong (n : Node) : Reading Datum := located path (wrongType n p.expecting)
  match ← located path (resolve anchors n) with
  | .scalar text style tag? =>
    match p with
    | .text .. => located path (fit (p.accept (.text text)))
    | .natural .. =>
      match (if mayDenote "int" style tag? then unsigned? text else none) with
      | some n =>
        if n < Nat.pow 2 64 then located path (fit (p.accept (.unsigned n)))
        else wrong (.scalar text style tag?)
      | none => wrong (.scalar text style tag?)
    | .boolean =>
      match (if mayDenote "bool" style tag? then boolean? text else none) with
      | some b => located path (fit (p.accept (.boolean b)))
      | none => wrong (.scalar text style tag?)
    | .seconds =>
      match (if mayDenote "float" style tag? then float? text else none) with
      | some x => fit (p.accept (.float x))
      | none => wrong (.scalar text style tag?)
  | n => wrong n

/-- The node stands for no items and no entries. -/
def isVoid : Node → Bool
  | .scalar text style _ => text.isEmpty && style == .plain
  | _ => false

/-- Reads the items of a list. -/
def items (item : List Step → Node → Reading Datum) (path : List Step) (index : Nat) :
    List Node → Reading (List Datum)
  | [] => pure []
  | n :: ns => do
    let d ← item (.item index :: path) n
    let ds ← items item path (index + 1) ns
    pure (d :: ds)

/-- Reads a list; nothing at all stands for an empty one. -/
def listOf (anchors : Anchors) (depth : Nat) (item : List Step → Node → Reading Datum)
    (path : List Step) (n : Node) : Reading Datum :=
  located path do
    match ← resolve anchors n with
    | .list _ ns closed =>
      if depth = 0 then malformed
      else do
        let ds ← items item path 0 ns
        if closed then pure (.list ds) else malformed
    | n => if isVoid n then pure (.list []) else wrongType n "a sequence"

/-- How one field of a record is read. -/
structure FieldReader where
  name : String
  read : List Step → Node → Reading Datum
  missing : Missing

/-- The name that a key gives. -/
def keyName (anchors : Anchors) (expecting : String) (n : Node) : Reading String := do
  match ← resolve anchors n with
  | .scalar text .. => pure text
  | n => wrongType n expecting

/-- Reads the entries of a record. -/
def fieldEntries (anchors : Anchors) (fs : List FieldReader) (path : List Step) :
    (seen : List (String × Datum)) → List (Node × Node) → Reading (List (String × Datum))
  | seen, [] => pure seen
  | seen, (k, v) :: rest => do
    let name ← keyName anchors "field identifier" k
    match fs.find? fun f => f.name == name with
    | none => do
      ignore v
      fieldEntries anchors fs path seen rest
    | some f =>
      if (seen.lookup name).isSome then refuse (.duplicateField name)
      else do
        let d ← f.read (stepTo k :: path) v
        fieldEntries anchors fs path ((name, d) :: seen) rest

/-- Reads a record; nothing at all stands for one without entries. -/
def record (anchors : Anchors) (depth : Nat) (title : String) (fs : List FieldReader)
    (path : List Step) (n : Node) : Reading Datum :=
  located path do
    let fields (seen : List (String × Datum)) : Reading Datum := do
      let ds ← fit (fieldsOfMap (fs.map fun f => ⟨f.name, (), f.missing⟩) seen)
      pure (.record ds)
    match ← resolve anchors n with
    | .map _ entries closed =>
      if depth = 0 then malformed
      else do
        let seen ← fieldEntries anchors fs path [] entries
        if closed then fields seen else malformed
    | n => if isVoid n then fields [] else wrongType n ("struct " ++ title)

/-- Reads the tag of a tagged record. -/
def formOf (anchors : Anchors) (variants : List Variant) (path : List Step) (n : Node) :
    Reading Variant :=
  located path do
    let name ← keyName anchors "variant identifier" n
    fit (variantOf variants name)

/-- Reads the entries of a tagged record. -/
def taggedEntries (anchors : Anchors) (depth : Nat) (tagName : String) (variants : List Variant)
    (path : List Step) :
    Option Variant → List (Content × Content) → List (Node × Node) →
      Reading (Option Variant × List (Content × Content))
  | v?, done, [] => pure (v?, done.reverse)
  | v?, done, (k, v) :: rest => do
    let key ← located path do
      let n ← resolve anchors k
      match n with
      | .scalar .. =>
        if hasForm n then refuse (.refused formWords)
        else
          match ← fit (plainFound n) with
          | .wide i =>
            refuse (.wrongType (.wide i)
              ("a type tag `" ++ tagName ++ "` or any other value"))
          | found => pure (.scalar found)
      | n => content anchors depth path n
    match key with
    | .scalar (.text name) =>
      if name = tagName then
        if v?.isSome then refuse (.duplicateField tagName)
        else do
          let form ← formOf anchors variants (stepTo k :: path) v
          taggedEntries anchors depth tagName variants path (some form) done rest
      else do
        let value ← content anchors depth (stepTo k :: path) v
        taggedEntries anchors depth tagName variants path v? ((key, value) :: done) rest
    | _ => do
      let value ← content anchors depth (stepTo k :: path) v
      taggedEntries anchors depth tagName variants path v? ((key, value) :: done) rest

/-- Reads a tagged record. -/
def tagged (anchors : Anchors) (depth : Nat) (title tagName : String) (variants : List Variant)
    (path : List Step) (n : Node) : Reading Datum := do
  let expecting := "internally tagged enum " ++ title
  let (v, c) ← located path do
    let n ← resolve anchors n
    if hasForm n then refuse (.wrongType .tagged expecting)
    else
      match n with
      | .list _ ns closed =>
        if depth = 0 then malformed
        else
          match ns with
          | [] => if closed then refuse (.missingField tagName) else malformed
          | n :: ns => do
            let form ← formOf anchors variants (.item 0 :: path) n
            let cs ← contents anchors (depth - 1) path 1 ns
            if closed then pure (form, Content.list cs) else malformed
      | .map _ entries closed =>
        if depth = 0 then malformed
        else do
          let (v?, cs) ← taggedEntries anchors (depth - 1) tagName variants path none [] entries
          if closed then
            match v? with
            | some form => pure (form, Content.map cs)
            | none => refuse (.missingField tagName)
          else malformed
      | n => wrongType n expecting
  let ds ← fit (c.readVariant v)
  pure (.variant v.name ds)

/-- Reads a value that may be null. -/
def optional (anchors : Anchors) (value : List Step → Node → Reading Datum) (path : List Step)
    (n : Node) : Reading Datum := do
  match ← located path (resolve anchors n) with
  | .scalar text .plain none =>
    if text.isEmpty || isNull text then pure .absent else value path n
  | _ => value path n

mutual

/-- Reads a value of a given shape; `depth` bounds the lists and maps inside one another. -/
def shaped (anchors : Anchors) (depth : Nat) : Shape → List Step → Node → Reading Datum
  | .plain p => fun path n => plain anchors path p n
  | .optional s => optional anchors (shaped anchors depth s)
  | .list s => listOf anchors depth (shaped anchors (depth - 1) s)
  | .record title fields => record anchors depth title (fieldReaders anchors (depth - 1) fields)
  | .tagged title tagName variants => tagged anchors depth title tagName variants

/-- The readers of the fields of a record. -/
def fieldReaders (anchors : Anchors) (depth : Nat) : List (Field Shape) → List FieldReader
  | [] => []
  | ⟨name, shape, missing⟩ :: fs =>
    ⟨name, shaped anchors depth shape, missing⟩ :: fieldReaders anchors depth fs

end

end Reading

/-- The greatest depth of lists and maps inside one another. -/
def greatestDepth : Nat := 128

/-- Reads a text of one document of a given shape.  An empty text stands for a value of which
nothing is given. -/
def read (s : Shape) (text : String) : Except Fault Datum :=
  let document := Document.ofText text
  match Reading.shaped document.anchors greatestDepth s [] (document.root?.getD .empty) 0 with
  | .error fault => .error fault
  | .ok (d, _) => if document.whole && document.alone then .ok d else .error .malformed

end BlobVault.Yaml
