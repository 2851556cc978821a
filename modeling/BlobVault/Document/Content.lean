import BlobVault.Document.Shape

/-!
# Documents of any shape

The form of a tagged record is known only when its tag has been seen, which may be last.  Its
other fields are kept as `Content` until then.
-/

namespace BlobVault

/-- A document of any shape. -/
inductive Content where
  | scalar (found : Found)
  | list (items : List Content)
  | map (entries : List (Content × Content))
  deriving Inhabited

namespace Content

/-- What a document is. -/
def found : Content → Found
  | scalar f => f
  | list _ => .list
  | map _ => .map

/-- Reads the fields of a variant from the entries of a map; `seen` holds the fields read so
far. -/
def readEntries (fields : List (Field Plain)) (seen : List (String × Datum)) :
    List (Content × Content) → Except Misfit (List Datum)
  | [] => fieldsOfMap fields seen
  | (key, value) :: rest =>
    let position : Except Misfit (Option (Field Plain)) :=
      match key.found with
      | .text name => .ok (fields.find? fun f => f.name == name)
      | .unsigned n => .ok fields[n]?
      | other => .error (.wrongType other "field identifier")
    match position with
    | .error e => .error e
    | .ok none => readEntries fields seen rest
    | .ok (some f) =>
      if (seen.lookup f.name).isSome then .error (.duplicateField f.name)
      else
        match f.shape.accept value.found with
        | .error e => .error e
        | .ok d => readEntries fields ((f.name, d) :: seen) rest

/-- Reads the fields of a variant from a list; `index` counts those already read. -/
def readItems (title : String) (count index : Nat) :
    List (Field Plain) → List Content → Except Misfit (List Datum)
  | [], [] => .ok []
  | [], extra => .error (.wrongLength (index + extra.length)
      (countText index "element" ++ " in sequence"))
  | f :: fs, [] =>
    match f.missing.inList? with
    | none => .error (.wrongLength index
        ("struct variant " ++ title ++ " with " ++ countText count "element"))
    | some d =>
      match readItems title count (index + 1) fs [] with
      | .ok ds => .ok (d :: ds)
      | .error e => .error e
  | f :: fs, item :: items =>
    match f.shape.accept item.found with
    | .error e => .error e
    | .ok d =>
      match readItems title count (index + 1) fs items with
      | .ok ds => .ok (d :: ds)
      | .error e => .error e

/-- Reads the fields of a variant. -/
def readVariant (v : Variant) : Content → Except Misfit (List Datum)
  | map entries => readEntries v.fields [] entries
  | list items => readItems v.title v.fields.length 0 v.fields items
  | other => .error (.wrongType other.found ("struct variant " ++ v.title))

end Content

/-- The variant that a tag names. -/
def variantOf (variants : List Variant) (tag : String) : Except Misfit Variant :=
  match variants.find? fun v => v.name == tag with
  | some v => .ok v
  | none => .error (.unknownVariant tag (variants.map (·.name)))

end BlobVault
