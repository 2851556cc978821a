import BlobVault.Number.Duration
import BlobVault.Text.Quoted

/-!
# Shapes of documents

Records, volumes, envelopes and configurations are read from JSON or YAML documents.  A `Shape`
says what form a document must have, a `Datum` is what a document of some shape holds, and a
`Misfit` is the first way in which a document differs from its shape.  The two document formats
word a misfit differently in two places, which a `Wording` fixes.
-/

namespace BlobVault

/-- What stands in a document where something else is due. -/
inductive Found where
  | null
  | boolean (b : Bool)
  | unsigned (n : Nat)
  /-- A negative integer, by its magnitude. -/
  | negative (n : Nat)
  /-- An integer that takes more than 64 bits. -/
  | wide (n : Int)
  | float (x : Binary64)
  | text (s : String)
  | list
  | map
  /-- A value with a type tag of its own. -/
  | tagged
  deriving DecidableEq, Repr

/-- How a format words what it found. -/
structure Wording where
  null : String
  float : FloatStyle

/-- The description of what was found. -/
def Found.describe (w : Wording) : Found → String
  | .null => w.null
  | .boolean b => "boolean `" ++ (if b then "true" else "false") ++ "`"
  | .unsigned n => "integer `" ++ toString n ++ "`"
  | .negative n => "integer `-" ++ toString n ++ "`"
  | .wide n => "integer `" ++ toString n ++ "` as " ++ (if n < 0 then "i128" else "u128")
  | .float x => "floating point `" ++ w.float.text x ++ "`"
  | .text s => "string " ++ Quoted.quote s
  | .list => "sequence"
  | .map => "map"
  | .tagged => "enum"

/-- How a document differs from its shape. -/
inductive Misfit where
  | wrongType (found : Found) (expecting : String)
  | wrongValue (found : Found) (expecting : String)
  | wrongLength (found : Nat) (expecting : String)
  | missingField (name : String)
  | duplicateField (name : String)
  | unknownVariant (name : String) (known : List String)
  /-- A text or number that its reader refuses, with the reader's words. -/
  | refused (words : String)
  deriving DecidableEq, Repr

/-- A list of names as alternatives. -/
def alternatives : List String → String
  | [] => "there are no variants"
  | [a] => "expected `" ++ a ++ "`"
  | [a, b] => "expected `" ++ a ++ "` or `" ++ b ++ "`"
  | names => "expected one of " ++ ", ".intercalate (names.map fun a => "`" ++ a ++ "`")

/-- The text of a misfit. -/
def Misfit.message (w : Wording) : Misfit → String
  | .wrongType found expecting => "invalid type: " ++ found.describe w ++ ", expected " ++ expecting
  | .wrongValue found expecting => "invalid value: " ++ found.describe w ++ ", expected " ++ expecting
  | .wrongLength found expecting => "invalid length " ++ toString found ++ ", expected " ++ expecting
  | .missingField name => "missing field `" ++ name ++ "`"
  | .duplicateField name => "duplicate field `" ++ name ++ "`"
  | .unknownVariant name known => "unknown variant `" ++ name ++ "`, " ++ alternatives known
  | .refused words => words

/-- What a document holds. -/
inductive Datum where
  /-- An optional value that is not there. -/
  | absent
  | text (s : String)
  | natural (n : Nat)
  | boolean (b : Bool)
  | duration (d : Duration)
  | list (items : List Datum)
  /-- The fields of a record in the order of its shape. -/
  | record (fields : List Datum)
  /-- One of several forms, with its fields. -/
  | variant (name : String) (fields : List Datum)
  deriving Inhabited

/-- A form without parts. -/
inductive Plain where
  /-- A text; `refusal` gives the complaint about a text that is not accepted. -/
  | text (expecting : String) (refusal : String → Option String)
  /-- A natural number of at most so many bits. -/
  | natural (bits : Nat) (expecting : String)
  | boolean
  /-- A duration in seconds. -/
  | seconds

/-- Any text. -/
def Plain.anyText : Plain := .text "a string" fun _ => none

/-- A natural number of 32 bits. -/
def Plain.nat32 : Plain := .natural 32 "u32"

/-- A natural number of 64 bits. -/
def Plain.nat64 : Plain := .natural 64 "u64"

/-- A natural number of 64 bits that counts or limits something in memory. -/
def Plain.count : Plain := .natural 64 "usize"

/-- What a plain form is called. -/
def Plain.expecting : Plain → String
  | .text expecting _ => expecting
  | .natural _ expecting => expecting
  | .boolean => "a boolean"
  | .seconds => "f64"

/-- The duration of a number of seconds, or the complaint about it. -/
def acceptSeconds (x : Binary64) : Except Misfit Datum :=
  match Duration.ofFloat x with
  | .ok d => .ok (.duration d)
  | .error fault => .error (.refused (Duration.unreadable x fault))

/-- Reads a value without parts. -/
def Plain.accept (p : Plain) (found : Found) : Except Misfit Datum :=
  match p, found with
  | .text _ refusal, .text s =>
    match refusal s with
    | none => .ok (.text s)
    | some words => .error (.refused words)
  | .natural bits expecting, .unsigned n =>
    if n < Nat.pow 2 bits then .ok (.natural n) else .error (.wrongValue found expecting)
  | .natural _ expecting, .negative _ => .error (.wrongValue found expecting)
  | .boolean, .boolean b => .ok (.boolean b)
  | .seconds, .unsigned n => acceptSeconds (.ofNat n)
  | .seconds, .negative n => acceptSeconds (.ofRatio true n 1)
  | .seconds, .float x => acceptSeconds x
  | p, found => .error (.wrongType found p.expecting)

/-- What becomes of a field that a document leaves out. -/
inductive Missing where
  /-- The document is refused. -/
  | required
  /-- The field is absent in a map; a list must hold it. -/
  | optional
  /-- The field has a default. -/
  | default (d : Datum)

/-- A named part of a record. -/
structure Field (σ : Type) where
  name : String
  shape : σ
  missing : Missing

/-- What stands for a field that a map leaves out. -/
def Missing.inMap? : Missing → Option Datum
  | .required => none
  | .optional => some .absent
  | .default d => some d

/-- What stands for a field that a list leaves out. -/
def Missing.inList? : Missing → Option Datum
  | .default d => some d
  | _ => none

/-- One of several forms of a tagged record. -/
structure Variant where
  /-- The tag. -/
  name : String
  /-- What the form is called in messages. -/
  title : String
  fields : List (Field Plain)

/-- The form that a document must have. -/
inductive Shape where
  | plain (p : Plain)
  /-- A value that may be null. -/
  | optional (s : Shape)
  | list (s : Shape)
  /-- A record of the given type name. -/
  | record (name : String) (fields : List (Field Shape))
  /-- A record of the given type name whose form is told by the field `tag`. -/
  | tagged (name tag : String) (variants : List Variant)

/-- A number of things. -/
def countText (n : Nat) (thing : String) : String :=
  toString n ++ " " ++ thing ++ (if n = 1 then "" else "s")

/-- Places the values of the fields of a map, in the order of the fields. -/
def fieldsOfMap {σ : Type} : List (Field σ) → List (String × Datum) → Except Misfit (List Datum)
  | [], _ => .ok []
  | f :: fs, found =>
    match (found.lookup f.name).orElse fun _ => f.missing.inMap? with
    | none => .error (.missingField f.name)
    | some d =>
      match fieldsOfMap fs found with
      | .ok ds => .ok (d :: ds)
      | .error e => .error e

end BlobVault
