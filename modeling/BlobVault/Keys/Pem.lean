import BlobVault.Keys.Der
import BlobVault.Text.Base64

/-!
# Keys in text files

A key file holds blocks between a line that begins them and a line of the same label that ends
them, with base64 in between.  The first block that is a key of the wanted kind counts; a
malformed block ends the search.
-/

namespace BlobVault.Pem

/-- A labelled block of bytes. -/
structure Block where
  label : String
  bytes : Bytes

/-- Cuts characters into lines. -/
def linesOf (cs : List Char) : List (List Char) :=
  cs.foldr (fun c acc =>
    if c = '\n' then [] :: acc
    else
      match acc with
      | [] => [[c]]
      | line :: rest => (c :: line) :: rest) [[]]

/-- A line without blanks at its end. -/
def trimEnd (line : List Char) : List Char :=
  (line.reverse.dropWhile fun c => c.toNat ≤ 32).reverse

/-- The label of a line that begins or ends a block. -/
def label? (kind : String) (line : List Char) : Option String :=
  let start := ("-----" ++ kind ++ " ").toList
  let stop := "-----".toList
  let inner := (line.drop start.length).take (line.length - start.length - stop.length)
  if line = start ++ inner ++ stop then some (String.ofList inner) else none

/-- The text of a block up to the line that ends it, and the lines after it. -/
def blockText? (label : String) : List (List Char) → Option (List Char × List (List Char))
  | [] => none
  | line :: rest =>
    match label? "END" line with
    | some l => if l = label then some ([], rest) else none
    | none => do
      let (text, rest) ← blockText? label rest
      some (line ++ text, rest)

/-- The first block that `pick` takes. -/
def firstOf {α : Type} (pick : Block → Option α) : (fuel : Nat) → List (List Char) → Option α
  | 0, _ => none
  | _, [] => none
  | fuel + 1, line :: rest =>
    match label? "BEGIN" line with
    | none => firstOf pick fuel rest
    | some label => do
      let (text, rest) ← blockText? label rest
      let bytes ← Base64.decode? text
      match pick ⟨label, bytes⟩ with
      | some a => some a
      | none => firstOf pick fuel rest

/-- The lines of a key file. -/
def fileLines (file : Bytes) : List (List Char) :=
  (linesOf (file.map fun b => Char.ofNat b.toNat)).map trimEnd

/-- The public key of a block. -/
def publicOf (b : Block) : Option PublicKey :=
  match b.label with
  | "PUBLIC KEY" => Der.readPublic? b.bytes
  | "RSA PUBLIC KEY" => Der.rsaPublic? b.bytes
  | _ => none

/-- The private key of a block. -/
def privateOf (b : Block) : Option PrivateKey :=
  match b.label with
  | "PRIVATE KEY" => Der.readPrivate? b.bytes
  | "RSA PRIVATE KEY" => Der.rsaPrivate? b.bytes
  | "EC PRIVATE KEY" => Der.curvePrivate? b.bytes
  | _ => none

/-- The public key of a key file. -/
def readPublic? (file : Bytes) : Option PublicKey :=
  let lines := fileLines file
  firstOf publicOf (lines.length + 1) lines

/-- The private key of a key file. -/
def readPrivate? (file : Bytes) : Option PrivateKey :=
  let lines := fileLines file
  firstOf privateOf (lines.length + 1) lines

end BlobVault.Pem
