import BlobVault.Json.Fault
import BlobVault.Text.Utf8

/-!
# Reading JSON byte by byte

A cursor is the rest of a document together with the place where it starts.  A `Reading` moves a
cursor and gives a value or a fault; after a fault the cursor stands where reading stopped.  A
fault about the form of a value has no place until the value around it has been left
(`Reading.placed`).
-/

namespace BlobVault.Json

/-- The rest of a document and the place where it starts. -/
structure Cursor where
  rest : Bytes
  line : Nat
  column : Nat

namespace Cursor

/-- The start of a document. -/
def start (document : Bytes) : Cursor := ⟨document, 1, 0⟩

/-- The place of a cursor. -/
def place (c : Cursor) : Place := ⟨c.line, c.column⟩

/-- The cursor after the next byte. -/
def advance (c : Cursor) : Cursor :=
  match c.rest with
  | [] => c
  | b :: rest => if b = 10 then ⟨rest, c.line + 1, 0⟩ else ⟨rest, c.line, c.column + 1⟩

/-- The cursor after some bytes. -/
def advanceMany : Nat → Cursor → Cursor
  | 0, c => c
  | n + 1, c => advanceMany n c.advance

end Cursor

/-- A computation that moves a cursor. -/
def Reading (α : Type) := Cursor → Except Fault α × Cursor

namespace Reading

variable {α β : Type}

/-- Gives a value and moves nothing. -/
protected def pure (a : α) : Reading α := fun c => (.ok a, c)

/-- Goes on with the value, unless there was a fault. -/
protected def bind (x : Reading α) (f : α → Reading β) : Reading β := fun c =>
  match x c with
  | (.ok a, c) => f a c
  | (.error e, c) => (.error e, c)

instance : Monad Reading where
  pure := Reading.pure
  bind := Reading.bind

/-- Fails with a fault. -/
def throw (fault : Fault) : Reading α := fun c => (.error fault, c)

/-- Fails at the place of the cursor. -/
def failHere (cause : Cause) : Reading α := fun c => (.error ⟨cause, some c.place⟩, c)

/-- Fails at the place after the next byte. -/
def failNext (cause : Cause) : Reading α := fun c => (.error ⟨cause, some c.advance.place⟩, c)

/-- Fails without a place. -/
def failForm (words : String) : Reading α := throw ⟨.mismatch words, none⟩

/-- Gives a fault without a place the place of the cursor. -/
def placed (x : Reading α) : Reading α := fun c =>
  match x c with
  | (.error ⟨cause, none⟩, c) => (.error ⟨cause, some c.place⟩, c)
  | answer => answer

/-- Reads a value and what must follow it, even after a fault in the value, which then wins. -/
def followedBy (x : Reading α) (y : Reading Unit) : Reading α := fun c =>
  match x c with
  | (.ok a, c) =>
    match y c with
    | (.ok (), c) => (.ok a, c)
    | (.error e, c) => (.error e, c)
  | (.error e, c) => (.error e, (y c).2)

/-- The next byte. -/
def peek : Reading (Option UInt8) := fun c => (.ok c.rest.head?, c)

/-- The next byte as a character; a zero character at the end. -/
def peekChar : Reading Char := fun c =>
  (.ok ((c.rest.head?.map fun b => Char.ofNat b.toNat).getD '\x00'), c)

/-- Moves over the next byte. -/
def skip : Reading Unit := fun c => (.ok (), c.advance)

/-- Takes the next byte. -/
def next : Reading (Option UInt8) := fun c => (.ok c.rest.head?, c.advance)

/-- How many bytes are left. -/
def remaining : Reading Nat := fun c => (.ok c.rest.length, c)

/-- A byte is a blank. -/
def isBlank (b : UInt8) : Bool := b == 32 || b == 10 || b == 9 || b == 13

/-- Moves over blanks, and gives the byte after them. -/
def peekToken : Reading (Option UInt8) := fun c =>
  let c := c.advanceMany (c.rest.takeWhile isBlank).length
  (.ok c.rest.head?, c)

/-- Moves over digits, and gives them. -/
def digits : Reading (List Nat) := fun c =>
  let ds := c.rest.takeWhile fun b => 48 ≤ b && b ≤ 57
  (.ok (ds.map fun b => b.toNat - 48), c.advanceMany ds.length)

/-- Reads a fixed text. -/
def literal : List Char → Reading Unit
  | [] => pure ()
  | ch :: rest => do
    match ← next with
    | none => failHere .endInValue
    | some b => if b.toNat = ch.toNat then literal rest else failHere .expectedName

end Reading

end BlobVault.Json
