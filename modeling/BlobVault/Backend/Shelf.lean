import BlobVault.OrderedMap
import BlobVault.Stream

/-!
# Storage in memory

A shelf keeps objects in memory and the list of all references that were asked for.  An object
is put there whole: a content that fails to arrive changes nothing.
-/

namespace BlobVault

/-- Objects in memory. -/
structure Shelf where
  objects : OrderedMap Ref Bytes
  /-- The routing cost. -/
  cost : Nat
  /-- The references that were asked for, latest first. -/
  asked : List Ref

namespace Shelf

/-- A shelf without objects. -/
def empty (cost : Nat) : Shelf := ⟨.empty, cost, []⟩

/-- The bytes of an object. -/
def raw? (s : Shelf) (r : Ref) : Option Bytes := s.objects.get? r

/-- Asks for an object. -/
def fetch (s : Shelf) (r : Ref) : Except Fault Stream × Shelf :=
  (match s.raw? r with
    | some bs => .ok (.ofBytes bs)
    | none => .error (.notFound (.blob r)),
   { s with asked := r :: s.asked })

/-- Keeps a content as an object, in place of an earlier one. -/
def store (s : Shelf) (r : Ref) (content : Stream) : Except Fault Unit × Shelf :=
  match content.content with
  | .ok bs => (.ok (), { s with objects := s.objects.insert r bs })
  | .error fault => (.error (.ofIo fault), s)

/-- Flips every bit of one byte of an object, if there is such a byte. -/
def tamper (s : Shelf) (r : Ref) (offset : Nat) : Option Shelf :=
  match s.raw? r with
  | none => none
  | some bs =>
    if offset < bs.length then
      some { s with objects := s.objects.insert r (bs.modify offset (· ^^^ 0xFF)) }
    else none

/-- Takes an object away. -/
def remove (s : Shelf) (r : Ref) : Option Bytes × Shelf :=
  (s.raw? r, { s with objects := s.objects.erase r })

/-- The number of objects. -/
def size (s : Shelf) : Nat := s.objects.size

/-- The references that were asked for, in order. -/
def history (s : Shelf) : List Ref := s.asked.reverse

end Shelf

end BlobVault
