import BlobVault.Clock
import BlobVault.Stream

/-!
# Rigs

A rig makes a backend misbehave on purpose: its fetches come late, wait at a gate, fail, or give
other bytes than those stored, and its stores fail.  It serves to try out what the vault does
about each of these.
-/

namespace BlobVault

/-- A gate that lets one waiting fetch through for each permit, in the order of their arrival. -/
structure Gate where
  permits : Nat
  /-- The tickets of the fetches that wait, first come first. -/
  waiting : List Nat
  /-- The number of tickets given out so far. -/
  issued : Nat
  deriving DecidableEq, Repr

namespace Gate

/-- A gate without permits. -/
def closed : Gate := ⟨0, [], 0⟩

/-- Passes with a permit, or takes a ticket and waits. -/
def enter (g : Gate) : Option Nat × Gate :=
  match g.permits with
  | n + 1 => (none, { g with permits := n })
  | 0 => (some g.issued, { g with waiting := g.waiting ++ [g.issued], issued := g.issued + 1 })

/-- Adds permits; those who wait take theirs first. -/
def allow (g : Gate) (count : Nat) : Gate :=
  { g with
    permits := g.permits + (count - g.waiting.length)
    waiting := g.waiting.drop count }

/-- The fetch with this ticket has to wait. -/
def holds (g : Gate) (ticket : Nat) : Bool := g.waiting.contains ticket

end Gate

/-- How a backend misbehaves. -/
structure Rig where
  /-- Every store fails with this. -/
  storeFault? : Option Fault
  /-- What a fetch answers, given the true answer. -/
  reply : Except Fault Stream → Except Fault Stream
  /-- How long a fetch takes. -/
  delay : Duration
  /-- A fetch has to pass the gate. -/
  gated : Bool
  gate : Gate

namespace Rig

/-- A rig that does nothing. -/
def idle : Rig := ⟨none, id, ⟨0⟩, false, .closed⟩

/-- The failure of a stream that was cut. -/
def cutFault : IoFault := .other "stream cut"

/-- The first bytes of a stream, and then a failure. -/
def cutAfter (count : Nat) (s : Stream) : Stream :=
  .ofParts (s.drain.bytes.take count) (some cutFault)

/-- An answer that is replaced by a fault, or cut, unless it is a fault already. -/
def spoil (fault? : Option Fault) (cut? : Option Nat) (answer : Except Fault Stream) :
    Except Fault Stream :=
  match answer, fault?, cut? with
  | .error fault, _, _ => .error fault
  | .ok _, some fault, _ => .error fault
  | .ok s, none, some count => .ok (cutAfter count s)
  | .ok s, none, none => .ok s

end Rig

end BlobVault
