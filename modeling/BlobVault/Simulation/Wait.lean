import BlobVault.Simulation.Basic

/-!
# Waiting

A request that has to wait lets the background work go on, and then the clock jumps to the next
alarm.  A request gives up after an hour.  It can have a gate opened a little later, for those
who could not go on otherwise.
-/

namespace BlobVault

namespace Simulation

/-- What a request waits for. -/
inductive Goal where
  /-- Some point in time. -/
  | time (wake : Nat)
  /-- The way to a backend. -/
  | approach (a : Approach)
  /-- The reply of the present scrub controller. -/
  | reply (ticket : Nat)
  /-- The end of the present replication. -/
  | replicationOver
  /-- The end of the present scrub controller. -/
  | controllerOver

/-- A gate that will be opened. -/
structure Opening where
  wake : Nat
  backend : BackendId
  permits : Nat

/-- A request that waits. -/
structure Wait where
  goal : Goal
  opening? : Option Opening

/-- The present replication. -/
def replication? (s : Simulation) : Option Replication := s.replications.head?.map (·.2)

/-- The present scrub controller. -/
def controller? (s : Simulation) : Option Controller := s.controllers.head?.map (·.2)

namespace Goal

/-- There is nothing left to wait for. -/
def isReached (s : Simulation) : Goal → Bool
  | time wake => Clock.isDue wake s.now
  | approach a => a.passage == .clear
  | reply ticket =>
    match s.controller? with
    | some c => (c.replyTo? ticket).isSome
    | none => true
  | replicationOver =>
    match s.replication? with
    | some r => r.isOver
    | none => true
  | controllerOver =>
    match s.controller? with
    | some c => c.phase.isEnded
    | none => true

/-- Goes on as far as possible now; an approach takes at most two steps. -/
def advance (s : Simulation) : (steps : Nat) → Goal → Goal × Simulation
  | steps + 1, approach a =>
    match s.vault.storage.advance? s.now a with
    | some (a, storage) =>
      advance { s with vault := { s.vault with storage := storage } } steps (approach a)
    | none => (approach a, s)
  | _, goal => (goal, s)

/-- The time that is waited for. -/
def wake? : Goal → Option Nat
  | time wake => some wake
  | approach a => a.wake?
  | _ => none

end Goal

namespace Wait

/-- Opens the gate if it is time. -/
def openGate (s : Simulation) (w : Wait) : Wait × Simulation :=
  match w.opening? with
  | none => (w, s)
  | some o =>
    if Clock.isDue o.wake s.now then
      ({ w with opening? := none },
       { s with vault :=
          { s.vault with storage := s.vault.storage.openGate o.backend o.permits } })
    else (w, s)

/-- Goes on as far as possible now. -/
def advance (s : Simulation) (w : Wait) : Wait × Simulation :=
  let (w, s) := w.openGate s
  let (goal, s) := w.goal.advance s 2
  ({ w with goal := goal }, s)

/-- The request need not wait any longer. -/
def isOver (s : Simulation) (w : Wait) : Bool := w.goal.isReached s && w.opening?.isNone

/-- The times that the request waits for. -/
def wakes (w : Wait) : List Nat := w.goal.wake?.toList ++ (w.opening?.map Opening.wake).toList

end Wait

/-- The next alarm after now, or the deadline if that is earlier. -/
def nextAlarm (s : Simulation) (w : Wait) (deadline : Nat) : Nat :=
  (((s.wakes ++ w.wakes).map Clock.alarm).filter (s.now < ·)).foldl min deadline

/-- Waits until the request can go on, or until the deadline.  A request that is woken goes on
before the background work that is due at the same time. -/
def waitWithin : (fuel : Nat) → (deadline : Nat) → Simulation → Wait → Option Wait × Simulation
  | 0, _, s, _ => (none, s)
  | fuel + 1, deadline, s, w =>
    let (w, s) := w.advance s
    if w.isOver s then (some w, s)
    else if deadline ≤ s.now then (none, s)
    else
      let (w, s) := w.advance s.settle
      if w.isOver s then (some w, s)
      else waitWithin fuel deadline { s with now := s.nextAlarm w deadline } w

/-- How long a request waits at most. -/
def longestWait : Duration := .ofSeconds 3600

/-- Waits for a goal.  The clock moves by whole milliseconds, so there is fuel for every one. -/
def wait (s : Simulation) (w : Wait) : Option Wait × Simulation :=
  waitWithin (longestWait.nanos / Clock.perMilli + 2) (Clock.after s.now longestWait) s w

end Simulation

end BlobVault
