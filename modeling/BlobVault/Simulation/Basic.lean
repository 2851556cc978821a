import BlobVault.Replication.Run
import BlobVault.Scrub.Controller
import BlobVault.Vault.Mounting
import BlobVault.Vault.Write

/-!
# A node in virtual time

A simulation is a vault together with its background work and a clock that stands still as long
as anything can be done.  Background work keeps the mount table that it was started with, also
after the node was restarted with a new one.

`Simulation.next?` is one action of the background work, and `Simulation.settle` carries out
actions until everything waits for the clock or for a request.
-/

namespace BlobVault

/-- A vault, its background work and the time. -/
structure Simulation where
  now : Nat
  /-- The vault with the mount table of the running node. -/
  vault : Vault
  /-- The mount tables of the node before each restart, first come first. -/
  formerMounts : List Mounts
  /-- Replication, each with the number of its mount table; the present one is the first. -/
  replications : List (Nat × Replication)
  /-- Scrub controllers, each with the number of its mount table; the present one is the first. -/
  controllers : List (Nat × Controller)

namespace Simulation

/-- A node that has just been set up. -/
def start (cacheCapacity : Nat) : Simulation := ⟨0, .empty cacheCapacity, [], [], []⟩

/-- The number of the present mount table. -/
def table (s : Simulation) : Nat := s.formerMounts.length

/-- The mount table of a number. -/
def mountsOf (s : Simulation) (table : Nat) : Mounts :=
  (s.formerMounts[table]?).getD s.vault.mounts

/-- The vault with the mount table of a number. -/
def seenFrom (s : Simulation) (table : Nat) : Vault :=
  { s.vault with mounts := s.mountsOf table }

/-- The next vault, with the present mount table. -/
def keepMounts (s : Simulation) (v : Vault) : Simulation :=
  { s with vault := { v with mounts := s.vault.mounts } }

/-- Starts the node anew: nothing is mounted, and everything else is kept. -/
def restart (s : Simulation) : Simulation :=
  { s with
    formerMounts := s.formerMounts ++ [s.vault.mounts]
    vault := { s.vault with mounts := .empty } }

/-- Carries out an operation on the vault. -/
def operate {α : Type} (s : Simulation) (f : Vault → α × Vault) : α × Simulation :=
  ((f s.vault).1, { s with vault := (f s.vault).2 })

/-- Changes the first item of a list that can be changed. -/
def changeFirst? {α β : Type} (f : α → Option (α × β)) : List α → Option (List α × β)
  | [] => none
  | a :: as =>
    match f a with
    | some (a, b) => some (a :: as, b)
    | none => (changeFirst? f as).map fun (as, b) => (a :: as, b)

/-- One action of replication. -/
def nextReplication? (s : Simulation) : Option Simulation :=
  (changeFirst? (fun (table, r) =>
      (r.next? s.now (s.seenFrom table)).map fun (r, v) => ((table, r), v))
    s.replications).map fun (replications, v) =>
      { s.keepMounts v with replications := replications }

/-- One action of a scrub controller. -/
def nextController? (s : Simulation) : Option Simulation :=
  (changeFirst? (fun (table, c) =>
      (c.next? s.now (s.seenFrom table)).map fun (c, v) => ((table, c), v))
    s.controllers).map fun (controllers, v) =>
      { s.keepMounts v with controllers := controllers }

/-- One action of the background work, if anything can be done now. -/
def next? (s : Simulation) : Option Simulation :=
  match s.nextReplication? with
  | some s => some s
  | none => s.nextController?

/-- Carries out at most `fuel` actions. -/
def settleWithin : (fuel : Nat) → Simulation → Simulation
  | 0, s => s
  | fuel + 1, s =>
    match s.next? with
    | some s => settleWithin fuel s
    | none => s

/-- More actions than any background work takes at one point in time. -/
def patience : Nat := 10000000

/-- Carries out actions until there is nothing to do. -/
def settle (s : Simulation) : Simulation := settleWithin patience s

/-- The times that background work waits for. -/
def wakes (s : Simulation) : List Nat :=
  s.replications.flatMap (fun p => p.2.wakes) ++ s.controllers.flatMap (fun p => p.2.wakes)

end Simulation

end BlobVault
