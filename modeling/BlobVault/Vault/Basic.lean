import BlobVault.Backend.Storage
import BlobVault.Catalog.Store

/-!
# The vault

A vault is the catalog, the key ring and the storage of one node, and the table of the volumes
that are mounted there.  An operation answers a result or a fault together with the next vault: a
fault does not undo what was done before it.

`Vault.bestVolume` picks the volume to read from: the cheapest one that is mounted, and of equally
cheap ones the first.
-/

namespace BlobVault

/-- The volumes that are mounted, each with its backend. -/
abbrev Mounts := OrderedMap VolumeId BackendId

/-- All that a node works on. -/
structure Vault where
  ring : KeyRing
  catalog : Catalog
  storage : Storage
  mounts : Mounts

namespace Vault

/-- A vault in which nothing is known, stored or mounted. -/
def empty (cacheCapacity : Nat) : Vault := ⟨.empty cacheCapacity, .empty, .empty, .empty⟩

/-- The volume is mounted. -/
def isMounted (v : Vault) (id : VolumeId) : Bool := v.mounts.contains id

/-- The mounted volumes in order. -/
def mountedVolumes (v : Vault) : List VolumeId := v.mounts.keys

/-- The backend of a mounted volume. -/
def backendOf (v : Vault) (id : VolumeId) : Except Fault BackendId :=
  match v.mounts.get? id with
  | some b => .ok b
  | none => .error (.capability (.notMounted id))

/-- Fetches what a backend keeps under a reference. -/
def rawFetch (v : Vault) (b : BackendId) (r : Ref) : Except Fault Stream × Vault :=
  let (answer, storage) := v.storage.fetch b r
  (answer, { v with storage := storage })

/-- Keeps a content on a backend under a reference. -/
def rawStore (v : Vault) (b : BackendId) (r : Ref) (content : Stream) :
    Except Fault Unit × Vault :=
  let (answer, storage) := v.storage.store b r content
  (answer, { v with storage := storage })

/-- The routing cost of a mounted volume. -/
def costOf? (v : Vault) (id : VolumeId) : Option Nat :=
  (v.mounts.get? id).map fun b => (v.storage.backend b).cost

/-- The first of the volumes with the least cost. -/
def cheapest : List (VolumeId × Nat) → Option (VolumeId × Nat)
  | [] => none
  | p :: ps =>
    match cheapest ps with
    | none => some p
    | some q => if p.2 ≤ q.2 then some p else some q

/-- The mounted ones of some volumes, with their costs. -/
def mountedCosts (v : Vault) (candidates : List VolumeId) : List (VolumeId × Nat) :=
  candidates.filterMap fun id => (v.costOf? id).map fun cost => (id, cost)

/-- The volume to read from. -/
def bestVolume (v : Vault) (candidates : List VolumeId) : Except Fault VolumeId :=
  match cheapest (v.mountedCosts candidates) with
  | some (id, _) => .ok id
  | none => .error (.capability (.noneMounted candidates))

end Vault

end BlobVault
