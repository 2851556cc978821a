import BlobVault.Backend.Folder
import BlobVault.Backend.Rig
import BlobVault.Backend.Shelf
import BlobVault.Catalog.Record
import BlobVault.Entropy

/-!
# Backends

A backend keeps objects under references: in memory, in a folder, or in memory behind a rig.  All
of them answer alike: a fetch of an absent object is not found, and a store whose content fails
leaves what was there.

The storage holds all backends and the files.  A fetch from a rigged backend may have to wait; it
is an `Approach` that passes the rig's delay and gate first, and only then asks.
-/

namespace BlobVault

/-- Backends are numbered. -/
abbrev BackendId := Nat

/-- A place that keeps objects. -/
inductive Backend where
  | memory (shelf : Shelf)
  | folder (root : Path) (cost : Nat)
  | rigged (shelf : Shelf) (rig : Rig)

namespace Backend

/-- The routing cost: the cheaper of two backends is read from. -/
def cost : Backend → Nat
  | memory shelf => shelf.cost
  | folder _ cost => cost
  | rigged shelf _ => shelf.cost

/-- The memory of a backend, if it has one. -/
def shelf? : Backend → Option Shelf
  | memory shelf => some shelf
  | folder _ _ => none
  | rigged shelf _ => some shelf

/-- The backend with another memory. -/
def withShelf (b : Backend) (shelf : Shelf) : Backend :=
  match b with
  | memory _ => memory shelf
  | folder root cost => folder root cost
  | rigged _ rig => rigged shelf rig

/-- The backend with another rig. -/
def modifyRig (b : Backend) (f : Rig → Rig) : Backend :=
  match b with
  | rigged shelf rig => rigged shelf (f rig)
  | b => b

end Backend

/-- The backend that a setup describes. -/
def BackendSetup.build : BackendSetup → Backend
  | folder path => .folder (Path.ofText path) localCost
  | memory cost => .memory (.empty cost)

/-- All backends, and what they share. -/
structure Storage where
  backends : OrderedMap BackendId Backend
  files : Files
  entropy : Entropy

namespace Storage

/-- A storage without backends. -/
def empty : Storage := ⟨.empty, .empty, ⟨0⟩⟩

/-- A backend; one that was never set up is an empty memory. -/
def backend (st : Storage) (id : BackendId) : Backend :=
  (st.backends.get? id).getD (.memory (.empty localCost))

/-- Puts a backend in place. -/
def setBackend (st : Storage) (id : BackendId) (b : Backend) : Storage :=
  { st with backends := st.backends.insert id b }

/-- Adds a backend. -/
def addBackend (st : Storage) (b : Backend) : BackendId × Storage :=
  (st.backends.size, st.setBackend st.backends.size b)

/-- Draws a random identifier. -/
def drawUuid (st : Storage) : Uuid × Storage :=
  let (id, pool) := st.entropy.drawUuid
  (id, { st with entropy := pool })

/-- What a backend holds, whatever it says about it. -/
def trueAnswer (st : Storage) (id : BackendId) (r : Ref) : Except Fault Stream × Storage :=
  match st.backend id with
  | .folder root _ => (Folder.fetch st.files root r, st)
  | .memory shelf =>
    let (answer, shelf) := shelf.fetch r
    (answer, st.setBackend id (.memory shelf))
  | .rigged shelf rig =>
    let (answer, shelf) := shelf.fetch r
    (answer, st.setBackend id (.rigged shelf rig))

/-- Keeps a content under a reference.  A rigged store that fails does not read the content. -/
def store (st : Storage) (id : BackendId) (r : Ref) (content : Stream) :
    Except Fault Unit × Storage :=
  match st.backend id with
  | .folder root _ =>
    let (temp, st) := st.drawUuid
    let (answer, files) := Folder.store st.files root r temp content
    (answer, { st with files := files })
  | .memory shelf =>
    let (answer, shelf) := shelf.store r content
    (answer, st.setBackend id (.memory shelf))
  | .rigged shelf rig =>
    match rig.storeFault? with
    | some fault => (.error fault, st)
    | none =>
      let (answer, shelf) := shelf.store r content
      (answer, st.setBackend id (.rigged shelf rig))

end Storage

/-- How far a fetch has come before it asks its backend. -/
inductive Passage where
  /-- It is late, and may have to pass the gate after that. -/
  | sleeping (wake : Nat) (gated : Bool)
  /-- It waits at the gate. -/
  | queued (ticket : Nat)
  | clear
  deriving DecidableEq, Repr

/-- A fetch on its way to its backend. -/
structure Approach where
  backend : BackendId
  ref : Ref
  /-- How the answer will be spoiled. -/
  reply : Except Fault Stream → Except Fault Stream
  passage : Passage

/-- The time that an approach waits for. -/
def Approach.wake? (a : Approach) : Option Nat :=
  match a.passage with
  | .sleeping wake _ => some wake
  | _ => none

namespace Storage

/-- Sets out to fetch an object.  Only a rig makes it wait, and never for a descriptor. -/
def approach (st : Storage) (id : BackendId) (r : Ref) (now : Nat) : Approach :=
  match st.backend id with
  | .rigged _ rig =>
    if r.isDescriptor then ⟨id, r, rig.reply, .clear⟩
    else ⟨id, r, rig.reply, .sleeping (Clock.after now rig.delay) rig.gated⟩
  | _ => ⟨id, r, fun answer => answer, .clear⟩

/-- The gate of a backend; one without a rig has an open way. -/
def gate? (st : Storage) (id : BackendId) : Option Gate :=
  match st.backend id with
  | .rigged _ rig => some rig.gate
  | _ => none

/-- Changes the gate of a backend. -/
def setGate (st : Storage) (id : BackendId) (g : Gate) : Storage :=
  st.setBackend id ((st.backend id).modifyRig fun rig => { rig with gate := g })

/-- Takes an approach one step further, if it can go on now. -/
def advance? (st : Storage) (now : Nat) (a : Approach) : Option (Approach × Storage) :=
  match a.passage with
  | .sleeping wake gated =>
    if !Clock.isDue wake now then none
    else
      match gated, st.gate? a.backend with
      | true, some gate =>
        match gate.enter with
        | (none, gate) => some ({ a with passage := .clear }, st.setGate a.backend gate)
        | (some ticket, gate) =>
          some ({ a with passage := .queued ticket }, st.setGate a.backend gate)
      | _, _ => some ({ a with passage := .clear }, st)
  | .queued ticket =>
    match st.gate? a.backend with
    | some gate => if gate.holds ticket then none else some ({ a with passage := .clear }, st)
    | none => some ({ a with passage := .clear }, st)
  | .clear => none

/-- What the backend answers at the end of an approach. -/
def answer (st : Storage) (a : Approach) : Except Fault Stream × Storage :=
  let (answer, st) := st.trueAnswer a.backend a.ref
  (a.reply answer, st)

/-- Fetches an object, however long that takes. -/
def fetch (st : Storage) (id : BackendId) (r : Ref) : Except Fault Stream × Storage :=
  st.answer (st.approach id r 0)

/-- Opens the gate of a backend for some fetches. -/
def openGate (st : Storage) (id : BackendId) (permits : Nat) : Storage :=
  match st.gate? id with
  | some gate => st.setGate id (gate.allow permits)
  | none => st

/-! ### Behind the back of the vault -/

/-- The memory of a backend, if it has one. -/
def shelf? (st : Storage) (id : BackendId) : Option Shelf := (st.backend id).shelf?

/-- Changes the memory of a backend, if it has one. -/
def setShelf (st : Storage) (id : BackendId) (shelf : Shelf) : Storage :=
  st.setBackend id ((st.backend id).withShelf shelf)

/-- Makes a backend misbehave; those who wait at its gate stay there. -/
def setRig (st : Storage) (id : BackendId) (rig : Rig) : Storage :=
  st.setBackend id ((st.backend id).modifyRig fun old => { rig with gate := old.gate })

/-- The folder of a backend, if it has one. -/
def root? (st : Storage) (id : BackendId) : Option Path :=
  match st.backend id with
  | .folder root _ => some root
  | _ => none

/-- Changes the files. -/
def changeFiles (st : Storage) (f : Files → Except Refusal Files) :
    Except IoFault Unit × Storage :=
  match f st.files with
  | .ok files => (.ok (), { st with files := files })
  | .error refusal => (.error refusal.fault, st)

end Storage

end BlobVault
