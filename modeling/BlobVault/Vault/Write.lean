import BlobVault.Codec
import BlobVault.Vault.Basic
import BlobVault.Verified

/-!
# Writing blobs

A write reads and verifies the whole content before anything is stored, stores the ciphertext,
and records the blob last.  Its five steps are separate, because other operations may come
between them: two writers of one blob can both find that there is no record yet.
-/

namespace BlobVault

namespace Write

/-- What is left to do. -/
inductive Phase where
  /-- There must be no record of the blob. -/
  | checking
  /-- The content has to be read, and has to have the reference. -/
  | reading
  /-- The content has to be brought into its stored form. -/
  | encoding (plain : Bytes)
  /-- The ciphertext has to be stored. -/
  | storing (record : BlobRecord) (ciphertext : Bytes)
  /-- The blob has to be recorded. -/
  | recording (record : BlobRecord)
  | finished (outcome : Except Fault BlobRecord)

/-- The number of steps that a phase is away from the end, at most. -/
def Phase.distance : Phase → Nat
  | checking => 5
  | reading => 4
  | encoding _ => 3
  | storing _ _ => 2
  | recording _ => 1
  | finished _ => 0

/-- How a write ended, if it has. -/
def Phase.outcome? : Phase → Option (Except Fault BlobRecord)
  | finished outcome => some outcome
  | _ => none

end Write

/-- A blob on its way into a volume. -/
structure Write where
  volume : VolumeId
  backend : BackendId
  collection : String
  ref : Ref
  content : Stream
  /-- The content may be worth compressing. -/
  hint : Bool
  phase : Write.Phase

namespace Write

/-- The record of a blob that is stored on one volume. -/
def recordOf (w : Write) (plain : Bytes) (key : DataKey) (e : Encoded) : BlobRecord :=
  { ref := w.ref, keyId := key.id, volumes := [w.volume], pending := [], referenced := false,
    isCompressed := e.isCompressed, size := plain.length, sizeOnDisk := e.ciphertext.length,
    crc32 := e.crc32 }

/-- What a step comes to. -/
def advance (w : Write) (v : Vault) : Phase × Vault :=
  match w.phase with
  | .checking =>
    (if v.catalog.hasRecord w.ref then .finished (.error (.alreadyExists (.blob w.ref)))
      else .reading, v)
  | .reading =>
    (match (VerifiedStream.ofRef w.content w.ref).content with
      | .ok plain => .encoding plain
      | .error fault => .finished (.error (.ofIo fault)), v)
  | .encoding plain =>
    match v.catalog.keyForNew w.collection v.ring with
    | (.error fault, ring) => (.finished (.error (.ofCatalog fault)), { v with ring := ring })
    | (.ok key, ring) =>
      let e := Codec.encode w.ref plain key w.hint
      (.storing (w.recordOf plain key e) e.ciphertext, { v with ring := ring })
  | .storing record ciphertext =>
    match v.rawStore w.backend w.ref (.ofBytes ciphertext) with
    | (.error fault, v) => (.finished (.error fault), v)
    | (.ok (), v) => (.recording record, v)
  | .recording record =>
    match v.catalog.create record w.volume with
    | .error fault => (.finished (.error (.ofCatalog fault)), v)
    | .ok catalog => (.finished (.ok record), { v with catalog := catalog })
  | .finished outcome => (.finished outcome, v)

/-- One step of a write. -/
def step (w : Write) (v : Vault) : Write × Vault :=
  ({ w with phase := (w.advance v).1 }, (w.advance v).2)

/-- Every step brings a write nearer to its end. -/
theorem distance_step (w : Write) (v : Vault) (h : w.phase.outcome? = none) :
    (w.step v).1.phase.distance < w.phase.distance := by
  unfold step advance
  cases hp : w.phase <;> simp only [hp, Phase.outcome?, reduceCtorEq] at h ⊢
  all_goals try split
  all_goals simp [Phase.distance]

/-- All the steps of a write. -/
def run (w : Write) (v : Vault) : Except Fault BlobRecord × Vault :=
  match _ : w.phase.outcome? with
  | some outcome => (outcome, v)
  | none => run (w.step v).1 (w.step v).2
termination_by w.phase.distance
decreasing_by exact distance_step w v (by assumption)

end Write

namespace Vault

/-- Sets out to write a blob on a mounted volume. -/
def beginWrite (v : Vault) (volume : VolumeId) (collection : String) (r : Ref) (content : Stream)
    (hint : Bool) : Except Fault Write :=
  match v.backendOf volume with
  | .error fault => .error fault
  | .ok b => .ok ⟨volume, b, collection, r, content, hint, .checking⟩

/-- Writes a blob on a volume, under the key of a collection. -/
def write (v : Vault) (volume : VolumeId) (collection : String) (r : Ref) (content : Stream)
    (hint : Bool) : Except Fault BlobRecord × Vault :=
  match v.beginWrite volume collection r content hint with
  | .error fault => (.error fault, v)
  | .ok w => w.run v

end Vault

end BlobVault
