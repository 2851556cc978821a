import BlobVault.Catalog.Store
import BlobVault.Proofs.OrderedMap

/-!
# Records under the operations of the catalog

What the three operations that write records do to the catalog, and what listing a volume and
committing do to a record.

* `BlobRecord.arrived_listed_eq` : what a copy that has arrived changes in a record;
* `Catalog.create_eq_ok`, `Catalog.confirm_eq_ok` : what an operation that succeeds has found and
  written;
* `Catalog.create_of_fresh`, `Catalog.confirm_of_record` : when it succeeds;
* `Catalog.after` : the catalog after an operation, whether or not it succeeds;
* `Catalog.get?_foldl_committed` : a commit changes exactly the records that it names.
-/

namespace BlobVault

namespace BlobRecord

/-- What a copy that has arrived changes in a record, and nothing else. -/
theorem arrived_listed_eq (b : BlobRecord) (id : VolumeId) :
    (b.arrived id).listed id = { b with
      volumes := if b.isOn id then b.volumes else b.volumes ++ [id]
      pending := b.pending.filter (· != id) } := by
  unfold listed
  by_cases hon : b.isOn id = true
  · have hon' : (b.arrived id).isOn id = true := hon
    rw [if_pos hon, if_pos hon']
    rfl
  · have hon' : ¬ (b.arrived id).isOn id = true := hon
    rw [if_neg hon, if_neg hon']
    rfl

theorem isOn_arrived_listed (b : BlobRecord) (id volume : VolumeId) :
    ((b.arrived id).listed id).isOn volume = (b.isOn volume || volume == id) := by
  rw [arrived_listed_eq]
  by_cases hon : b.isOn id = true
  · rw [if_pos hon]
    by_cases hv : volume = id
    · subst hv
      simpa [isOn] using hon
    · simp [hv, isOn]
  · rw [if_neg hon]
    simp only [isOn, List.contains_append, List.contains_cons, List.contains_nil, Bool.or_false]

theorem ref_arrived_listed (b : BlobRecord) (id : VolumeId) :
    ((b.arrived id).listed id).ref = b.ref := by
  rw [arrived_listed_eq]

theorem sizeOnDisk_arrived_listed (b : BlobRecord) (id : VolumeId) :
    ((b.arrived id).listed id).sizeOnDisk = b.sizeOnDisk := by
  rw [arrived_listed_eq]

/-- Only the last commit counts. -/
theorem committed_committed (b : BlobRecord) (desired desired' : List VolumeId) :
    (b.committed desired).committed desired' = b.committed desired' := rfl

end BlobRecord

namespace Catalog

variable {c c' : Catalog} {r : Ref} {b : BlobRecord} {id : VolumeId}

theorem findRecord_eq_ok {record : BlobRecord} :
    c.findRecord r = .ok record ↔ c.records.get? r = some record := by
  unfold findRecord
  cases c.records.get? r <;> simp

theorem findVolume_eq_ok {volume : Volume} :
    c.findVolume id = .ok volume ↔ c.volumes.get? id = some volume := by
  unfold findVolume
  cases c.volumes.get? id <;> simp

/-- A commit changes exactly the records that it names, however often it names them. -/
theorem get?_foldl_committed (refs : List Ref) (desired : List VolumeId)
    (records : OrderedMap Ref BlobRecord) (r : Ref) :
    (refs.foldl (fun records r => records.modify r (·.committed desired)) records).get? r =
      (records.get? r).map fun b => if r ∈ refs then b.committed desired else b := by
  induction refs generalizing records with
  | nil => simp
  | cons r' refs ih =>
    rw [List.foldl_cons, ih, OrderedMap.get?_modify]
    by_cases hr : r = r'
    · subst hr
      rw [if_pos Std.ReflCmp.compare_self, Option.map_map]
      refine congrArg (fun f => (records.get? r).map f) (funext fun b => ?_)
      by_cases hmem : r ∈ refs <;> simp [hmem, BlobRecord.committed_committed]
    · simp [hr]

/-- The catalog after an operation, which changes nothing if it fails. -/
def after (c : Catalog) (answer : Except CatalogFault Catalog) : Catalog :=
  match answer with
  | .ok c => c
  | .error _ => c

/-! ### Operations that succeed -/

theorem create_eq_ok (h : c.create b id = .ok c') :
    c.records.get? b.ref = none ∧ ∃ volume, c.volumes.get? id = some volume ∧
      c' = { c with
        records := c.records.insert b.ref ((b.arrived id).listed id)
        volumes := c.volumes.insert id (volume.holding b) } := by
  unfold create at h
  split at h
  · cases h
  · rename_i hnone
    split at h
    · cases h
    · rename_i volume hvolume
      rw [Bool.not_eq_true] at hnone
      exact ⟨OrderedMap.contains_eq_false.1 hnone, volume, findVolume_eq_ok.1 hvolume,
        (Except.ok.inj h).symm⟩

/-- A record that was made keeps the keys of the catalog. -/
theorem create_keeps_keys (h : c.create b id = .ok c') :
    c'.records = c.records.insert b.ref ((b.arrived id).listed id) ∧
      c'.envelopes = c.envelopes ∧ c'.collections = c.collections := by
  obtain ⟨-, volume, -, rfl⟩ := create_eq_ok h
  exact ⟨rfl, rfl, rfl⟩

theorem confirm_eq_ok (h : c.confirm r id = .ok c') :
    ∃ b volume, c.records.get? r = some b ∧ c.volumes.get? id = some volume ∧
      c' = { c with
        records := c.records.insert r ((b.arrived id).listed id)
        volumes := if b.isOn id then c.volumes else c.volumes.insert id (volume.holding b) } := by
  unfold confirm at h
  split at h
  · cases h
  · rename_i b hb
    split at h
    · cases h
    · rename_i volume hvolume
      exact ⟨b, volume, findRecord_eq_ok.1 hb, findVolume_eq_ok.1 hvolume,
        (Except.ok.inj h).symm⟩

theorem commit_eq_ok {refs : List Ref} {desired : List VolumeId}
    (h : c.commit refs desired = .ok c') :
    c' = { c with
      records := refs.foldl (fun records r => records.modify r (·.committed desired))
        c.records } := by
  unfold commit at h
  split at h
  · cases h
  · exact (Except.ok.inj h).symm

theorem create_of_fresh (hfresh : c.hasRecord b.ref = false)
    (hknown : c.volumes.contains id = true) :
    ∃ volume, c.create b id = .ok { c with
      records := c.records.insert b.ref ((b.arrived id).listed id)
      volumes := c.volumes.insert id volume } := by
  obtain ⟨volume, hvolume⟩ := Option.isSome_iff_exists.1 hknown
  refine ⟨volume.holding b, ?_⟩
  simp [create, hfresh, findVolume_eq_ok.2 hvolume]

theorem confirm_of_record (hrecord : c.records.get? r = some b)
    (hknown : c.volumes.contains id = true) :
    ∃ volumes, c.confirm r id = .ok { c with
        records := c.records.insert r ((b.arrived id).listed id)
        volumes := volumes } ∧
      ∀ id', c.volumes.contains id' = true → volumes.contains id' = true := by
  obtain ⟨volume, hvolume⟩ := Option.isSome_iff_exists.1 hknown
  simp only [confirm, findRecord_eq_ok.2 hrecord, findVolume_eq_ok.2 hvolume]
  refine ⟨_, rfl, fun id' hid' => ?_⟩
  split
  · exact hid'
  · exact (OrderedMap.contains_insert _ _ _ _).2 (.inr hid')

end Catalog

/-! ### A record to start from -/

/-- The reference that is one byte throughout. -/
def Ref.repeated (b : UInt8) : Ref := ⟨List.replicate 32 b, List.length_replicate⟩

/-- The record of three bytes that were written to the first volume. -/
def BlobRecord.written (r : Ref) : BlobRecord where
  ref := r
  keyId := "key"
  volumes := [1]
  pending := []
  referenced := false
  isCompressed := false
  size := 3
  sizeOnDisk := 3
  crc32 := 0

end BlobVault
