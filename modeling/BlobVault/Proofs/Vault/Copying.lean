import BlobVault.Proofs.Replication.Discovery
import BlobVault.Proofs.Storage.Descriptors
import BlobVault.Proofs.Storage.Service
import BlobVault.Proofs.Vault.Reached

/-!
# Copies that cannot fail

A copy that is due is made and confirmed, if the volumes that hold a blob or want it are driven by
backends in working order and no copy that is listed has been damaged.

* `Vault.Ready` : the volumes are driven and the copies are intact;
* `Vault.Due` : somebody waits for the copy, and it can be made from the source;
* `Vault.arrives_of_due` : **in a vault that is ready, a copy that is due arrives**;
* `Vault.Arrives.ready`, `Vault.Arrives.due` : the vault stays ready, and all other copies that were
  due still are.
-/

namespace BlobVault

/-- Every backend holds what it held before a store, or what was stored. -/
theorem Storage.object?_store_self {st : Storage} {k : BackendId} {r : Ref} {content : Stream}
    {bs : Bytes} (hok : (st.store k r content).1 = .ok ()) (hbs : content.content = .ok bs)
    (k' : BackendId) :
    (st.store k r content).2.object? k r = some bs ∧
      ((st.store k r content).2.object? k' r = some bs ∨
        (st.store k r content).2.object? k' r = st.object? k' r) := by
  have hstore := object?_store st k r content
  rw [hok] at hstore
  obtain ⟨bs', hbs', hstored⟩ := hstore
  obtain rfl := Except.ok.inj (hbs.symm.trans hbs')
  have hself : (st.store k r content).2.object? k r = some bs := by
    rw [hstored k r (.inl rfl), if_pos ⟨rfl, rfl⟩]
  refine ⟨hself, ?_⟩
  by_cases hap : st.Apart k k'
  · rw [hstored k' r (.inr hap)]
    split
    · exact .inl rfl
    · exact .inr rfl
  · have hap' : ¬ (st.store k r content).2.Apart k k' := fun h => hap fun root hroot => by
      rw [← (sameLayout_store st k r content).place] at hroot ⊢
      exact h root hroot
    exact .inl (by rw [object?_of_not_apart hap', hself])

namespace BlobRecord

theorem mem_volumes_arrived_listed {b : BlobRecord} {id id' : VolumeId} :
    id' ∈ ((b.arrived id).listed id).volumes ↔ id' ∈ b.volumes ∨ id' = id := by
  have hon := b.isOn_arrived_listed id id'
  simp only [isOn] at hon
  rw [← List.contains_iff_mem, hon]
  simp

theorem pending_arrived_listed (b : BlobRecord) (id : VolumeId) :
    ((b.arrived id).listed id).pending = b.pending.filter (· != id) := by
  rw [arrived_listed_eq]

theorem crc32_arrived_listed (b : BlobRecord) (id : VolumeId) :
    ((b.arrived id).listed id).crc32 = b.crc32 := by
  rw [arrived_listed_eq]

end BlobRecord

namespace Vault

/-- The volume is known to the catalog, and mounted on a backend in working order. -/
structure Drives (v : Vault) (id : VolumeId) : Prop where
  known : v.catalog.volumes.contains id = true
  mounted : ∃ k, v.mounts.get? id = some k ∧ v.storage.Serves k

/-- Every volume that holds a blob or waits for one is driven, and every copy that is listed has the
recorded checksum. -/
structure Ready (v : Vault) : Prop where
  drives : ∀ r b, v.catalog.records.get? r = some b →
    ∀ id, id ∈ b.volumes ∨ id ∈ b.pending → v.Drives id
  intact : ∀ r b, v.catalog.records.get? r = some b →
    ∀ id ∈ b.volumes, ∃ bs, v.object? id r = some bs ∧ Crc32.ofBytes bs = b.crc32

/-- The target waits for the blob, and the source is listed as holding it. -/
def Due (v : Vault) (j : CopyJob) : Prop :=
  ∃ b, v.catalog.records.get? j.ref = some b ∧ j.source ∈ b.volumes ∧ j.target ∈ b.pending

/-- A copy of a blob was made between the two states, and confirmed. -/
structure Arrives (j : CopyJob) (b : BlobRecord) (volume : Volume) (v v' : Vault) : Prop where
  recorded : v.catalog.records.get? j.ref = some b
  waited : j.target ∈ b.pending
  known : v.catalog.volumes.get? j.target = some volume
  catalog : v'.catalog = { v.catalog with
    records := v.catalog.records.insert j.ref ((b.arrived j.target).listed j.target)
    volumes := v.catalog.volumes.insert j.target (volume.holding b) }
  drives : ∀ id, v.Drives id → v'.Drives id
  landed : ∃ bs, v'.object? j.target j.ref = some bs ∧ Crc32.ofBytes bs = b.crc32
  objects : ∀ id r, v'.object? id r = v.object? id r ∨
    r = j.ref ∧ ∃ bs, v'.object? id r = some bs ∧ Crc32.ofBytes bs = b.crc32

variable {v v' : Vault} {j j' : CopyJob} {b : BlobRecord} {volume : Volume}

/-! ### The storage after a copy -/

/-- The vault after an object was asked for on one backend and a content was stored on another. -/
def carried (v : Vault) (k k' : BackendId) (r : Ref) (content : Stream) : Vault :=
  ((v.rawFetch k r).2.rawStore k' r content).2

variable {k k' : BackendId} {r : Ref} {content : Stream} {bs : Bytes}

theorem object?_carried (hserves : v.storage.Serves k') (hbs : content.content = .ok bs)
    (id : VolumeId) (r' : Ref) :
    (v.carried k k' r content).object? id r' = v.object? id r' ∨
      r' = r ∧ (v.carried k k' r content).object? id r' = some bs := by
  have hanswers := (hserves.fetch k r).answers
  have hok := hanswers.stores r content bs hbs
  show (v.mounts.get? id).bind (fun i =>
      ((v.storage.fetch k r).2.store k' r content).2.object? i r') = v.object? id r' ∨
    r' = r ∧ (v.mounts.get? id).bind (fun i =>
      ((v.storage.fetch k r).2.store k' r content).2.object? i r') = some bs
  cases hid : v.mounts.get? id with
  | none => exact .inl (object?_of_not_mounted hid r').symm
  | some i =>
    rw [object?_of_mounted hid, Option.bind_some, ← Storage.object?_fetch v.storage k r i r']
    by_cases hr : r' = r
    · subst hr
      rcases (Storage.object?_store_self hok hbs i).2 with hnew | hold
      · exact .inr ⟨rfl, hnew⟩
      · exact .inl hold
    · exact .inl (Storage.object?_store_of_other content fun heq => absurd heq hr)

theorem object?_carried_self (hserves : v.storage.Serves k') (hbs : content.content = .ok bs)
    {id : VolumeId} (hid : v.mounts.get? id = some k') :
    (v.carried k k' r content).object? id r = some bs := by
  have hanswers := (hserves.fetch k r).answers
  have hstore := Storage.object?_store_self (hanswers.stores r content bs hbs) hbs k'
  rw [object?_of_mounted (v := v.carried k k' r content) hid]
  exact hstore.1

theorem Drives.carried {id : VolumeId} (h : v.Drives id) :
    (v.carried k k' r content).Drives id := by
  obtain ⟨hknown, i, hi, hserves⟩ := h
  exact ⟨hknown, i, hi, (hserves.fetch k r).store k' r content⟩

/-! ### A copy that is due -/

/-- The target is driven and the object of the source has the recorded checksum, so that only the
confirmation is left. -/
theorem replicate_of_driven (hk : v.mounts.get? j.source = some k)
    (hk' : v.mounts.get? j.target = some k') (hserves : v.storage.Serves k)
    (hserves' : v.storage.Serves k') (hrecord : v.catalog.records.get? j.ref = some b)
    (hobject : v.object? j.source j.ref = some bs) (hcrc : Crc32.ofBytes bs = b.crc32) :
    v.replicate j.source j.target j.ref = match v.catalog.confirm j.ref j.target with
      | .error fault => (.error (.ofCatalog fault), v.carried k k' j.ref (passedOn b bs))
      | .ok c => (.ok (), { v.carried k k' j.ref (passedOn b bs) with catalog := c }) := by
  rw [object?_of_mounted hk] at hobject
  have hfetched : v.rawFetch k j.ref = (.ok (.ofBytes bs), (v.rawFetch k j.ref).2) := by
    rw [← Storage.fetch_of_object hserves.answers.plain hobject]
    rfl
  have hcontent : (passedOn b bs).content = .ok bs := by rw [content_passedOn, if_pos hcrc]
  have hstored : (v.rawFetch k j.ref).2.rawStore k' j.ref
      (VerifiedStream.ofCrc32 (.ofBytes bs) b.crc32).toStream =
        (.ok (), v.carried k k' j.ref (passedOn b bs)) := by
    rw [← (hserves'.fetch k j.ref).answers.stores j.ref (passedOn b bs) bs hcontent]
    rfl
  have hcatalog : (v.carried k k' j.ref (passedOn b bs)).catalog = v.catalog := rfl
  rw [replicate, beginCopy_of_record hk hk' hrecord]
  dsimp only
  rw [hfetched]
  cases hconfirm : v.catalog.confirm j.ref j.target with
  | error fault => simp only [Copy.finish, hstored, hcatalog, hconfirm]
  | ok c => simp only [Copy.finish, hstored, hcatalog, hconfirm]

/-- A volume that waits for a blob is not listed as holding it, and is counted once it is. -/
theorem confirm_of_pending (htidy : v.catalog.Tidy)
    (hrecord : v.catalog.records.get? j.ref = some b) (htarget : j.target ∈ b.pending)
    (hvolume : v.catalog.volumes.get? j.target = some volume) :
    v.catalog.confirm j.ref j.target = .ok { v.catalog with
      records := v.catalog.records.insert j.ref ((b.arrived j.target).listed j.target)
      volumes := v.catalog.volumes.insert j.target (volume.holding b) } := by
  have hnew : j.target ∉ b.volumes := fun hmem =>
    (htidy j.ref b hrecord).2.apart j.target hmem htarget
  have hoff : b.isOn j.target = false := by simpa [BlobRecord.isOn] using hnew
  simp only [Catalog.confirm, Catalog.findRecord_eq_ok.2 hrecord,
    Catalog.findVolume_eq_ok.2 hvolume, hoff, Bool.false_eq_true, if_false]

/-- **In a vault that is ready, a copy that is due arrives.** -/
theorem arrives_of_due (htidy : v.catalog.Tidy) (hready : v.Ready) (hdue : v.Due j) :
    ∃ b volume v', v.replicate j.source j.target j.ref = (.ok (), v') ∧
      Arrives j b volume v v' := by
  obtain ⟨b, hrecord, hsource, htarget⟩ := hdue
  obtain ⟨-, k, hk, hserves⟩ := hready.drives j.ref b hrecord j.source (.inl hsource)
  obtain ⟨hknown, k', hk', hserves'⟩ := hready.drives j.ref b hrecord j.target (.inr htarget)
  obtain ⟨volume, hvolume⟩ := Option.isSome_iff_exists.1 hknown
  obtain ⟨bs, hobject, hcrc⟩ := hready.intact j.ref b hrecord j.source hsource
  have hrun := replicate_of_driven hk hk' hserves hserves' hrecord hobject hcrc
  rw [confirm_of_pending htidy hrecord htarget hvolume] at hrun
  have hcontent : (passedOn b bs).content = .ok bs := by rw [content_passedOn, if_pos hcrc]
  refine ⟨b, volume, _, hrun, hrecord, htarget, hvolume, rfl, fun id hid => ?_,
    ⟨bs, object?_carried_self hserves' hcontent hk', hcrc⟩, fun id r => ?_⟩
  · exact ⟨(OrderedMap.contains_insert _ _ _ _).2 (.inr hid.known), hid.carried.mounted⟩
  · rcases object?_carried (k := k) (r := j.ref) hserves' hcontent id r with hold | ⟨hr, hnew⟩
    · exact .inl hold
    · exact .inr ⟨hr, bs, hnew, hcrc⟩

/-! ### What a copy leaves behind -/

namespace Arrives

theorem records (h : Arrives j b volume v v') : v'.catalog.records =
    v.catalog.records.insert j.ref ((b.arrived j.target).listed j.target) := by
  rw [h.catalog]

theorem volumes (h : Arrives j b volume v v') : v'.catalog.volumes =
    v.catalog.volumes.insert j.target (volume.holding b) := by
  rw [h.catalog]

/-- A record after the copy is the one that was copied, or the same as before. -/
theorem record_cases (h : Arrives j b volume v v') {b' : BlobRecord}
    (hb' : v'.catalog.records.get? r = some b') :
    (r = j.ref ∧ b' = (b.arrived j.target).listed j.target) ∨
      (r ≠ j.ref ∧ v.catalog.records.get? r = some b') := by
  rw [h.records] at hb'
  by_cases hr : r = j.ref
  · subst hr
    rw [OrderedMap.get?_insert_self] at hb'
    exact .inl ⟨rfl, (Option.some.inj hb').symm⟩
  · rw [OrderedMap.get?_insert_of_ne _ hr] at hb'
    exact .inr ⟨hr, hb'⟩

theorem tidy (h : Arrives j b volume v v') (htidy : v.catalog.Tidy) : v'.catalog.Tidy := by
  obtain ⟨href, hplaced⟩ := htidy j.ref b h.recorded
  rw [h.catalog]
  exact htidy.listed href hplaced (OrderedMap.contains_of_get? h.known) fun id hid =>
    (OrderedMap.contains_insert _ _ _ _).2 (.inr hid)

/-- The copy that arrived is intact, and so is every other. -/
theorem ready (h : Arrives j b volume v v') (hready : v.Ready) : v'.Ready where
  drives r b' hb' id hid := by
    refine h.drives id ?_
    rcases h.record_cases hb' with ⟨rfl, rfl⟩ | ⟨-, hold⟩
    · rw [BlobRecord.mem_volumes_arrived_listed, BlobRecord.pending_arrived_listed] at hid
      refine hready.drives j.ref b h.recorded id ?_
      rcases hid with (hlisted | rfl) | hwaits
      · exact .inl hlisted
      · exact .inr h.waited
      · exact .inr (List.mem_filter.1 hwaits).1
    · exact hready.drives r b' hold id hid
  intact r b' hb' id hid := by
    rcases h.record_cases hb' with ⟨rfl, rfl⟩ | ⟨hr, hold⟩
    · rw [BlobRecord.crc32_arrived_listed]
      rcases BlobRecord.mem_volumes_arrived_listed.1 hid with hlisted | rfl
      · rcases h.objects id j.ref with hsame | ⟨-, hnew⟩
        · rw [hsame]
          exact hready.intact j.ref b h.recorded id hlisted
        · exact hnew
      · exact h.landed
    · rw [(h.objects id r).resolve_right fun hnew => hr hnew.1]
      exact hready.intact r b' hold id hid

/-- Another copy that was due still is. -/
theorem due (h : Arrives j b volume v v') (hdue : v.Due j') (hne : j'.pair ≠ j.pair) :
    v'.Due j' := by
  obtain ⟨b', hrecord, hsource, htarget⟩ := hdue
  by_cases href : j'.ref = j.ref
  · rw [href, h.recorded] at hrecord
    obtain rfl := Option.some.inj hrecord
    have hother : j'.target ≠ j.target := fun ht => hne (by rw [CopyJob.pair, href, ht]; rfl)
    refine ⟨(b.arrived j.target).listed j.target, by rw [href, h.records]; simp,
      BlobRecord.mem_volumes_arrived_listed.2 (.inl hsource), ?_⟩
    rw [BlobRecord.pending_arrived_listed]
    exact List.mem_filter.2 ⟨htarget, by simpa using hother⟩
  · exact ⟨b', by rw [h.records, OrderedMap.get?_insert_of_ne _ href, hrecord], hsource, htarget⟩

end Arrives

end Vault

end BlobVault
