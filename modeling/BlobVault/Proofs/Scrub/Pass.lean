import BlobVault.Proofs.Vault.Transfer
import BlobVault.Scrub.Scan

/-!
# What a scrub job comes to

The result of a scrub job, as one pass over the records after its cursor, and what the pass depends
on.

* `ScrubJob.pass` : the pass, and how it ends;
* `ScrubJob.remaining` : the records that a job has not dealt with;
* `Vault.Still` : nothing has changed that a scan of a volume reads;
* `Vault.fst_scrub` : a check depends on nothing else.
-/

namespace BlobVault

/-- Every record is kept under its own reference. -/
def Catalog.Filed (c : Catalog) : Prop := ∀ r b, c.records.get? r = some b → b.ref = r

theorem Catalog.findJob_saveJob (c : Catalog) (j : ScrubJob) (id : Uuid) :
    (c.saveJob j).findJob id = if id = j.id then .ok j else c.findJob id := by
  simp only [findJob, saveJob, OrderedMap.get?_insert, Std.LawfulEqCmp.compare_eq_iff_eq]
  by_cases h : id = j.id
  · rw [if_pos h, if_pos h]
  · rw [if_neg h, if_neg h]

theorem Catalog.findJob_saveJob_self (c : Catalog) (j : ScrubJob) :
    (c.saveJob j).findJob j.id = .ok j := by
  rw [findJob_saveJob, if_pos rfl]

theorem Catalog.findJob_of_jobs {c c' : Catalog} (h : c'.jobs = c.jobs) (id : Uuid) :
    c'.findJob id = c.findJob id := by
  rw [findJob, findJob, h]

/-- What a check says of a record of a volume. -/
def Vault.finding? (v : Vault) (volume : VolumeId) (b : BlobRecord) : Option (Except Fault Nat) :=
  if b.isOn volume then some (v.scrub b.ref volume).1 else none

namespace ScrubJob

/-- The records that the job has not dealt with. -/
def remaining (v : Vault) (j : ScrubJob) : List BlobRecord :=
  (v.catalog.records.after j.cursor).map (·.2)

/-- The job with its report cut. -/
def cut (j : ScrubJob) (cap : Nat) : ScrubJob :=
  { j with report := Report.truncate j.report cap }

/-- Deals with some records one after another, up to the first one after which the report is too
long. -/
def pass (v : Vault) (cap : Nat) : ScrubJob → List BlobRecord → Scan.Outcome × ScrubJob
  | j, [] => (.completed, j)
  | j, b :: rest =>
    let j := j.visited b.ref (v.finding? j.volumeId b)
    if Report.isOver j.report cap then (.aborted, j.cut cap) else pass v cap j rest

/-- What the job comes to. -/
def result (v : Vault) (cap : Nat) (j : ScrubJob) : Scan.Outcome × ScrubJob :=
  j.pass v cap (j.remaining v)

variable {v : Vault} {cap : Nat}

/-- Dealing with a record changes neither whose job it is nor whether it is completed. -/
theorem visited_same (j : ScrubJob) (r : Ref) (result? : Option (Except Fault Nat)) :
    (j.visited r result?).id = j.id ∧ (j.visited r result?).volumeId = j.volumeId ∧
      (j.visited r result?).cursor = some r := by
  rcases result? with _ | ⟨_ | _⟩ <;> exact ⟨rfl, rfl, rfl⟩

theorem cut_same (j : ScrubJob) (cap : Nat) :
    (j.cut cap).id = j.id ∧ (j.cut cap).volumeId = j.volumeId := ⟨rfl, rfl⟩

theorem pass_same (v : Vault) (cap : Nat) (j : ScrubJob) (records : List BlobRecord) :
    (j.pass v cap records).2.id = j.id ∧ (j.pass v cap records).2.volumeId = j.volumeId := by
  induction records generalizing j with
  | nil => exact ⟨rfl, rfl⟩
  | cons b rest ih =>
    obtain ⟨hid, hvolume, -⟩ := visited_same j b.ref (v.finding? j.volumeId b)
    rw [pass]
    split
    · obtain ⟨hcutId, hcutVolume⟩ := cut_same (j.visited b.ref (v.finding? j.volumeId b)) cap
      exact ⟨hcutId.trans hid, hcutVolume.trans hvolume⟩
    · exact ⟨(ih _).1.trans hid, (ih _).2.trans hvolume⟩

/-- After the first of the remaining records come the others. -/
theorem remaining_visited (hfiled : v.catalog.Filed) {j : ScrubJob} {b : BlobRecord}
    {rest : List BlobRecord} (h : j.remaining v = b :: rest) (result? : Option (Except Fault Nat)) :
    (j.visited b.ref result?).remaining v = rest := by
  obtain ⟨-, -, hcursor⟩ := visited_same j b.ref result?
  obtain ⟨p, qs, hafter, hp, hqs⟩ := List.map_eq_cons_iff.1 h
  have hmem : p ∈ v.catalog.records.entries := by
    have : p ∈ v.catalog.records.after j.cursor := hafter ▸ List.mem_cons_self
    rw [OrderedMap.after_eq_filter] at this
    exact (List.mem_filter.1 this).1
  have href : b.ref = p.1 := hp ▸ hfiled p.1 p.2 (OrderedMap.mem_entries.1 hmem)
  have hfirst : v.catalog.records.after j.cursor = [] ++ p :: qs := hafter
  rw [remaining, hcursor, href, OrderedMap.after_of_append hfirst, hqs]

end ScrubJob

/-! ### Checks -/

/-- What a backend holds under a reference, as a fetch sees it. -/
def Backend.reads (b : Backend) (files : Files) (r : Ref) : Except Fault Stream :=
  match b with
  | memory shelf | rigged shelf _ => (shelf.fetch r).1
  | folder root _ => Folder.fetch files root r

/-- What becomes of it on the way. -/
def Backend.spoils : Backend → Except Fault Stream → Except Fault Stream
  | rigged _ rig => rig.reply
  | _ => fun answer => answer

namespace Storage

/-- Whoever reads the backend gets the same answers. -/
structure Like (st st' : Storage) (b : BackendId) : Prop where
  reads : (st'.backend b).reads st'.files = (st.backend b).reads st.files
  spoils : (st'.backend b).spoils = (st.backend b).spoils

theorem fst_trueAnswer (st : Storage) (b : BackendId) (r : Ref) :
    (st.trueAnswer b r).1 = (st.backend b).reads st.files r := by
  unfold trueAnswer
  cases st.backend b <;> rfl

theorem approach_eq (st : Storage) (b : BackendId) (r : Ref) (now : Nat) :
    (st.approach b r now).backend = b ∧ (st.approach b r now).ref = r ∧
      (st.approach b r now).reply = (st.backend b).spoils := by
  unfold approach
  cases st.backend b with
  | rigged shelf rig => cases r.isDescriptor <;> exact ⟨rfl, rfl, rfl⟩
  | _ => exact ⟨rfl, rfl, rfl⟩

theorem like_setBackend {st : Storage} {b : BackendId} {backend : Backend}
    (hreads : backend.reads st.files = (st.backend b).reads st.files)
    (hspoils : backend.spoils = (st.backend b).spoils) (b' : BackendId) :
    Like st (st.setBackend b backend) b' := by
  by_cases h : b' = b
  · subst h
    constructor
    · rw [backend_setBackend, if_pos rfl]
      exact hreads
    · rw [backend_setBackend, if_pos rfl]
      exact hspoils
  · constructor
    · rw [backend_setBackend, if_neg h]
      rfl
    · rw [backend_setBackend, if_neg h]

/-- An answer leaves nothing behind but the trace of who asked. -/
theorem like_answer (st : Storage) (a : Approach) (b : BackendId) :
    Like st (st.answer a).2 b := by
  show Like st (st.trueAnswer a.backend a.ref).2 b
  unfold trueAnswer
  cases h : st.backend a.backend with
  | folder root cost => exact ⟨rfl, rfl⟩
  | memory shelf => exact like_setBackend (by rw [h]; rfl) (by rw [h]; rfl) b
  | rigged shelf rig => exact like_setBackend (by rw [h]; rfl) (by rw [h]; rfl) b

theorem like_setGate (st : Storage) (b : BackendId) (g : Gate) (b' : BackendId) :
    Like st (st.setGate b g) b' := by
  refine like_setBackend ?_ ?_ b'
  · cases st.backend b <;> rfl
  · cases st.backend b <;> rfl

/-- On its way an approach changes nothing but gates, and it stays the same approach. -/
theorem like_advance {st st' : Storage} {now : Nat} {a a' : Approach}
    (h : st.advance? now a = some (a', st')) (b : BackendId) :
    Like st st' b ∧ a'.backend = a.backend ∧ a'.ref = a.ref ∧ a'.reply = a.reply := by
  unfold advance? at h
  split at h
  · split at h
    · cases h
    · split at h
      · split at h <;>
        · obtain ⟨rfl, rfl⟩ := Prod.mk.inj (Option.some.inj h)
          exact ⟨like_setGate _ _ _ b, rfl, rfl, rfl⟩
      · obtain ⟨rfl, rfl⟩ := Prod.mk.inj (Option.some.inj h)
        exact ⟨⟨rfl, rfl⟩, rfl, rfl, rfl⟩
  · split at h
    · split at h
      · cases h
      · obtain ⟨rfl, rfl⟩ := Prod.mk.inj (Option.some.inj h)
        exact ⟨⟨rfl, rfl⟩, rfl, rfl, rfl⟩
    · obtain ⟨rfl, rfl⟩ := Prod.mk.inj (Option.some.inj h)
      exact ⟨⟨rfl, rfl⟩, rfl, rfl, rfl⟩
  · cases h

end Storage

namespace Vault

/-- Nothing has changed that a scan of the volume reads: the records, and what the volume's backend
answers. -/
structure Still (volume : VolumeId) (v v' : Vault) : Prop where
  records : v'.catalog.records = v.catalog.records
  mounted : v'.mounts.get? volume = v.mounts.get? volume
  backend : ∀ b, v.mounts.get? volume = some b → v.storage.Like v'.storage b

variable {volume : VolumeId} {v v' v'' : Vault}

namespace Still

theorem refl (volume : VolumeId) (v : Vault) : Still volume v v :=
  ⟨rfl, rfl, fun _ _ => ⟨rfl, rfl⟩⟩

theorem trans (h : Still volume v v') (h' : Still volume v' v'') : Still volume v v'' := by
  refine ⟨h'.records.trans h.records, h'.mounted.trans h.mounted, fun b hb => ?_⟩
  have hlike := h.backend b hb
  have hlike' := h'.backend b (h.mounted.trans hb)
  exact ⟨hlike'.reads.trans hlike.reads, hlike'.spoils.trans hlike.spoils⟩

theorem ofStorage {st : Storage} (h : ∀ b, v.storage.Like st b) :
    Still volume v { v with storage := st } :=
  ⟨rfl, rfl, fun b _ => h b⟩

theorem saveJob (volume : VolumeId) (v : Vault) (j : ScrubJob) :
    Still volume v { v with catalog := v.catalog.saveJob j } :=
  ⟨rfl, rfl, fun _ _ => ⟨rfl, rfl⟩⟩

/-- A check sets out in the same way. -/
theorem beginCheck (h : Still volume v v') (r : Ref) :
    v'.beginCheck r volume = v.beginCheck r volume := by
  rw [Vault.beginCheck, Vault.beginCheck, backendOf, backendOf, h.mounted, Catalog.checksumOf,
    Catalog.checksumOf, Catalog.findRecord, Catalog.findRecord, h.records]

end Still

theorem beginCheck_eq_ok {r : Ref} {c : Check} (h : v.beginCheck r volume = .ok c) :
    v.mounts.get? volume = some c.backend ∧ c.ref = r := by
  unfold beginCheck at h
  split at h
  · cases h
  · rename_i b hb
    split at h
    · cases h
    · obtain rfl := Except.ok.inj h
      exact ⟨mounted_of_backendOf hb, rfl⟩

/-- What a check comes to, in terms of what the backend holds. -/
theorem fst_scrub (v : Vault) (r : Ref) (volume : VolumeId) :
    (v.scrub r volume).1 = match v.beginCheck r volume with
      | .error fault => .error fault
      | .ok c => c.finish ((v.storage.backend c.backend).spoils
          ((v.storage.backend c.backend).reads v.storage.files r)) := by
  unfold scrub
  cases v.beginCheck r volume with
  | error fault => rfl
  | ok c =>
    obtain ⟨hbackend, href, hreply⟩ := Storage.approach_eq v.storage c.backend r 0
    simp only [rawFetch, Storage.fetch, Storage.answer, hreply, hbackend, href,
      Storage.fst_trueAnswer]

end Vault

end BlobVault
