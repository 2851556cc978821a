import BlobVault.Proofs.Replication.Accounting
import BlobVault.Proofs.Vault.Copying
import Mathlib.Data.Finset.Card

/-!
# Rounds of replication

In a round the node searches for copies that are due and makes those that it finds, in any order.
In a vault that is ready all of them arrive, and each round leaves fewer for the next one, until
every blob is where it was wanted.

* `Vault.queued` : each blob with each volume that waits for it;
* `Vault.copied_of_due` : copies that are due and about different pairs all arrive, in any order;
* `Vault.Progress` : what a number of copies makes of the records and the counters;
* `Vault.drained_of_rounds` : **each round succeeds and makes the queue shorter, and after as many
  rounds as there were pairs in the queue nothing is queued and every copy is in its place.**
-/

namespace BlobVault

/-! ### What is queued -/

/-- The sizes of the blobs that a volume waits for. -/
def waitingSizes (records : OrderedMap Ref BlobRecord) (id : VolumeId) : List Nat :=
  (records.values.filter (·.pending.contains id)).map (·.sizeOnDisk)

theorem perm_waitingSizes_insert (records : OrderedMap Ref BlobRecord) (r : Ref) (b : BlobRecord)
    (id : VolumeId) : (waitingSizes (records.insert r b) id).Perm
      ((if b.pending.contains id then [b.sizeOnDisk] else []) ++
        waitingSizes (records.erase r) id) := by
  have hperm := ((OrderedMap.perm_values_insert records r b).filter
    (·.pending.contains id)).map (·.sizeOnDisk)
  refine hperm.trans ?_
  rw [List.filter_cons]
  split <;> exact .refl _

theorem Volume.filled_holding (v : Volume) (sizes : List Nat) (b : BlobRecord) :
    (v.holding b).filled sizes = v.filled (b.sizeOnDisk :: sizes) := by
  simp only [filled, holding, List.length_cons, List.sum_cons]
  congr 1 <;> omega

/-- A blob with each volume that waits for it. -/
def BlobRecord.queued (b : BlobRecord) : List (Ref × VolumeId) :=
  b.pending.map fun id => (b.ref, id)

namespace Vault

/-- Each blob with each volume that waits for it, as often as the volume was asked for. -/
def queued (v : Vault) : List (Ref × VolumeId) := v.catalog.records.values.flatMap (·.queued)

variable {v v' w : Vault} {j : CopyJob} {b : BlobRecord} {volume : Volume}

theorem mem_queued (htidy : v.catalog.Tidy) {r : Ref} {id : VolumeId} :
    (r, id) ∈ v.queued ↔ ∃ b, v.catalog.records.get? r = some b ∧ id ∈ b.pending := by
  simp only [queued, List.mem_flatMap, BlobRecord.queued, List.mem_map, Prod.mk.injEq]
  constructor
  · rintro ⟨b, hb, id', hid', href, rfl⟩
    obtain ⟨r', hr'⟩ := OrderedMap.mem_values.1 hb
    rw [(htidy r' b hr').1] at href
    exact ⟨b, href ▸ hr', hid'⟩
  · rintro ⟨b, hb, hid⟩
    exact ⟨b, OrderedMap.mem_values.2 ⟨r, hb⟩, id, hid, (htidy r b hb).1, rfl⟩

theorem queued_eq_nil (htidy : v.catalog.Tidy) :
    v.queued = [] ↔ ∀ r b, v.catalog.records.get? r = some b → b.pending = [] := by
  constructor
  · intro h r b hb
    refine List.eq_nil_iff_forall_not_mem.2 fun id hid => ?_
    have hmem := (mem_queued htidy).2 ⟨b, hb, hid⟩
    rw [h] at hmem
    cases hmem
  · intro h
    refine List.eq_nil_iff_forall_not_mem.2 fun ⟨r, id⟩ hmem => ?_
    obtain ⟨b, hb, hid⟩ := (mem_queued htidy).1 hmem
    rw [h r b hb] at hid
    cases hid

/-- A copy that arrives takes its pair out of the queue, and no other. -/
theorem Arrives.perm_queued (h : Arrives j b volume v v') (htidy : v.catalog.Tidy) :
    v'.queued.Perm (v.queued.filter (· != j.pair)) := by
  have hold : v.catalog.records.values.Perm (b :: (v.catalog.records.erase j.ref).values) := by
    have hperm := OrderedMap.perm_values_insert v.catalog.records j.ref b
    rwa [OrderedMap.insert_of_get? h.recorded] at hperm
  have hnew := OrderedMap.perm_values_insert v.catalog.records j.ref
    ((b.arrived j.target).listed j.target)
  have href : b.ref = j.ref := (htidy j.ref b h.recorded).1
  -- the pairs of the blob itself
  have hself : ((b.arrived j.target).listed j.target).queued =
      b.queued.filter (· != j.pair) := by
    rw [BlobRecord.queued, BlobRecord.pending_arrived_listed, BlobRecord.ref_arrived_listed,
      BlobRecord.queued, List.filter_map]
    refine congrArg _ (List.filter_congr fun id _ => ?_)
    rw [Bool.eq_iff_iff]
    simp [CopyJob.pair, href]
  -- the pairs of the other blobs
  have hothers : ∀ b' ∈ (v.catalog.records.erase j.ref).values,
      b'.queued = b'.queued.filter (· != j.pair) := by
    intro b' hb'
    obtain ⟨r, hr⟩ := OrderedMap.mem_values.1 hb'
    obtain ⟨hne, hr⟩ := OrderedMap.get?_erase_eq_some.1 hr
    refine (List.filter_eq_self.2 fun p hp => ?_).symm
    obtain ⟨id, -, rfl⟩ := List.mem_map.1 hp
    rw [(htidy r b' hr).1]
    simp [CopyJob.pair, hne]
  rw [queued, h.records]
  refine (hnew.flatMap_right _).trans ?_
  refine .trans (.of_eq ?_) ((hold.flatMap_right _).filter _).symm
  rw [List.flatMap_cons, List.flatMap_cons, List.filter_append, hself, List.filter_flatMap]
  exact congrArg _ (List.flatMap_congr hothers)

end Vault

/-! ### What copies come to -/

/-- What replication may make of a record: volumes that waited are listed. -/
structure BlobRecord.Becomes (b b' : BlobRecord) : Prop where
  same : b' = { b with volumes := b'.volumes, pending := b'.pending }
  wanted : ∀ id, id ∈ b'.volumes ∨ id ∈ b'.pending ↔ id ∈ b.volumes ∨ id ∈ b.pending

namespace BlobRecord.Becomes

variable {b b' b'' : BlobRecord}

theorem refl (b : BlobRecord) : b.Becomes b := ⟨rfl, fun _ => .rfl⟩

theorem trans (h : b.Becomes b') (h' : b'.Becomes b'') : b.Becomes b'' := by
  refine ⟨?_, fun id => (h'.wanted id).trans (h.wanted id)⟩
  rw [h'.same, h.same]

theorem arrived_listed {id : VolumeId} (hid : id ∈ b.pending) :
    b.Becomes ((b.arrived id).listed id) := by
  refine ⟨?_, fun id' => ?_⟩
  · rw [arrived_listed_eq]
  · rw [mem_volumes_arrived_listed, pending_arrived_listed, List.mem_filter]
    by_cases h : id' = id
    · simp [h, hid]
    · simp [h]

end BlobRecord.Becomes

namespace Vault

variable {v v' w : Vault} {j : CopyJob} {b : BlobRecord} {volume : Volume}

/-- Replication has made copies between the two states.  The counters of a volume together with the
blobs that it waits for are still the same. -/
structure Progress (v w : Vault) : Prop where
  records : ∀ r b, v.catalog.records.get? r = some b →
    ∃ b', w.catalog.records.get? r = some b' ∧ b.Becomes b'
  unknown : ∀ r, v.catalog.records.get? r = none → w.catalog.records.get? r = none
  counted : ∀ id, (w.catalog.volumes.get? id).map (·.filled (waitingSizes w.catalog.records id)) =
    (v.catalog.volumes.get? id).map (·.filled (waitingSizes v.catalog.records id))

namespace Progress

theorem refl (v : Vault) : Progress v v :=
  ⟨fun _ b hb => ⟨b, hb, .refl b⟩, fun _ h => h, fun _ => rfl⟩

theorem trans (h : Progress v v') (h' : Progress v' w) : Progress v w where
  records r b hb := by
    obtain ⟨b', hb', hbecomes⟩ := h.records r b hb
    obtain ⟨b'', hb'', hbecomes'⟩ := h'.records r b' hb'
    exact ⟨b'', hb'', hbecomes.trans hbecomes'⟩
  unknown r hr := h'.unknown r (h.unknown r hr)
  counted id := (h'.counted id).trans (h.counted id)

end Progress

/-- A copy that arrives raises the counters of its volume by what the volume waited for. -/
theorem Arrives.counted (h : Arrives j b volume v v') (id : VolumeId) :
    (v'.catalog.volumes.get? id).map (·.filled (waitingSizes v'.catalog.records id)) =
      (v.catalog.volumes.get? id).map (·.filled (waitingSizes v.catalog.records id)) := by
  have hold := perm_waitingSizes_insert v.catalog.records j.ref b id
  rw [OrderedMap.insert_of_get? h.recorded] at hold
  have hnew := perm_waitingSizes_insert v.catalog.records j.ref
    ((b.arrived j.target).listed j.target) id
  rw [BlobRecord.pending_arrived_listed, BlobRecord.sizeOnDisk_arrived_listed] at hnew
  rw [h.records, h.volumes]
  by_cases hid : id = j.target
  · subst hid
    rw [OrderedMap.get?_insert_self, h.known, Option.map_some, Option.map_some,
      Volume.filled_holding]
    rw [if_pos (by simpa using h.waited)] at hold
    rw [if_neg (by simp)] at hnew
    exact congrArg some (volume.filled_perm ((hnew.cons b.sizeOnDisk).trans hold.symm))
  · have hsame : (b.pending.filter (· != j.target)).contains id = b.pending.contains id := by
      simp [hid]
    rw [hsame] at hnew
    rw [OrderedMap.get?_insert_of_ne _ hid]
    exact congrArg (fun f => (v.catalog.volumes.get? id).map f)
      (funext fun volume => volume.filled_perm (hnew.trans hold.symm))

theorem Arrives.progress (h : Arrives j b volume v v') : Progress v v' where
  records r b' hb' := by
    rw [h.records]
    by_cases hr : r = j.ref
    · subst hr
      obtain rfl := Option.some.inj (h.recorded.symm.trans hb')
      exact ⟨_, OrderedMap.get?_insert_self _ _ _, .arrived_listed h.waited⟩
    · exact ⟨b', by rw [OrderedMap.get?_insert_of_ne _ hr, hb'], .refl b'⟩
  unknown r hr := by
    have hne : r ≠ j.ref := by
      rintro rfl
      rw [h.recorded] at hr
      cases hr
    rw [h.records, OrderedMap.get?_insert_of_ne _ hne, hr]
  counted := h.counted

/-! ### Copies one after another -/

/-- Makes some copies one after another. -/
def copyAll (v : Vault) : List CopyJob → List (Except Fault Unit) × Vault
  | [] => ([], v)
  | j :: js =>
    let (answer, v) := v.replicate j.source j.target j.ref
    let (answers, v) := v.copyAll js
    (answer :: answers, v)

/-- The records are tidy, the volumes are driven, and the copies are intact. -/
structure Sane (v : Vault) : Prop where
  tidy : v.catalog.Tidy
  ready : v.Ready

/-- Copies that are due and about different pairs all arrive, one after another. -/
theorem copied_of_due {js : List CopyJob} (hsane : v.Sane) (hdue : ∀ j ∈ js, v.Due j)
    (hnodup : (js.map CopyJob.pair).Nodup) :
    (∀ answer ∈ (v.copyAll js).1, answer = .ok ()) ∧ (v.copyAll js).2.Sane ∧
      Progress v (v.copyAll js).2 ∧
      (v.copyAll js).2.queued.Perm (v.queued.filter (· ∉ js.map CopyJob.pair)) := by
  induction js generalizing v with
  | nil =>
    refine ⟨fun _ h => absurd h List.not_mem_nil, hsane, .refl v, ?_⟩
    simp [copyAll]
  | cons j js ih =>
    obtain ⟨hnew, hrest⟩ := List.nodup_cons.1 hnodup
    obtain ⟨b, volume, v', hrun, harrives⟩ :=
      arrives_of_due hsane.tidy hsane.ready (hdue j List.mem_cons_self)
    have hdue' : ∀ j' ∈ js, v'.Due j' := fun j' hj' =>
      harrives.due (hdue j' (List.mem_cons_of_mem j hj')) fun hpair =>
        hnew (hpair ▸ List.mem_map_of_mem hj')
    obtain ⟨hok, hsane', hprogress, hqueued⟩ :=
      ih ⟨harrives.tidy hsane.tidy, harrives.ready hsane.ready⟩ hdue' hrest
    simp only [copyAll, hrun]
    refine ⟨fun answer hanswer => ?_, hsane', harrives.progress.trans hprogress, ?_⟩
    · rcases List.mem_cons.1 hanswer with rfl | hanswer
      · rfl
      · exact hok answer hanswer
    · refine hqueued.trans (((harrives.perm_queued hsane.tidy).filter _).trans (.of_eq ?_))
      rw [List.filter_filter]
      refine List.filter_congr fun p _ => ?_
      rw [Bool.eq_iff_iff]
      simp [and_comm]

/-! ### A round -/

/-- What a search finds is due. -/
theorem due_of_discover (htidy : v.catalog.Tidy) {n : Nat} {inFlight : InFlight}
    (hj : j ∈ (v.discover n inFlight).1) : v.Due j := by
  obtain ⟨b, hb, hwanted⟩ := List.mem_flatMap.1 (mem_of_mem_takeJobs hj)
  obtain ⟨r, hr⟩ := OrderedMap.mem_values.1 (List.mem_filter.1 (List.mem_of_mem_take hb)).1
  obtain ⟨hbest, href, htarget⟩ := mem_wantedCopies.1 hwanted
  rw [(htidy r b hr).1] at href
  exact ⟨b, href ▸ hr, bestVolume_mem hbest, htarget⟩

theorem nodup_discover (v : Vault) (n : Nat) :
    ((v.discover n []).1.map CopyJob.pair).Nodup := by
  have hperm := takeJobs_perm v n ((v.catalog.pendingRecords n).flatMap v.wantedCopies) []
  rw [List.append_nil] at hperm
  exact hperm.nodup_iff.1 (takeJobs_nodup v n _ List.nodup_nil)

/-- As long as a volume waits for a blob, a search finds something. -/
theorem discover_ne_nil (hsane : v.Sane) {n : Nat} (hn : 0 < n) (hqueued : v.queued ≠ []) :
    (v.discover n []).1 ≠ [] := by
  have hwaiting : v.catalog.pendingRecords n ≠ [] := by
    obtain ⟨⟨r, id⟩, hmem⟩ := List.exists_mem_of_ne_nil _ hqueued
    obtain ⟨b, hb, hid⟩ := (mem_queued hsane.tidy).1 hmem
    have hfirst : b ∈ v.waiting := List.mem_filter.2
      ⟨OrderedMap.mem_values.2 ⟨r, hb⟩, by simpa using List.ne_nil_of_mem hid⟩
    have htake : v.catalog.pendingRecords n = v.waiting.take n := rfl
    rw [htake, ne_eq, List.take_eq_nil_iff]
    exact fun h => h.elim (Nat.ne_of_gt hn) (List.ne_nil_of_mem hfirst)
  -- the first record that waits can be copied
  obtain ⟨b, hb⟩ := List.exists_mem_of_ne_nil _ hwaiting
  obtain ⟨hvalue, hpending⟩ := List.mem_filter.1 (List.mem_of_mem_take hb)
  obtain ⟨r, hr⟩ := OrderedMap.mem_values.1 hvalue
  obtain ⟨target, htarget⟩ := List.exists_mem_of_ne_nil b.pending (by simpa using hpending)
  obtain ⟨source, hsource⟩ := List.exists_mem_of_ne_nil _ (hsane.tidy r b hr).2.ne_nil
  have hmounted : ∀ id, id ∈ b.volumes ∨ id ∈ b.pending → v.isMounted id = true := fun id hid => by
    obtain ⟨k, hk, -⟩ := (hsane.ready.drives r b hr id hid).mounted
    exact OrderedMap.contains_of_get? hk
  have hcopy : v.CanCopy [] b :=
    ⟨⟨target, htarget, hmounted target (.inr htarget), List.not_mem_nil⟩,
      source, hsource, hmounted source (.inl hsource)⟩
  obtain ⟨j, hj, htakes⟩ := canCopy_iff.1 hcopy
  exact (takeJobs_ne_nil_iff hn).2 ⟨j, List.mem_flatMap.2 ⟨b, hb, hj⟩, htakes⟩

/-- Fewer copies are queued than before, and no others, however often they are asked for. -/
structure Shrinks (v w : Vault) : Prop where
  length : w.queued.length < v.queued.length
  pairs : w.queued.toFinset ⊂ v.queued.toFinset

/-- What is left when some of the pairs are taken out. -/
theorem shrinks_of_perm {ps : List (Ref × VolumeId)} {p : Ref × VolumeId}
    (h : w.queued.Perm (v.queued.filter (· ∉ ps))) (hp : p ∈ ps) (hqueued : p ∈ v.queued) :
    Shrinks v w := by
  have hmem : ∀ q, q ∈ w.queued ↔ q ∈ v.queued ∧ q ∉ ps := fun q => by
    rw [h.mem_iff, List.mem_filter, decide_eq_true_eq]
  constructor
  · rw [h.length_eq]
    exact List.length_filter_lt_length_iff_exists.2 ⟨p, hqueued, by simpa using hp⟩
  · refine Finset.ssubset_iff_subset_ne.2 ⟨fun q hq => ?_, fun heq => ?_⟩
    · rw [List.mem_toFinset] at hq ⊢
      exact ((hmem q).1 hq).1
    · rw [← List.mem_toFinset, ← heq, List.mem_toFinset, hmem] at hqueued
      exact hqueued.2 hp

/-- What a round comes to, in whichever order the copies are made. -/
structure Succeeds (n : Nat) (js : List CopyJob) (v : Vault) : Prop where
  ok : ∀ answer ∈ (v.copyAll js).1, answer = .ok ()
  released : (v.discover n []).2.releaseAll js = []
  shrinks : v.queued ≠ [] → Shrinks v (v.copyAll js).2

/-- A round succeeds, leaves the vault as sane as it was, and goes on with what was queued. -/
theorem succeeds_of_sane (hsane : v.Sane) {n : Nat} (hn : 0 < n) {js : List CopyJob}
    (hjs : js.Perm (v.discover n []).1) :
    v.Succeeds n js ∧ (v.copyAll js).2.Sane ∧ Progress v (v.copyAll js).2 := by
  have hdue : ∀ j ∈ js, v.Due j := fun j hj => due_of_discover hsane.tidy (hjs.mem_iff.1 hj)
  have hnodup : (js.map CopyJob.pair).Nodup :=
    (hjs.map CopyJob.pair).nodup_iff.2 (nodup_discover v n)
  obtain ⟨hok, hsane', hprogress, hqueued⟩ := copied_of_due hsane hdue hnodup
  refine ⟨⟨hok, ?_, fun hne => ?_⟩, hsane', hprogress⟩
  · have hperm : (v.discover n []).2.Perm (js.map CopyJob.pair ++ []) :=
      (takeJobs_perm v n _ []).trans ((hjs.symm.map CopyJob.pair).append_right [])
    exact (Replication.perm_releaseAll hperm).eq_nil
  · obtain ⟨j, hj⟩ := List.exists_mem_of_ne_nil _ (discover_ne_nil hsane hn hne)
    have hmem : j ∈ js := hjs.mem_iff.2 hj
    obtain ⟨b, hrecord, -, htarget⟩ := hdue j hmem
    exact shrinks_of_perm hqueued (List.mem_map_of_mem hmem)
      ((mem_queued hsane.tidy).2 ⟨b, hrecord, htarget⟩)

/-! ### Round after round -/

/-- A number of rounds.  In each the node searches while nothing is in flight, and makes the copies
that it finds in some order. -/
inductive Rounds (n : Nat) : Nat → Vault → Vault → Prop
  | none (v : Vault) : Rounds n 0 v v
  | more {k : Nat} {v w : Vault} (h : Rounds n k v w) (js : List CopyJob)
      (hjs : js.Perm (w.discover n []).1) : Rounds n (k + 1) v (w.copyAll js).2

/-- Every blob has come to all the volumes that waited for it. -/
structure Drained (v w : Vault) : Prop where
  /-- A record lists the volumes that it listed and those that waited; each of them holds bytes with
  the recorded checksum. -/
  placed : ∀ r b, v.catalog.records.get? r = some b → ∃ b',
    w.catalog.records.get? r = some b' ∧ b' = { b with volumes := b'.volumes, pending := [] } ∧
      (∀ id, id ∈ b'.volumes ↔ id ∈ b.volumes ∨ id ∈ b.pending) ∧
      ∀ id ∈ b'.volumes, ∃ bs, w.object? id r = some bs ∧ Crc32.ofBytes bs = b.crc32
  unknown : ∀ r, v.catalog.records.get? r = none → w.catalog.records.get? r = none
  /-- Each blob that a volume waited for is counted there once. -/
  counted : ∀ id volume, v.catalog.volumes.get? id = some volume →
    w.catalog.volumes.get? id = some (volume.filled (waitingSizes v.catalog.records id))

theorem waitingSizes_eq_nil (htidy : w.catalog.Tidy) (h : w.queued = []) (id : VolumeId) :
    waitingSizes w.catalog.records id = [] := by
  rw [waitingSizes, List.map_eq_nil_iff, List.filter_eq_nil_iff]
  intro b hb
  obtain ⟨r, hr⟩ := OrderedMap.mem_values.1 hb
  rw [(queued_eq_nil htidy).1 h r b hr]
  exact Bool.false_ne_true

theorem drained_of_progress (hsane : w.Sane) (hprogress : Progress v w) (h : w.queued = []) :
    Drained v w where
  placed r b hb := by
    obtain ⟨b', hb', hbecomes⟩ := hprogress.records r b hb
    have hpending : b'.pending = [] := (queued_eq_nil hsane.tidy).1 h r b' hb'
    have hsame := hbecomes.same
    have hcrc : b'.crc32 = b.crc32 := by rw [hsame]
    have hwanted := hbecomes.wanted
    rw [hpending] at hsame hwanted
    refine ⟨b', hb', hsame, fun id => ?_, fun id hid => ?_⟩
    · simpa using hwanted id
    · rw [← hcrc]
      exact hsane.ready.intact r b' hb' id hid
  unknown := hprogress.unknown
  counted id volume hvolume := by
    have hcounted := hprogress.counted id
    rw [hvolume, waitingSizes_eq_nil hsane.tidy h, Option.map_some] at hcounted
    obtain ⟨volume', hvolume', hfilled⟩ := Option.map_eq_some_iff.1 hcounted
    rw [hvolume', ← hfilled]
    rfl

/-- A round after the queue has been emptied finds nothing. -/
theorem copyAll_of_queued_eq_nil (htidy : v.catalog.Tidy) (h : v.queued = []) {n : Nat}
    {js : List CopyJob} (hjs : js.Perm (v.discover n []).1) : (v.copyAll js).2 = v := by
  have hnone : js = [] := List.eq_nil_iff_forall_not_mem.2 fun j hj => by
    obtain ⟨b, hb, -, htarget⟩ := due_of_discover htidy (hjs.mem_iff.1 hj)
    rw [(queued_eq_nil htidy).1 h j.ref b hb] at htarget
    cases htarget
  rw [hnone]
  rfl

/-- What rounds keep, and how much they have left of the queue. -/
theorem sane_of_rounds (hsane : v.Sane) {n k : Nat} (hn : 0 < n) (h : Rounds n k v w) :
    w.Sane ∧ Progress v w ∧ (w.queued = [] ∨ w.queued.length + k ≤ v.queued.length) := by
  induction h with
  | none v => exact ⟨hsane, .refl v, .inr (Nat.le_refl _)⟩
  | @more k v w h js hjs ih =>
    obtain ⟨hsane', hprogress, hleft⟩ := ih hsane
    obtain ⟨hround, hsane'', hprogress'⟩ := succeeds_of_sane hsane' hn hjs
    refine ⟨hsane'', hprogress.trans hprogress', ?_⟩
    by_cases hempty : w.queued = []
    · rw [copyAll_of_queued_eq_nil hsane'.tidy hempty hjs]
      exact .inl hempty
    · have hfewer := (hround.shrinks hempty).length
      have hbound := hleft.resolve_left hempty
      exact .inr (by omega)

/-- **Replication drains the queue.**  From every state that writes, replications and commits lead
to, if all volumes concerned are driven and all copies are intact, each round succeeds, and after as
many rounds as there were copies in the queue every blob is where it was wanted. -/
theorem drained_of_rounds (hreached : v.Reached) (hready : v.Ready) {n : Nat} (hn : 0 < n) {k : Nat}
    (h : Rounds n k v w) :
    (∀ js, js.Perm (w.discover n []).1 → w.Succeeds n js) ∧
      (v.queued.length ≤ k → Drained v w) := by
  obtain ⟨hsane, hprogress, hleft⟩ := sane_of_rounds ⟨hreached.tidy, hready⟩ hn h
  refine ⟨fun js hjs => (succeeds_of_sane hsane hn hjs).1, fun hk => ?_⟩
  refine drained_of_progress hsane hprogress ?_
  rcases hleft with hempty | hbound
  · exact hempty
  · exact List.eq_nil_of_length_eq_zero (by omega)

/-- There is always a next round. -/
theorem exists_rounds (n k : Nat) (v : Vault) : ∃ w, Rounds n k v w := by
  induction k with
  | zero => exact ⟨v, .none v⟩
  | succ k ih =>
    obtain ⟨w, hw⟩ := ih
    exact ⟨_, hw.more _ (.refl _)⟩

namespace Queue

def ref : Ref := .repeated 1

def ciphertext : Bytes := [1, 2, 3]

def key : DataKey := ⟨"key", List.replicate 16 0, rfl⟩

/-- A write to the first volume. -/
def write : Write := ⟨1, 10, "photos", ref, .ofBytes ciphertext, false, .checking⟩

def encoded : Encoded := ⟨ciphertext, false, Crc32.ofBytes ciphertext⟩

/-- Three volumes are mounted, the last two on one backend.  The first holds an object. -/
def opened : Vault :=
  { Vault.empty 1 with
    catalog := ((Catalog.empty.addVolume ⟨1, ⟨1⟩, "first", 0, 0, 0⟩).addVolume
      ⟨2, ⟨2⟩, "second", 0, 0, 0⟩).addVolume ⟨3, ⟨3⟩, "third", 0, 4, 100⟩
    storage := Storage.empty.setBackend 10
      (.memory { Shelf.empty localCost with objects := OrderedMap.empty.insert ref ciphertext })
    mounts := ((OrderedMap.empty.insert 1 10).insert 2 20).insert 3 20 }

def created : Except CatalogFault Catalog :=
  opened.catalog.create (write.recordOf ciphertext key encoded) 1

/-- The blob is wanted on both other volumes, and on one of them twice. -/
def committed : Except CatalogFault Catalog := do
  (← created).commit [ref] [2, 3, 2]

def vault : Vault := { opened with catalog := committed.toOption.getD .empty }

theorem reached : vault.Reached := by
  have hcreated : (Vault.Reached { opened with catalog := created.toOption.getD .empty }) :=
    .write (.fresh rfl) write ciphertext key encoded rfl
  exact hcreated.commit [ref] [2, 3, 2] rfl

def blob : BlobRecord :=
  { write.recordOf ciphertext key encoded with pending := [2, 3, 2], referenced := true }

theorem record {r : Ref} {b : BlobRecord} (h : vault.catalog.records.get? r = some b) :
    r = ref ∧ b = blob := by
  have hrecords : vault.catalog.records = OrderedMap.empty.insert ref blob := rfl
  rw [hrecords, OrderedMap.get?_insert] at h
  split at h
  · rename_i hr
    exact ⟨Std.LawfulEqOrd.eq_of_compare hr, (Option.some.inj h).symm⟩
  · cases h

theorem drives {id : VolumeId} (h : id ∈ [1, 2, 3]) : vault.Drives id := by
  simp only [List.mem_cons, List.not_mem_nil, or_false] at h
  rcases h with rfl | rfl | rfl
  · exact ⟨rfl, 10, rfl, Storage.serves_memory rfl⟩
  · exact ⟨rfl, 20, rfl, Storage.serves_memory rfl⟩
  · exact ⟨rfl, 20, rfl, Storage.serves_memory rfl⟩

theorem ready : vault.Ready where
  drives r b hb id hid := by
    obtain ⟨rfl, rfl⟩ := record hb
    have hcases : id = 1 ∨ id = 2 ∨ id = 3 ∨ id = 2 := by
      simpa [blob, write, Write.recordOf] using hid
    refine drives ?_
    rcases hcases with rfl | rfl | rfl | rfl <;> decide
  intact r b hb id hid := by
    obtain ⟨rfl, rfl⟩ := record hb
    obtain rfl : id = 1 := by simpa [blob, write, Write.recordOf] using hid
    exact ⟨ciphertext, rfl, rfl⟩

end Queue

/-- Three rounds with one copy each. -/
theorem drained_of_rounds_sample :
    Queue.vault.Reached ∧ Queue.vault.Ready ∧ 0 < 1 ∧
      Queue.vault.queued = [(Queue.ref, 2), (Queue.ref, 3), (Queue.ref, 2)] ∧
      ∃ w, Rounds 1 3 Queue.vault w ∧ Drained Queue.vault w := by
  obtain ⟨w, hrounds⟩ := exists_rounds 1 3 Queue.vault
  have hdrained := (drained_of_rounds Queue.reached Queue.ready (by decide) hrounds).2
  exact ⟨Queue.reached, Queue.ready, by decide, rfl, w, hrounds, hdrained (Nat.le_refl 3)⟩

end Vault

end BlobVault
