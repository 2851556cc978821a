import BlobVault.Proofs.Catalog.Records
import BlobVault.Replication.Discovery

/-!
# What a search for missing copies finds

A search takes the first records that some volume waits for, as many as it may take jobs, and only
then looks which of them concern this node.

* `Vault.takeJobs_perm`, `Vault.takeJobs_nodup` : jobs that are taken are new and put in flight;
* `Vault.CanCopy` : this node could make a copy of a blob that is not in flight yet;
* `Vault.discover_ne_nil_iff` : **a search finds a job exactly if the node could make a copy of one
  of those first records.**

So a copy that could be made stays hidden as long as enough other records come first
(`Vault.discover_hidden_sample`).
-/

namespace BlobVault.Vault

variable {v : Vault}

/-! ### The volume to read from -/

theorem cheapest_eq_none {ps : List (VolumeId × Nat)} : cheapest ps = none ↔ ps = [] := by
  cases ps with
  | nil => simp [cheapest]
  | cons p ps =>
    simp only [cheapest, reduceCtorEq, iff_false]
    cases cheapest ps with
    | none => simp
    | some q => by_cases h : p.2 ≤ q.2 <;> simp [h]

theorem cheapest_mem {ps : List (VolumeId × Nat)} {p : VolumeId × Nat}
    (h : cheapest ps = some p) : p ∈ ps := by
  induction ps generalizing p with
  | nil => cases h
  | cons q ps ih =>
    unfold cheapest at h
    split at h
    · obtain rfl := Option.some.inj h
      exact List.mem_cons_self
    · rename_i q' hq'
      split at h
      · obtain rfl := Option.some.inj h
        exact List.mem_cons_self
      · obtain rfl := Option.some.inj h
        exact List.mem_cons_of_mem q (ih hq')

/-- A blob is read from one of its volumes. -/
theorem bestVolume_mem {candidates : List VolumeId} {source : VolumeId}
    (h : v.bestVolume candidates = .ok source) : source ∈ candidates := by
  unfold bestVolume at h
  split at h
  · rename_i id cost hcheapest
    obtain rfl := Except.ok.inj h
    obtain ⟨id', hid', hcost⟩ := List.mem_filterMap.1 (cheapest_mem hcheapest)
    obtain ⟨cost', -, heq⟩ := Option.map_eq_some_iff.1 hcost
    obtain ⟨rfl, -⟩ := Prod.mk.inj heq
    exact hid'
  · cases h

/-- A blob can be read here if one of its volumes is mounted. -/
theorem bestVolume_isOk_iff {candidates : List VolumeId} :
    (∃ source, v.bestVolume candidates = .ok source) ↔
      ∃ id ∈ candidates, v.isMounted id = true := by
  have hcosts : v.mountedCosts candidates ≠ [] ↔ ∃ id ∈ candidates, v.isMounted id = true := by
    simp only [mountedCosts, ne_eq, List.filterMap_eq_nil_iff, Option.map_eq_none_iff, costOf?,
      Classical.not_forall, exists_prop, isMounted, OrderedMap.contains, Option.isSome_iff_ne_none]
  rw [← hcosts, ne_eq, ← cheapest_eq_none, bestVolume]
  cases cheapest (v.mountedCosts candidates) with
  | none => simp
  | some p => simp

theorem mem_wantedCopies {b : BlobRecord} {j : CopyJob} :
    j ∈ v.wantedCopies b ↔
      v.bestVolume b.volumes = .ok j.source ∧ j.ref = b.ref ∧ j.target ∈ b.pending := by
  obtain ⟨ref, source, target⟩ := j
  unfold wantedCopies
  cases v.bestVolume b.volumes with
  | error fault => simp
  | ok best =>
    simp only [List.mem_map, CopyJob.mk.injEq, Except.ok.injEq]
    constructor
    · rintro ⟨target', hmem, rfl, rfl, rfl⟩
      exact ⟨rfl, rfl, hmem⟩
    · rintro ⟨rfl, rfl, hmem⟩
      exact ⟨target, hmem, rfl, rfl, rfl⟩

/-! ### Taking jobs -/

/-- The job can be taken. -/
def Takes (v : Vault) (inFlight : InFlight) (j : CopyJob) : Prop :=
  v.isMounted j.target = true ∧ j.pair ∉ inFlight

/-- What is put in flight are the jobs that are taken. -/
theorem takeJobs_perm (v : Vault) (limit : Nat) (js : List CopyJob) (inFlight : InFlight) :
    (v.takeJobs limit js inFlight).2.Perm
      ((v.takeJobs limit js inFlight).1.map CopyJob.pair ++ inFlight) := by
  fun_induction takeJobs v limit js inFlight with
  | case1 => exact .refl _
  | case2 => exact .refl _
  | case3 limit j js inFlight hskip ih => exact ih
  | case4 limit j js inFlight hskip jobs inFlight' hrec ih =>
    rw [hrec] at ih
    exact ih.trans List.perm_middle

/-- No job is taken twice, or while it is in flight. -/
theorem takeJobs_nodup (v : Vault) (limit : Nat) (js : List CopyJob) {inFlight : InFlight}
    (h : inFlight.Nodup) : (v.takeJobs limit js inFlight).2.Nodup := by
  fun_induction takeJobs v limit js inFlight with
  | case1 => exact h
  | case2 => exact h
  | case3 limit j js inFlight hskip ih => exact ih h
  | case4 limit j js inFlight hskip jobs inFlight' hrec ih =>
    rw [hrec] at ih
    refine ih (List.nodup_cons.2 ⟨?_, h⟩)
    simp only [Bool.or_eq_true, not_or, List.contains_iff_mem] at hskip
    exact hskip.2

/-- Jobs that are taken keep their order. -/
theorem takeJobs_sublist (v : Vault) (limit : Nat) (js : List CopyJob) (inFlight : InFlight) :
    (v.takeJobs limit js inFlight).1.Sublist js := by
  fun_induction takeJobs v limit js inFlight with
  | case1 => exact .refl _
  | case2 => exact List.nil_sublist _
  | case3 limit j js inFlight hskip ih => exact ih.cons j
  | case4 limit j js inFlight hskip jobs inFlight' hrec ih =>
    rw [hrec] at ih
    exact ih.cons_cons j

theorem mem_of_mem_takeJobs {limit : Nat} {js : List CopyJob} {inFlight : InFlight} {j : CopyJob}
    (h : j ∈ (v.takeJobs limit js inFlight).1) : j ∈ js :=
  (takeJobs_sublist v limit js inFlight).subset h

theorem takeJobs_ne_nil_iff {limit : Nat} (hlimit : 0 < limit) {js : List CopyJob}
    {inFlight : InFlight} :
    (v.takeJobs limit js inFlight).1 ≠ [] ↔ ∃ j ∈ js, v.Takes inFlight j := by
  fun_induction takeJobs v limit js inFlight with
  | case1 => simp
  | case2 => exact absurd hlimit (by decide)
  | case3 limit j js inFlight hskip ih =>
    have hj : ¬ v.Takes inFlight j := by
      rintro ⟨hmounted, hnew⟩
      simp [hmounted, hnew] at hskip
    simp only [ih hlimit, List.mem_cons, exists_eq_or_imp, or_iff_right hj]
  | case4 limit j js inFlight hskip jobs inFlight' hrec ih =>
    have hj : v.Takes inFlight j := by
      simpa [Takes] using hskip
    exact iff_of_true (List.cons_ne_nil _ _) ⟨j, List.mem_cons_self, hj⟩

/-! ### Finding jobs -/

/-- The node could make a copy of a blob that is not in flight. -/
structure CanCopy (v : Vault) (inFlight : InFlight) (b : BlobRecord) : Prop where
  target : ∃ target ∈ b.pending, v.isMounted target = true ∧ (b.ref, target) ∉ inFlight
  source : ∃ source ∈ b.volumes, v.isMounted source = true

theorem canCopy_iff {inFlight : InFlight} {b : BlobRecord} :
    v.CanCopy inFlight b ↔ ∃ j ∈ v.wantedCopies b, v.Takes inFlight j := by
  constructor
  · rintro ⟨⟨target, hmem, hmounted, hnew⟩, hsource⟩
    obtain ⟨source, hbest⟩ := bestVolume_isOk_iff.2 hsource
    exact ⟨⟨b.ref, source, target⟩, mem_wantedCopies.2 ⟨hbest, rfl, hmem⟩, hmounted, hnew⟩
  · rintro ⟨⟨ref, source, target⟩, hj, hmounted, hnew⟩
    obtain ⟨hbest, rfl, hmem⟩ := mem_wantedCopies.1 hj
    exact ⟨⟨target, hmem, hmounted, hnew⟩, bestVolume_isOk_iff.1 ⟨source, hbest⟩⟩

/-- The records that some volume waits for. -/
def waiting (v : Vault) : List BlobRecord :=
  v.catalog.records.values.filter fun b => !b.pending.isEmpty

/-- **A search finds a job exactly if one of the first records that wait can be copied.**  If there
are no more such records than that, it finds a job whenever any record can be copied. -/
theorem discover_ne_nil_iff {batchSize : Nat} (hbatch : 0 < batchSize) (inFlight : InFlight) :
    ((v.discover batchSize inFlight).1 ≠ [] ↔
      ∃ b ∈ v.waiting.take batchSize, v.CanCopy inFlight b) ∧
    (v.waiting.length ≤ batchSize → ∀ r b, v.catalog.records.get? r = some b →
      v.CanCopy inFlight b → (v.discover batchSize inFlight).1 ≠ []) := by
  have hfound : (v.discover batchSize inFlight).1 ≠ [] ↔
      ∃ b ∈ v.waiting.take batchSize, v.CanCopy inFlight b := by
    rw [discover, takeJobs_ne_nil_iff hbatch]
    simp only [canCopy_iff, List.mem_flatMap]
    constructor
    · rintro ⟨j, ⟨b, hb, hj⟩, htakes⟩
      exact ⟨b, hb, j, hj, htakes⟩
    · rintro ⟨b, hb, j, hj, htakes⟩
      exact ⟨j, ⟨b, hb, hj⟩, htakes⟩
  refine ⟨hfound, fun hfew r b hb hcopy => hfound.2 ⟨b, ?_, hcopy⟩⟩
  rw [List.take_of_length_le hfew]
  refine List.mem_filter.2 ⟨OrderedMap.mem_values.2 ⟨r, hb⟩, ?_⟩
  obtain ⟨target, hmem, -⟩ := hcopy.target
  simpa using List.ne_nil_of_mem hmem

namespace Backlog

def lower : Ref := .repeated 1

def higher : Ref := .repeated 2

/-- Two blobs are stored.  The lower one is wanted on a volume of another node, and the higher one
on a volume of this node. -/
def recorded : Except CatalogFault Catalog := do
  let c ← (((Catalog.empty.addVolume ⟨1, ⟨1⟩, "first", 0, 0, 0⟩).addVolume
    ⟨2, ⟨2⟩, "second", 0, 0, 0⟩).addVolume ⟨9, ⟨9⟩, "elsewhere", 0, 0, 0⟩).create (.written lower) 1
  let c ← c.create (.written higher) 1
  let c ← c.commit [lower] [1, 9]
  c.commit [higher] [1, 2]

def vault : Vault :=
  { Vault.empty 1 with
    catalog := recorded.toOption.getD .empty
    mounts := (OrderedMap.empty.insert 1 10).insert 2 20 }

/-- The higher blob after the commit. -/
def wanted : BlobRecord := { BlobRecord.written higher with pending := [2], referenced := true }

theorem canCopy_wanted : vault.CanCopy [] wanted where
  target := ⟨2, by decide, by decide, List.not_mem_nil⟩
  source := ⟨1, by decide, by decide⟩

end Backlog

theorem discover_ne_nil_iff_sample :
    0 < 2 ∧ Backlog.vault.waiting.length ≤ 2 ∧
      Backlog.vault.catalog.records.get? Backlog.higher = some Backlog.wanted ∧
      Backlog.vault.CanCopy [] Backlog.wanted ∧ (Backlog.vault.discover 2 []).1 ≠ [] := by
  have hfew : Backlog.vault.waiting.length ≤ 2 := by decide
  have hrecord : Backlog.vault.catalog.records.get? Backlog.higher = some Backlog.wanted := by
    decide
  exact ⟨by decide, hfew, hrecord, Backlog.canCopy_wanted,
    (discover_ne_nil_iff (by decide) []).2 hfew _ _ hrecord Backlog.canCopy_wanted⟩

/-- A search that takes one job sees only the lower blob, for which nothing can be done here. -/
theorem discover_hidden_sample :
    Backlog.recorded = .ok Backlog.vault.catalog ∧
      Backlog.vault.catalog.records.get? Backlog.higher = some Backlog.wanted ∧
      Backlog.vault.CanCopy [] Backlog.wanted ∧ (Backlog.vault.discover 1 []).1 = [] :=
  ⟨rfl, by decide, Backlog.canCopy_wanted, by decide⟩

end BlobVault.Vault
