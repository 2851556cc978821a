import BlobVault.Proofs.Replication.Draining

/-!
# What one search returns

The jobs of one search are copies that are due and that nobody is making.  Each reads from the best
volume of its blob, and each is put in flight, however a record repeats its targets and wherever the
limit cuts the search off.

* `Vault.IsBest` : the first of the cheapest volumes that are mounted;
* `Vault.isBest_of_bestVolume` : **a blob is read from the best of its volumes**;
* `Vault.Wanted` : what a single job is about;
* `Vault.takeJobs_fresh`, `Vault.takeJobs_exhausts` : the jobs that are taken are new, and are all
  that there are if the limit is not reached;
* `Vault.IsBatch` : what the jobs of a search are together, and what is in flight afterwards;
* `Vault.isBatch_discover` : **a search returns such a batch.**
-/

namespace BlobVault.Vault

variable {v : Vault}

/-! ### The best volume -/

/-- What comes before the cheapest one costs more, and nothing after it costs less. -/
theorem cheapest_eq_some {ps : List (VolumeId × Nat)} {p : VolumeId × Nat}
    (h : cheapest ps = some p) : ∃ before after, ps = before ++ p :: after ∧
      (∀ q ∈ before, p.2 < q.2) ∧ ∀ q ∈ after, p.2 ≤ q.2 := by
  induction ps generalizing p with
  | nil => cases h
  | cons q ps ih =>
    rw [cheapest] at h
    cases hrest : cheapest ps with
    | none =>
      rw [hrest] at h
      obtain rfl := Option.some.inj h
      exact ⟨[], ps, rfl, by simp, by simp [cheapest_eq_none.1 hrest]⟩
    | some q' =>
      obtain ⟨before, after, rfl, hbefore, hafter⟩ := ih hrest
      rw [hrest] at h
      dsimp only at h
      split at h
      · -- the new one is at least as cheap as the cheapest of the others
        rename_i hle
        obtain rfl := Option.some.inj h
        refine ⟨[], _, rfl, by simp, fun x hx => ?_⟩
        rcases List.mem_append.1 hx with hx | hx
        · exact Nat.le_of_lt (Nat.lt_of_le_of_lt hle (hbefore x hx))
        · rcases List.mem_cons.1 hx with rfl | hx
          · exact hle
          · exact Nat.le_trans hle (hafter x hx)
      · rename_i hlt
        obtain rfl := Option.some.inj h
        refine ⟨q :: before, after, rfl, fun x hx => ?_, hafter⟩
        rcases List.mem_cons.1 hx with rfl | hx
        · exact Nat.lt_of_not_le hlt
        · exact hbefore x hx

/-- The volume is mounted, it is one of the cheapest candidates that are, and it is the first of
those. -/
structure IsBest (v : Vault) (candidates : List VolumeId) (id : VolumeId) : Prop where
  mem : id ∈ candidates
  mounted : v.isMounted id = true
  first : ∃ cost before after, v.costOf? id = some cost ∧ candidates = before ++ id :: after ∧
    (∀ id' ∈ before, ∀ cost', v.costOf? id' = some cost' → cost < cost') ∧
    ∀ id' ∈ after, ∀ cost', v.costOf? id' = some cost' → cost ≤ cost'

theorem isMounted_of_costOf? {id : VolumeId} {cost : Nat} (h : v.costOf? id = some cost) :
    v.isMounted id = true := by
  obtain ⟨b, hb, -⟩ := Option.map_eq_some_iff.1 h
  exact OrderedMap.contains_of_get? hb

/-- What a mounted candidate costs is on the list of costs. -/
theorem mem_mountedCosts {candidates : List VolumeId} {id : VolumeId} {cost : Nat}
    (hmem : id ∈ candidates) (hcost : v.costOf? id = some cost) :
    (id, cost) ∈ v.mountedCosts candidates :=
  List.mem_filterMap.2 ⟨id, hmem, by rw [hcost]; rfl⟩

/-- **A blob is read from the best of its volumes.** -/
theorem isBest_of_bestVolume {candidates : List VolumeId} {source : VolumeId}
    (h : v.bestVolume candidates = .ok source) : v.IsBest candidates source := by
  unfold bestVolume at h
  split at h
  · rename_i id cost hcheapest
    obtain rfl := Except.ok.inj h
    obtain ⟨costlier, others, hcosts, hcostlier, hothers⟩ := cheapest_eq_some hcheapest
    -- the lists of costs around the cheapest one come from the candidates around it
    rw [mountedCosts, List.filterMap_eq_append_iff] at hcosts
    obtain ⟨before, rest, rfl, hbefore, hrest⟩ := hcosts
    obtain ⟨skipped, id', after, rfl, hskipped, hid', hafter⟩ := List.filterMap_eq_cons_iff.1 hrest
    obtain ⟨cost', hcost, heq⟩ := Option.map_eq_some_iff.1 hid'
    obtain ⟨rfl, rfl⟩ := Prod.mk.inj heq
    refine ⟨by simp, isMounted_of_costOf? hcost, cost', before ++ skipped, after, hcost, by simp,
      fun x hx c hc => ?_, fun x hx c hc => ?_⟩
    · rcases List.mem_append.1 hx with hx | hx
      · refine hcostlier (x, c) ?_
        rw [← hbefore]
        exact mem_mountedCosts hx hc
      · have hnone := hskipped x hx
        rw [hc] at hnone
        cases hnone
    · refine hothers (x, c) ?_
      rw [← hafter]
      exact mem_mountedCosts hx hc
  · cases h

/-! ### Jobs that are taken -/

theorem length_takeJobs (v : Vault) (limit : Nat) (js : List CopyJob) (inFlight : InFlight) :
    (v.takeJobs limit js inFlight).1.length ≤ limit := by
  fun_induction takeJobs v limit js inFlight with
  | case1 => exact Nat.zero_le _
  | case2 => exact Nat.le_refl _
  | case3 limit j js inFlight hskip ih => exact ih
  | case4 limit j js inFlight hskip jobs inFlight' hrec ih =>
    rw [hrec] at ih
    exact Nat.succ_le_succ ih

theorem mounted_of_mem_takeJobs {limit : Nat} {js : List CopyJob} {inFlight : InFlight}
    {j : CopyJob} (h : j ∈ (v.takeJobs limit js inFlight).1) : v.isMounted j.target = true := by
  fun_induction takeJobs v limit js inFlight with
  | case1 => cases h
  | case2 => cases h
  | case3 limit j' js inFlight hskip ih => exact ih h
  | case4 limit j' js inFlight hskip jobs inFlight' hrec ih =>
    rw [hrec] at ih
    rcases List.mem_cons.1 h with rfl | hmem
    · simp only [Bool.or_eq_true, not_or, Bool.not_eq_true, Bool.not_eq_false'] at hskip
      exact hskip.1
    · exact ih hmem

/-- No two jobs that are taken are about the same copy, and none is about one in flight, whether or
not what is in flight has repetitions. -/
theorem takeJobs_fresh (v : Vault) (limit : Nat) (js : List CopyJob) (inFlight : InFlight) :
    ((v.takeJobs limit js inFlight).1.map CopyJob.pair).Nodup ∧
      ∀ p ∈ (v.takeJobs limit js inFlight).1.map CopyJob.pair, p ∉ inFlight := by
  fun_induction takeJobs v limit js inFlight with
  | case1 => simp
  | case2 => simp
  | case3 limit j js inFlight hskip ih => exact ih
  | case4 limit j js inFlight hskip jobs inFlight' hrec ih =>
    rw [hrec] at ih
    obtain ⟨hnodup, hnew⟩ := ih
    simp only [Bool.or_eq_true, not_or, List.contains_iff_mem] at hskip
    -- the first job is in flight while the others are taken
    refine ⟨List.nodup_cons.2 ⟨fun hmem => hnew _ hmem List.mem_cons_self, hnodup⟩, ?_⟩
    intro p hp
    rcases List.mem_cons.1 hp with rfl | hp
    · exact hskip.2
    · exact fun hold => hnew p hp (List.mem_cons_of_mem _ hold)

/-- Unless the limit is reached, every job that could be taken is in flight afterwards. -/
theorem takeJobs_exhausts {limit : Nat} {js : List CopyJob} {inFlight : InFlight}
    (h : (v.takeJobs limit js inFlight).1.length < limit) {j : CopyJob} (hj : j ∈ js)
    (hmounted : v.isMounted j.target = true) : j.pair ∈ (v.takeJobs limit js inFlight).2 := by
  -- what was in flight stays there
  have hstays : ∀ limit js inFlight, ∀ p ∈ inFlight, p ∈ (v.takeJobs limit js inFlight).2 :=
    fun limit js inFlight _ hp =>
      (takeJobs_perm v limit js inFlight).mem_iff.2 (List.mem_append_right _ hp)
  fun_induction takeJobs v limit js inFlight with
  | case1 => cases hj
  | case2 => exact absurd h (Nat.not_lt_zero _)
  | case3 limit j' js inFlight hskip ih =>
    rcases List.mem_cons.1 hj with rfl | hj
    · simp only [hmounted, Bool.not_true, Bool.false_or, List.contains_iff_mem] at hskip
      exact hstays _ _ _ _ hskip
    · exact ih h hj
  | case4 limit j' js inFlight hskip jobs inFlight' hrec ih =>
    rw [hrec] at ih
    rcases List.mem_cons.1 hj with rfl | hj
    · have htaken := hstays limit js (j.pair :: inFlight) j.pair List.mem_cons_self
      rw [hrec] at htaken
      exact htaken
    · exact ih (Nat.lt_of_succ_lt_succ h) hj

/-! ### Batches -/

/-- A volume that is mounted waits for the blob and does not hold it, and the blob is read from the
best of the volumes that hold it. -/
structure Wanted (v : Vault) (j : CopyJob) (b : BlobRecord) : Prop where
  recorded : v.catalog.records.get? j.ref = some b
  mounted : v.isMounted j.target = true
  waits : j.target ∈ b.pending
  lacks : j.target ∉ b.volumes
  source : v.IsBest b.volumes j.source
  moves : j.source ≠ j.target

/-- What the jobs of a search are together, and what is in flight afterwards. -/
structure IsBatch (v : Vault) (batchSize : Nat) (inFlight : InFlight) (jobs : List CopyJob)
    (inFlight' : InFlight) : Prop where
  wanted : ∀ j ∈ jobs, ∃ b, v.Wanted j b
  distinct : (jobs.map CopyJob.pair).Nodup
  fresh : ∀ j ∈ jobs, j.pair ∉ inFlight
  bounded : jobs.length ≤ batchSize
  ordered : jobs.Pairwise fun j j' => compare j.ref j'.ref ≠ .gt
  accounted : inFlight'.Perm (jobs.map CopyJob.pair ++ inFlight)
  /-- A search that is not cut off leaves no copy out that its records ask for. -/
  complete : jobs.length < batchSize → ∀ b ∈ v.waiting.take batchSize, ∀ target ∈ b.pending,
    v.isMounted target = true → (∃ source ∈ b.volumes, v.isMounted source = true) →
    (b.ref, target) ∈ inFlight'

/-- The records that wait are in the order of their references. -/
theorem pairwise_waiting (htidy : v.catalog.Tidy) :
    v.waiting.Pairwise fun b b' => compare b.ref b'.ref = .lt := by
  have hkeys := v.catalog.records.pairwise_keys
  rw [OrderedMap.keys, List.pairwise_map] at hkeys
  refine List.Pairwise.filter _ ?_
  rw [OrderedMap.values, List.pairwise_map]
  refine hkeys.imp_of_mem fun {p q} hp hq hlt => ?_
  rw [(htidy p.1 p.2 (OrderedMap.mem_entries.1 hp)).1,
    (htidy q.1 q.2 (OrderedMap.mem_entries.1 hq)).1]
  exact hlt

/-- The copies that are due come in the order of their references. -/
theorem ordered_wantedCopies {bs : List BlobRecord}
    (h : bs.Pairwise fun b b' => compare b.ref b'.ref = .lt) :
    (bs.flatMap v.wantedCopies).Pairwise fun j j' => compare j.ref j'.ref ≠ .gt := by
  refine List.pairwise_flatMap.2 ⟨fun b _ => ?_, h.imp fun {b b'} hlt j hj j' hj' => ?_⟩
  · refine List.pairwise_of_forall_mem_list fun j hj j' hj' => ?_
    rw [(mem_wantedCopies.1 hj).2.1, (mem_wantedCopies.1 hj').2.1]
    simp
  · rw [(mem_wantedCopies.1 hj).2.1, (mem_wantedCopies.1 hj').2.1, hlt]
    decide

theorem wanted_of_discover (htidy : v.catalog.Tidy) {n : Nat} {inFlight : InFlight} {j : CopyJob}
    (hj : j ∈ (v.discover n inFlight).1) : ∃ b, v.Wanted j b := by
  obtain ⟨b, hb, hwanted⟩ := List.mem_flatMap.1 (mem_of_mem_takeJobs hj)
  obtain ⟨r, hr⟩ := OrderedMap.mem_values.1 (List.mem_filter.1 (List.mem_of_mem_take hb)).1
  obtain ⟨href, hplaced⟩ := htidy r b hr
  obtain ⟨hbest, hjref, htarget⟩ := mem_wantedCopies.1 hwanted
  have hlacks : j.target ∉ b.volumes := fun hmem => hplaced.apart j.target hmem htarget
  have hsource := isBest_of_bestVolume hbest
  refine ⟨b, ?_, mounted_of_mem_takeJobs hj, htarget, hlacks, hsource, ?_⟩
  · rw [hjref, href, hr]
  · intro hsame
    rw [← hsame] at hlacks
    exact hlacks hsource.mem

/-- **A search returns a batch.**  The catalog may be in any state that operations lead to, the
volumes may be mounted anywhere and cost anything, and anything may be in flight. -/
theorem isBatch_discover (h : v.Reached) (batchSize : Nat) (inFlight : InFlight) :
    v.IsBatch batchSize inFlight (v.discover batchSize inFlight).1
      (v.discover batchSize inFlight).2 where
  wanted j hj := wanted_of_discover h.tidy hj
  distinct := (takeJobs_fresh v batchSize _ inFlight).1
  fresh j hj := (takeJobs_fresh v batchSize _ inFlight).2 j.pair (List.mem_map_of_mem hj)
  bounded := length_takeJobs v batchSize _ inFlight
  ordered := by
    have hrecords := (pairwise_waiting h.tidy).take (i := batchSize)
    exact (ordered_wantedCopies hrecords).sublist (takeJobs_sublist v batchSize _ inFlight)
  accounted := takeJobs_perm v batchSize _ inFlight
  complete hroom b hb target htarget hmounted hsource := by
    obtain ⟨source, hbest⟩ := bestVolume_isOk_iff.2 hsource
    have hj : ⟨b.ref, source, target⟩ ∈
        (v.catalog.pendingRecords batchSize).flatMap v.wantedCopies :=
      List.mem_flatMap.2 ⟨b, hb, mem_wantedCopies.2 ⟨hbest, rfl, htarget⟩⟩
    exact takeJobs_exhausts hroom hj hmounted

/-- A volume that is wanted twice gets one job, and the search is cut off after the first of two. -/
theorem isBatch_discover_sample :
    Queue.vault.Reached ∧ Queue.blob.pending = [2, 3, 2] ∧
      (Queue.vault.discover 5 []).1 = [⟨Queue.ref, 1, 2⟩, ⟨Queue.ref, 1, 3⟩] ∧
      Queue.vault.IsBatch 5 [] (Queue.vault.discover 5 []).1 (Queue.vault.discover 5 []).2 ∧
      (Queue.vault.discover 1 []).2 = [(Queue.ref, 2)] ∧
      Queue.vault.IsBatch 1 [] (Queue.vault.discover 1 []).1 (Queue.vault.discover 1 []).2 :=
  ⟨Queue.reached, rfl, by decide, isBatch_discover Queue.reached 5 [], by decide,
    isBatch_discover Queue.reached 1 []⟩

end BlobVault.Vault
