import BlobVault.Proofs.Replication.Interleaving
import BlobVault.Proofs.Vault.Copying
import Mathlib.Data.List.Nodup
import Mathlib.Data.List.Perm.Subperm

/-!
# Cancellation of replication

After a cancellation no copy is begun.  Those that are being made go on to their end, whatever the
feeder and the workers do in between, and replication has not ended before they have.  Nothing else
happens to the vault.

* `Catalog.confirmAll` : copies that are recorded one after another;
* `Scene.Tracked` : what the log says about the copies that were begun;
* `Scene.WindsUp` : all that has come of a cancelled replication;
* `Scene.WindsUp.happens` : **whatever happens, no copy is begun and none is abandoned**;
* `Scene.windsUp_of_cancelled` : **after every history with a cancellation, at most one further copy
  for each worker is recorded, and all other jobs have come to nothing.**
-/

namespace BlobVault

/-! ### Copies that are recorded -/

/-- Whether a volume holds a blob, and whether it waits for it. -/
def BlobRecord.standing (b : BlobRecord) (id : VolumeId) : Bool × Bool :=
  (b.isOn id, b.pending.contains id)

theorem BlobRecord.standing_arrived_listed (b : BlobRecord) {id id' : VolumeId} (h : id' ≠ id) :
    ((b.arrived id).listed id).standing id' = b.standing id' := by
  have hpending : ((b.arrived id).listed id).pending.contains id' = b.pending.contains id' := by
    rw [pending_arrived_listed, Bool.eq_iff_iff]
    simp [h]
  simp only [standing, isOn_arrived_listed, hpending, beq_eq_false_iff_ne.2 h, Bool.or_false]

namespace Catalog

variable {c c' : Catalog} {jobs : List CopyJob} {r : Ref}

/-- Records copies one after another, the last of the list first. -/
def confirmAll (jobs : List CopyJob) (c : Catalog) : Except CatalogFault Catalog :=
  jobs.foldrM (fun job c => c.confirm job.ref job.target) c

/-- What no copy of a blob changes about a record stays as it is. -/
theorem get?_confirmAll {α : Type} (f : BlobRecord → α)
    (hkeep : ∀ job ∈ jobs, job.ref = r → ∀ b : BlobRecord,
      f ((b.arrived job.target).listed job.target) = f b)
    (h : confirmAll jobs c = .ok c') :
    (c'.records.get? r).map f = (c.records.get? r).map f := by
  induction jobs generalizing c' with
  | nil =>
    obtain rfl := Except.ok.inj h
    rfl
  | cons job jobs ih =>
    rw [confirmAll, List.foldrM_cons] at h
    cases hjobs : confirmAll jobs c with
    | error fault =>
      rw [confirmAll] at hjobs
      rw [hjobs] at h
      cases h
    | ok c₁ =>
      rw [← ih (fun j hj => hkeep j (List.mem_cons_of_mem _ hj)) hjobs]
      rw [confirmAll] at hjobs
      rw [hjobs] at h
      obtain ⟨b, volume, hrecord, -, rfl⟩ := confirm_eq_ok h
      by_cases hr : r = job.ref
      · rw [hr, OrderedMap.get?_insert_self, hrecord, Option.map_some, Option.map_some,
          hkeep job List.mem_cons_self hr.symm]
      · rw [OrderedMap.get?_insert_of_ne _ hr]

end Catalog

namespace Replication

/-! ### The log -/

/-- The worker that something is about. -/
def Happening.worker : Happening → Nat
  | began i _ | confirmed i _ | ended i _ _ => i

/-- The job that something is about. -/
def Happening.job : Happening → CopyJob
  | began _ job | confirmed _ job | ended _ job _ => job

/-- The copies that were recorded, each with its worker, latest first. -/
def recordings (log : List Happening) : List (Nat × CopyJob) :=
  log.filterMap fun
    | .confirmed i job => some (i, job)
    | _ => none

theorem mem_recordings {log : List Happening} {i : Nat} {job : CopyJob} :
    (i, job) ∈ recordings log ↔ .confirmed i job ∈ log := by
  rw [recordings, List.mem_filterMap]
  constructor
  · rintro ⟨happening, hmem, hsome⟩
    cases happening with
    | confirmed i' job' =>
      obtain ⟨rfl, rfl⟩ := Prod.mk.inj (Option.some.inj hsome)
      exact hmem
    | began i' job' => cases hsome
    | ended i' job' answer => cases hsome
  · exact fun hmem => ⟨_, hmem, rfl⟩

theorem worker_of_making? {r : Replication} {i : Nat} {job : CopyJob} {copy : Copy}
    (h : r.making? i = some (job, copy)) :
    ∃ approach, r.workers[i]? = some (.copying job copy approach) := by
  obtain ⟨w, hw, hmaking⟩ := Option.bind_eq_some_iff.1 h
  cases w with
  | copying job' copy' approach =>
    obtain ⟨rfl, rfl⟩ := Prod.mk.inj (Option.some.inj hmaking)
    exact ⟨approach, hw⟩
  | _ => cases hmaking

/-- What the log says about the copies that are being made, and about those that were. -/
structure Logged (making : Nat → Option (CopyJob × Copy)) (stage : Nat → Stage)
    (log : List Happening) : Prop where
  idle : ∀ i, making i = none → stage i = .reading
  /-- What was begun has ended since, or is being made. -/
  begun : ∀ i job later earlier, log = later ++ .began i job :: earlier →
    (∃ answer, .ended i job answer ∈ later) ∨ ∃ copy, making i = some (job, copy)
  /-- A copy that has only to be ended is known to the catalog. -/
  recorded : ∀ i job copy, making i = some (job, copy) → stage i = .done (.ok ()) →
    .confirmed i job ∈ log
  /-- A copy that ended well is known to the catalog. -/
  ended : ∀ i job, .ended i job (.ok ()) ∈ log → .confirmed i job ∈ log

namespace Logged

variable {making : Nat → Option (CopyJob × Copy)} {stage : Nat → Stage} {log : List Happening}
  {i : Nat} {job : CopyJob} {copy : Copy}

theorem start : Logged (fun _ => none) (fun _ => .reading) [] where
  idle _ _ := rfl
  begun _ _ later earlier h := by simp at h
  recorded _ _ _ h _ := by cases h
  ended _ _ h := absurd h List.not_mem_nil

/-- What was begun before the last thing happened was begun in the rest of the log. -/
theorem begun_cons {h : Happening} {i : Nat} {job : CopyJob} {later earlier : List Happening}
    (hne : h ≠ .began i job) (hlog : h :: log = later ++ .began i job :: earlier) :
    ∃ later', later = h :: later' ∧ log = later' ++ .began i job :: earlier := by
  rcases List.cons_eq_append_iff.1 hlog with ⟨-, heq⟩ | hrest
  · exact absurd (List.cons.inj heq).1.symm hne
  · exact hrest

theorem begin (h : Logged making stage log) (hfree : making i = none) :
    Logged (Function.update making i (some (job, copy))) stage (.began i job :: log) where
  idle j hj := by
    by_cases hji : j = i
    · rw [hji, h.idle i hfree]
    · rw [Function.update_of_ne hji] at hj
      exact h.idle j hj
  begun j job' later earlier hlog := by
    by_cases hnew : Happening.began i job = .began j job'
    · obtain ⟨rfl, rfl⟩ := Happening.began.inj hnew
      exact .inr ⟨copy, Function.update_self ..⟩
    · obtain ⟨later', rfl, hold⟩ := begun_cons hnew hlog
      rcases h.begun j job' later' earlier hold with ⟨answer, hended⟩ | ⟨copy', hmaking⟩
      · exact .inl ⟨answer, List.mem_cons_of_mem _ hended⟩
      · have hji : j ≠ i := fun hji => by rw [hji, hfree] at hmaking; cases hmaking
        exact .inr ⟨copy', by rw [Function.update_of_ne hji, hmaking]⟩
  recorded j job' copy' hmaking hdone := by
    by_cases hji : j = i
    · rw [hji, h.idle i hfree] at hdone
      cases hdone
    · rw [Function.update_of_ne hji] at hmaking
      exact List.mem_cons_of_mem _ (h.recorded j job' copy' hmaking hdone)
  ended j job' hended := by
    rcases List.mem_cons.1 hended with heq | hold
    · cases heq
    · exact List.mem_cons_of_mem _ (h.ended j job' hold)

theorem refuse (h : Logged making stage log) (fault : Fault) :
    Logged making stage (.ended i job (.error fault) :: .began i job :: log) where
  idle := h.idle
  begun j job' later earlier hlog := by
    obtain ⟨later', rfl, hlog'⟩ := begun_cons (by simp) hlog
    by_cases hnew : Happening.began i job = .began j job'
    · obtain ⟨rfl, rfl⟩ := Happening.began.inj hnew
      exact .inl ⟨_, List.mem_cons_self⟩
    · obtain ⟨later'', rfl, hold⟩ := begun_cons hnew hlog'
      exact (h.begun j job' later'' earlier hold).imp_left fun ⟨answer, hended⟩ =>
        ⟨answer, List.mem_cons_of_mem _ (List.mem_cons_of_mem _ hended)⟩
  recorded j job' copy' hmaking hdone :=
    List.mem_cons_of_mem _ (List.mem_cons_of_mem _ (h.recorded j job' copy' hmaking hdone))
  ended j job' hended := by
    simp only [List.mem_cons, Happening.ended.injEq, reduceCtorEq, and_false, false_or] at hended
    exact List.mem_cons_of_mem _ (List.mem_cons_of_mem _ (h.ended j job' hended))

theorem goOn (h : Logged making stage log) (hmaking : making i = some (job, copy))
    {stage' : Stage} (hunrecorded : stage' ≠ .done (.ok ())) :
    Logged making (Function.update stage i stage') log where
  idle j hj := by
    have hji : j ≠ i := fun hji => by rw [hji, hmaking] at hj; cases hj
    rw [Function.update_of_ne hji, h.idle j hj]
  begun := h.begun
  recorded j job' copy' hmaking' hdone := by
    by_cases hji : j = i
    · rw [hji, Function.update_self] at hdone
      exact absurd hdone hunrecorded
    · rw [Function.update_of_ne hji] at hdone
      exact h.recorded j job' copy' hmaking' hdone
  ended := h.ended

theorem confirm (h : Logged making stage log) (hmaking : making i = some (job, copy)) :
    Logged making (Function.update stage i (.done (.ok ()))) (.confirmed i job :: log) where
  idle j hj := by
    have hji : j ≠ i := fun hji => by rw [hji, hmaking] at hj; cases hj
    rw [Function.update_of_ne hji, h.idle j hj]
  begun j job' later earlier hlog := by
    obtain ⟨later', rfl, hold⟩ := begun_cons (by simp) hlog
    exact (h.begun j job' later' earlier hold).imp_left fun ⟨answer, hended⟩ =>
      ⟨answer, List.mem_cons_of_mem _ hended⟩
  recorded j job' copy' hmaking' hdone := by
    by_cases hji : j = i
    · subst hji
      obtain ⟨rfl, -⟩ := Prod.mk.inj (Option.some.inj (hmaking.symm.trans hmaking'))
      exact List.mem_cons_self
    · rw [Function.update_of_ne hji] at hdone
      exact List.mem_cons_of_mem _ (h.recorded j job' copy' hmaking' hdone)
  ended j job' hended := by
    rcases List.mem_cons.1 hended with heq | hold
    · cases heq
    · exact List.mem_cons_of_mem _ (h.ended j job' hold)

theorem finish (h : Logged making stage log) (hmaking : making i = some (job, copy))
    {answer : Except Fault Unit} (hdone : stage i = .done answer) :
    Logged (Function.update making i none) (Function.update stage i .reading)
      (.ended i job answer :: log) where
  idle j hj := by
    by_cases hji : j = i
    · rw [hji, Function.update_self]
    · rw [Function.update_of_ne hji] at hj ⊢
      exact h.idle j hj
  begun j job' later earlier hlog := by
    obtain ⟨later', rfl, hold⟩ := begun_cons (by simp) hlog
    rcases h.begun j job' later' earlier hold with ⟨answer', hended⟩ | ⟨copy', hmaking'⟩
    · exact .inl ⟨answer', List.mem_cons_of_mem _ hended⟩
    · by_cases hji : j = i
      · -- this is the copy that ends now
        subst hji
        obtain ⟨rfl, -⟩ := Prod.mk.inj (Option.some.inj (hmaking.symm.trans hmaking'))
        exact .inl ⟨answer, List.mem_cons_self⟩
      · exact .inr ⟨copy', by rw [Function.update_of_ne hji, hmaking']⟩
  recorded j job' copy' hmaking' hdone' := by
    by_cases hji : j = i
    · rw [hji, Function.update_self] at hmaking'
      cases hmaking'
    · rw [Function.update_of_ne hji] at hmaking' hdone'
      exact List.mem_cons_of_mem _ (h.recorded j job' copy' hmaking' hdone')
  ended j job' hended := by
    refine List.mem_cons_of_mem _ ?_
    rcases List.mem_cons.1 hended with heq | hold
    · obtain ⟨rfl, rfl, rfl⟩ := Happening.ended.inj heq
      exact h.recorded j job' copy hmaking hdone
    · exact h.ended j job' hold

end Logged

/-! ### What stays true in every scene -/

theorem Sound.matched_of_making {r : Replication} (h : r.Sound) {i : Nat} {job : CopyJob}
    {copy : Copy} (hmaking : r.making? i = some (job, copy)) :
    copy.ref = job.ref ∧ copy.volume = job.target := by
  obtain ⟨approach, hw⟩ := worker_of_making? hmaking
  exact h.matched _ (List.mem_of_getElem? hw)

namespace Scene

variable {r : Replication} {v : Vault} {now : Nat} {x₀ x y : Scene} {after : List Happening}

/-- What is in flight is what somebody has, and the log is about what the workers do. -/
structure Tracked (x : Scene) : Prop where
  sound : x.replication.Sound
  aimed : ∀ w ∈ x.replication.workers, w.Aimed
  finished : x.replication.Finished
  logged : Logged x.replication.making? x.stage x.log

theorem eq_idle_of_mem_start {w : Worker} (h : w ∈ (r.start now).workers) : w = .idle := by
  unfold Replication.start at h
  split at h
  · exact List.eq_of_mem_replicate h
  · cases h

theorem length_workers_start : (r.start now).workers.length ≤ r.settings.workers := by
  unfold Replication.start
  split <;> simp

theorem tracked_start (hempty : r.inFlight = []) : (start r v now).Tracked where
  sound := sound_start hempty
  aimed w hw := by
    obtain rfl := eq_idle_of_mem_start hw
    trivial
  finished hended := by
    have hne : (r.start now).feeder ≠ .ended := by unfold Replication.start; split <;> simp
    exact absurd hended hne
  logged := by
    have hnone : (start r v now).replication.making? = fun _ => none := by
      funext i
      cases hw : (r.start now).workers[i]? with
      | none => rw [making?, start, hw]; rfl
      | some w =>
        obtain rfl := eq_idle_of_mem_start (List.mem_of_getElem? hw)
        exact making?_of_worker hw
    rw [hnone]
    exact .start

theorem Tracked.happens (h : x.Tracked) (hstep : x.Happens y) : y.Tracked := by
  obtain ⟨making, hmoved⟩ := hstep.moved
  refine ⟨hmoved.sound h.sound, hmoved.aimed h.aimed, hmoved.finished h.finished, ?_⟩
  cases hstep with
  | turn hmoved hvault hstage hlog =>
    rw [hmoved.making, hstage, hlog]
    exact h.logged
  | begin hopen hfree hmoved hvault hstage hlog =>
    rw [hmoved.making, hstage, hlog]
    exact h.logged.begin hfree
  | refuse hopen hfree hmoved hvault hstage hlog =>
    rw [hmoved.making, hstage, hlog]
    exact h.logged.refuse _
  | goOn hmaking hopen hmoved hvault htouched hstage hunrecorded hlog =>
    rw [hmoved.making, hstage, hlog]
    exact h.logged.goOn hmaking hunrecorded
  | confirm hmaking hopen hmoved hconfirm hvault hstage hlog =>
    rw [hmoved.making, hstage, hlog]
    exact h.logged.confirm hmaking
  | finish hmaking hdone hmoved hvault hstage hlog =>
    rw [hmoved.making, hstage, hlog]
    exact h.logged.finish hmaking hdone

theorem Tracked.runs (h : x.Tracked) (hruns : Runs x y) : y.Tracked := by
  induction hruns with
  | refl => exact h
  | tail _ hstep ih => exact ih.happens (happens_of_step ih.aimed hstep)

/-! ### Winding up -/

/-- A copy is being made. -/
def Making (x : Scene) (c : Copy) : Prop := ∃ i job, x.replication.making? i = some (job, c)

/-- All that has come of a replication that had been cancelled, with what has happened since. -/
structure WindsUp (x₀ x : Scene) (after : List Happening) : Prop where
  cancelled : x.replication.cancelled = true
  log : x.log = after ++ x₀.log
  /-- No copy is begun. -/
  unbegun : ∀ i job, .began i job ∉ after
  /-- What happens is about copies that were being made. -/
  underway : ∀ h ∈ after, ∃ copy, x₀.replication.making? h.worker = some (h.job, copy)
  making : ∀ i p, x.replication.making? i = some p → x₀.replication.making? i = some p
  /-- None of these copies is abandoned. -/
  kept : ∀ i job copy, x₀.replication.making? i = some (job, copy) →
    x.replication.making? i = some (job, copy) ∨ ∃ answer, .ended i job answer ∈ after
  /-- A worker has its copy recorded once. -/
  once : ((recordings after).map Prod.fst).Nodup
  /-- A copy that was recorded is at its end. -/
  done : ∀ i job, .confirmed i job ∈ after →
    x.replication.making? i = none ∨ (x.stage i).isDone = true
  /-- The catalog knows the copies that were recorded, and nothing else has changed in it. -/
  catalog : x₀.vault.catalog.confirmAll ((recordings after).map Prod.snd) = .ok x.vault.catalog
  vault : x.vault = { x₀.vault with catalog := x.vault.catalog, storage := x.vault.storage }
  storage : Storage.Touched x₀.Making x₀.vault.storage x.vault.storage

namespace WindsUp

theorem refl (hcancelled : x₀.replication.cancelled = true) : WindsUp x₀ x₀ [] where
  cancelled := hcancelled
  log := rfl
  unbegun _ _ := List.not_mem_nil
  underway _ hmem := absurd hmem List.not_mem_nil
  making _ _ := id
  kept _ _ _ := .inl
  once := .nil
  done _ _ hmem := absurd hmem List.not_mem_nil
  catalog := rfl
  vault := rfl
  storage := .refl _

/-- What happens is no step of a copy, or a copy asks its source or is stored. -/
theorem goOn (h : WindsUp x₀ x after) {storage : Storage}
    (hmoved : Moved x.replication y.replication x.replication.making?)
    (hvault : y.vault = { x.vault with storage := storage })
    (htouched : Storage.Touched x.Making x.vault.storage storage)
    (hstage : ∀ i, (x.stage i).isDone = true → y.stage i = x.stage i) (hlog : y.log = x.log) :
    WindsUp x₀ y after where
  cancelled := hmoved.cancelled h.cancelled
  log := by rw [hlog, h.log]
  unbegun := h.unbegun
  underway := h.underway
  making i p hp := h.making i p (by rw [← hmoved.making, hp])
  kept := by
    rw [hmoved.making]
    exact h.kept
  once := h.once
  done i job hmem := by
    rw [hmoved.making]
    refine (h.done i job hmem).imp_right fun hdone => ?_
    rw [hstage i hdone, hdone]
  catalog := by rw [hvault, h.catalog]
  vault := by rw [hvault, h.vault]
  storage := by
    rw [hvault]
    exact h.storage.trans (htouched.mono fun c ⟨i, job, hmaking⟩ => ⟨i, job, h.making i _ hmaking⟩)

/-- A copy is recorded. -/
theorem confirm (h : WindsUp x₀ x after) {i : Nat} {job : CopyJob} {copy : Copy} {catalog : Catalog}
    (hmaking : x.replication.making? i = some (job, copy)) (hopen : (x.stage i).isDone = false)
    (hmatched : copy.ref = job.ref ∧ copy.volume = job.target)
    (hmoved : Moved x.replication y.replication x.replication.making?)
    (hconfirm : x.vault.catalog.confirm copy.ref copy.volume = .ok catalog)
    (hvault : y.vault = { x.vault with catalog := catalog })
    (hstage : y.stage = Function.update x.stage i (.done (.ok ())))
    (hlog : y.log = .confirmed i job :: x.log) :
    WindsUp x₀ y (.confirmed i job :: after) where
  cancelled := hmoved.cancelled h.cancelled
  log := by rw [hlog, h.log, List.cons_append]
  unbegun j job' := by simp [h.unbegun j job']
  underway := List.forall_mem_cons.2 ⟨⟨copy, h.making i _ hmaking⟩, h.underway⟩
  making j p hp := h.making j p (by rw [← hmoved.making, hp])
  kept j job' copy' hmaking' := by
    rw [hmoved.making]
    exact (h.kept j job' copy' hmaking').imp_right fun ⟨answer, hended⟩ =>
      ⟨answer, List.mem_cons_of_mem _ hended⟩
  once := by
    refine List.nodup_cons.2 ⟨fun hmem => ?_, h.once⟩
    -- its copy was recorded before, so it would be at its end
    obtain ⟨⟨i', job'⟩, hrecorded, hi'⟩ := List.mem_map.1 hmem
    obtain rfl : i' = i := hi'
    rcases h.done i' job' (mem_recordings.1 hrecorded) with hnone | hdone
    · rw [hnone] at hmaking
      cases hmaking
    · rw [hdone] at hopen
      cases hopen
  done j job' hmem := by
    rw [hmoved.making, hstage]
    by_cases hji : j = i
    · exact .inr (by rw [hji, Function.update_self]; rfl)
    · rw [Function.update_of_ne hji]
      rcases List.mem_cons.1 hmem with heq | hmem
      · exact absurd (Happening.confirmed.inj heq).1 hji
      · exact h.done j job' hmem
  catalog := by
    have hall := h.catalog
    rw [Catalog.confirmAll] at hall ⊢
    rw [recordings, List.filterMap_cons, List.map_cons, List.foldrM_cons, ← recordings, hall,
      hvault, ← hmatched.1, ← hmatched.2]
    exact hconfirm
  vault := by rw [hvault, h.vault]
  storage := by
    rw [hvault]
    exact h.storage

/-- A copy that is at its end is ended. -/
theorem finish (h : WindsUp x₀ x after) {i : Nat} {job : CopyJob} {copy : Copy}
    {answer : Except Fault Unit} (hmaking : x.replication.making? i = some (job, copy))
    (hmoved : Moved x.replication y.replication (Function.update x.replication.making? i none))
    (hvault : y.vault = x.vault) (hstage : y.stage = Function.update x.stage i .reading)
    (hlog : y.log = .ended i job answer :: x.log) :
    WindsUp x₀ y (.ended i job answer :: after) where
  cancelled := hmoved.cancelled h.cancelled
  log := by rw [hlog, h.log, List.cons_append]
  unbegun j job' := by simp [h.unbegun j job']
  underway := List.forall_mem_cons.2 ⟨⟨copy, h.making i _ hmaking⟩, h.underway⟩
  making j p hp := by
    rw [hmoved.making] at hp
    by_cases hji : j = i
    · rw [hji, Function.update_self] at hp
      cases hp
    · rw [Function.update_of_ne hji] at hp
      exact h.making j p hp
  kept j job' copy' hmaking' := by
    rw [hmoved.making]
    rcases h.kept j job' copy' hmaking' with hnow | ⟨answer', hended⟩
    · by_cases hji : j = i
      · -- this is the copy that ends now
        subst hji
        obtain ⟨rfl, -⟩ := Prod.mk.inj (Option.some.inj (hmaking.symm.trans hnow))
        exact .inr ⟨answer, List.mem_cons_self⟩
      · exact .inl (by rw [Function.update_of_ne hji, hnow])
    · exact .inr ⟨answer', List.mem_cons_of_mem _ hended⟩
  once := h.once
  done j job' hmem := by
    rw [hmoved.making, hstage]
    by_cases hji : j = i
    · exact .inl (by rw [hji, Function.update_self])
    · rw [Function.update_of_ne hji, Function.update_of_ne hji]
      rcases List.mem_cons.1 hmem with heq | hmem
      · cases heq
      · exact h.done j job' hmem
  catalog := by rw [hvault]; exact h.catalog
  vault := by rw [hvault]; exact h.vault
  storage := by rw [hvault]; exact h.storage

/-- **Whatever happens after a cancellation, no copy is begun and none is abandoned.** -/
theorem happens (h : WindsUp x₀ x after) (hsound : x.replication.Sound) (hstep : x.Happens y) :
    ∃ after', WindsUp x₀ y after' := by
  -- a copy is begun only if replication was not cancelled, which it was
  cases hstep with
  | turn hmoved hvault hstage hlog =>
    exact ⟨after, h.goOn hmoved hvault (.refl _) (fun i _ => by rw [hstage]) hlog⟩
  | begin hopen =>
    rw [h.cancelled] at hopen
    cases hopen
  | refuse hopen =>
    rw [h.cancelled] at hopen
    cases hopen
  | @goOn i job copy storage stage hmaking hopen hmoved hvault htouched hstage hunrecorded hlog =>
    refine ⟨after, h.goOn hmoved hvault (htouched.mono ?_) (fun j hdone => ?_) hlog⟩
    · rintro c rfl
      exact ⟨i, job, hmaking⟩
    · -- a copy that was recorded is at its end, and this one is not
      have hji : j ≠ i := fun hji => by rw [hji, hopen] at hdone; cases hdone
      rw [hstage, Function.update_of_ne hji]
  | confirm hmaking hopen hmoved hconfirm hvault hstage hlog =>
    exact ⟨_, h.confirm hmaking hopen (hsound.matched_of_making hmaking) hmoved hconfirm hvault
      hstage hlog⟩
  | finish hmaking hdone hmoved hvault hstage hlog =>
    exact ⟨_, h.finish hmaking hmoved hvault hstage hlog⟩

theorem of_runs (hcancelled : x₀.replication.cancelled = true) (htracked : x₀.Tracked)
    (hruns : Runs x₀ x) : ∃ after, WindsUp x₀ x after := by
  induction hruns with
  | refl => exact ⟨[], .refl hcancelled⟩
  | @tail y z hruns hstep ih =>
    obtain ⟨after, h⟩ := ih
    have hy : y.Tracked := htracked.runs hruns
    exact h.happens hy.sound (happens_of_step hy.aimed hstep)

end WindsUp

/-! ### What comes of the jobs -/

/-- Nothing has come of a job, whatever has come of the copies that were being made. -/
structure Spared (making : Copy → Prop) (job : CopyJob) (v v' : Vault) : Prop where
  /-- The target holds the blob or waits for it as before. -/
  standing : (v'.catalog.records.get? job.ref).map (·.standing job.target) =
    (v.catalog.records.get? job.ref).map (·.standing job.target)
  /-- The record has not changed at all, unless a copy of the same blob was being made. -/
  record : (∀ c, making c → c.ref ≠ job.ref) →
    v'.catalog.records.get? job.ref = v.catalog.records.get? job.ref
  /-- The backend of the target has not changed, unless a copy read from it or wrote to it. -/
  backend : ∀ b, v.mounts.get? job.target = some b →
    (∀ c, making c → b ≠ c.source ∧ b ≠ c.target) → v'.storage.backend b = v.storage.backend b
  /-- The target keeps what it kept of the blob, unless the same blob was copied to its place. -/
  object : ∀ b, v.mounts.get? job.target = some b →
    (∀ c, making c → c.ref = job.ref → b ≠ c.target ∧ v.storage.Apart c.target b) →
    v'.storage.object? b job.ref = v.storage.object? b job.ref

/-- Nothing is left of a replication that has ended. -/
structure Settled (x : Scene) : Prop where
  inFlight : x.replication.inFlight = []
  /-- Every copy that was ever begun has come to its end. -/
  begun : ∀ i job later earlier, x.log = later ++ .began i job :: earlier →
    ∃ answer, .ended i job answer ∈ later
  /-- Those that ended well are known to the catalog. -/
  recorded : ∀ i job, .ended i job (.ok ()) ∈ x.log → .confirmed i job ∈ x.log

theorem Tracked.settled (h : x.Tracked) (hended : x.replication.feeder = .ended) : x.Settled where
  inFlight := h.sound.accounted.ended hended
  begun i job later earlier hlog := by
    refine (h.logged.begun i job later earlier hlog).resolve_right ?_
    rintro ⟨copy, hmaking⟩
    -- all workers have left
    obtain ⟨approach, hw⟩ := worker_of_making? hmaking
    have hleft := List.all_eq_true.1 (h.finished hended) _ (List.mem_of_getElem? hw)
    cases hleft
  recorded := h.logged.ended

/-- A job that is open is being made, or is about another copy than those that are being made. -/
theorem pair_ne_of_open {r : Replication} (h : r.Sound) {job job' : CopyJob} {i : Nat} {copy : Copy}
    (hopen : job ∈ r.openJobs) (hmaking : ∀ i copy, r.making? i ≠ some (job, copy))
    (hmaking' : r.making? i = some (job', copy)) : job'.pair ≠ job.pair := by
  intro hpair
  obtain ⟨approach, hw⟩ := worker_of_making? hmaking'
  have hopen' : job' ∈ r.openJobs := List.mem_append_right _
    (List.mem_filterMap.2 ⟨_, List.mem_of_getElem? hw, rfl⟩)
  have hnodup : (r.openJobs.map CopyJob.pair).Nodup := h.perm.nodup_iff.1 h.nodup
  obtain rfl := List.inj_on_of_nodup_map hnodup hopen' hopen hpair
  exact hmaking i copy hmaking'

namespace WindsUp

/-- What was recorded are copies that were being made. -/
theorem recorded (h : WindsUp x₀ x after) {job : CopyJob}
    (hjob : job ∈ (recordings after).map Prod.snd) :
    ∃ i copy, x₀.replication.making? i = some (job, copy) := by
  obtain ⟨⟨i, job'⟩, hmem, heq⟩ := List.mem_map.1 hjob
  obtain rfl : job' = job := heq
  obtain ⟨copy, hmaking⟩ := h.underway _ (mem_recordings.1 hmem)
  exact ⟨i, copy, hmaking⟩

theorem spared (h : WindsUp x₀ x after) (hsound : x₀.replication.Sound) {job : CopyJob}
    (hpair : ∀ i job' copy, x₀.replication.making? i = some (job', copy) → job'.pair ≠ job.pair) :
    Spared x₀.Making job x₀.vault x.vault where
  standing := by
    refine Catalog.get?_confirmAll _ (fun job' hjob' href b => ?_) h.catalog
    obtain ⟨i, copy, hmaking⟩ := h.recorded hjob'
    have htarget : job.target ≠ job'.target := fun htarget =>
      hpair i job' copy hmaking (Prod.ext href htarget.symm)
    exact b.standing_arrived_listed htarget
  record hothers := by
    have hnone : ∀ job' ∈ (recordings after).map Prod.snd, job'.ref ≠ job.ref := by
      intro job' hjob'
      obtain ⟨i, copy, hmaking⟩ := h.recorded hjob'
      rw [← (hsound.matched_of_making hmaking).1]
      exact hothers copy ⟨i, job', hmaking⟩
    have hkept := Catalog.get?_confirmAll id
      (fun job' hjob' href => absurd href (hnone job' hjob')) h.catalog
    rwa [Option.map_id, id, id] at hkept
  backend b _ hb := h.storage.backend b hb
  object b _ hb := h.storage.object b job.ref fun c hc href => hb c hc href.symm

/-- Each worker has one copy recorded at most. -/
theorem length_recordings (h : WindsUp x₀ x after) :
    (recordings after).length ≤ x₀.replication.workers.length := by
  have hsubset : (recordings after).map Prod.fst ⊆ List.range x₀.replication.workers.length := by
    intro i hi
    obtain ⟨⟨i', job⟩, hmem, heq⟩ := List.mem_map.1 hi
    obtain rfl : i' = i := heq
    obtain ⟨copy, hmaking⟩ := h.underway _ (mem_recordings.1 hmem)
    obtain ⟨approach, hw⟩ := worker_of_making? hmaking
    exact List.mem_range.2 (List.getElem?_eq_some_iff.1 hw).1
  have hlength := (List.subperm_of_subset h.once hsubset).length_le
  rwa [List.length_map, List.length_range] at hlength

end WindsUp

theorem length_workers_of_runs (htracked : x.Tracked) (hruns : Runs x y) :
    y.replication.workers.length = x.replication.workers.length := by
  induction hruns with
  | refl => rfl
  | @tail y z hruns hstep ih =>
    obtain ⟨making, hmoved⟩ := (happens_of_step (htracked.runs hruns).aimed hstep).moved
    rw [hmoved.length, ih]

/-- **After a cancellation no copy is begun, and none is abandoned.**  Each worker has at most one
further copy recorded, which it was making when replication was cancelled.  When replication ends
every copy has come to its end, and nothing has come of all other jobs.  They include those that are
found later, since `x₀` is any scene after the cancellation. -/
theorem windsUp_of_cancelled (hempty : r.inFlight = []) (hbefore : Runs (start r v now) x₀)
    (hcancelled : x₀.replication.cancelled = true) (hafter : Runs x₀ x) :
    ∃ after, WindsUp x₀ x after ∧ (recordings after).length ≤ r.settings.workers ∧
      (x.replication.feeder = .ended → x.Settled) ∧
      ∀ job ∈ x₀.replication.openJobs, (∀ i copy, x₀.replication.making? i ≠ some (job, copy)) →
        Spared x₀.Making job x₀.vault x.vault := by
  have hstart : (start r v now).Tracked := tracked_start hempty
  have htracked : x₀.Tracked := hstart.runs hbefore
  obtain ⟨after, h⟩ := WindsUp.of_runs hcancelled htracked hafter
  have hworkers : x₀.replication.workers.length ≤ r.settings.workers := by
    rw [length_workers_of_runs hstart hbefore]
    exact length_workers_start
  exact ⟨after, h, Nat.le_trans h.length_recordings hworkers, (htracked.runs hafter).settled,
    fun job hopen hmaking => h.spared htracked.sound fun i job' copy hmaking' =>
      pair_ne_of_open htracked.sound hopen hmaking hmaking'⟩

end Scene

/-! ### A copy that is made while replication is cancelled -/

namespace Sample

open Vault.Backlog (lower higher)

/-- The first volume keeps one of the three blobs that are wanted on the second. -/
def stocked : Vault :=
  { vault with
    catalog := (vault.catalog.addVolume ⟨1, ⟨1⟩, "first", 0, 0, 0⟩).addVolume
      ⟨2, ⟨2⟩, "second", 0, 0, 0⟩
    storage := (Storage.empty.store 10 lower (.ofBytes [])).2 }

/-- One worker has begun to copy and the other has only taken a job when replication is
cancelled. -/
def before : List Scene.Event :=
  [.turn (.search 0 stocked), .turn .send, .turn (.receive 0), .begin 0 0, .turn .send,
    .turn (.receive 1), .turn .cancel]

/-- The copy is made while the other worker and the feeder give back their jobs. -/
def after : List Scene.Event :=
  [.goOn 0 0, .turn (.giveBack 1), .goOn 0 0, .turn .giveUp, .goOn 0 0, .goOn 0 0,
    .turn (.leave 0), .turn .conclude]

theorem woundUp : ((before.foldlM Scene.play? (.start pair stocked 0)).bind fun x₀ =>
    (after.foldlM Scene.play? x₀).map fun x => (x₀.replication.cancelled,
      x₀.replication.openJobs, x.replication.feeder, recordings x.log)) =
    some (true, [⟨higher, 1, 2⟩, ⟨lower, 1, 2⟩, ⟨middle, 1, 2⟩], .ended, [(0, ⟨lower, 1, 2⟩)]) := by
  decide +kernel

end Sample

/-- The copy under way is recorded, and nothing comes of the other two jobs. -/
theorem windsUp_of_cancelled_sample :
    Sample.pair.inFlight = [] ∧
      ∃ x₀ x : Scene, Scene.Runs (.start Sample.pair Sample.stocked 0) x₀ ∧
        x₀.replication.cancelled = true ∧ Scene.Runs x₀ x ∧
        x₀.replication.openJobs.length = 3 ∧ x.replication.feeder = .ended ∧
        recordings x.log = [(0, ⟨Vault.Backlog.lower, 1, 2⟩)] ∧
        ∃ after, x₀.WindsUp x after ∧ (recordings after).length ≤ Sample.pair.settings.workers ∧
          (x.replication.feeder = .ended → x.Settled) ∧
          ∀ job ∈ x₀.replication.openJobs, (∀ i copy, x₀.replication.making? i ≠ some (job, copy)) →
            Scene.Spared x₀.Making job x₀.vault x.vault := by
  obtain ⟨x₀, hbefore, hrest⟩ := Option.bind_eq_some_iff.1 Sample.woundUp
  obtain ⟨x, hafter, hstate⟩ := Option.map_eq_some_iff.1 hrest
  simp only [Prod.mk.injEq] at hstate
  obtain ⟨hcancelled, hopen, hended, hrecorded⟩ := hstate
  have hplay : ∀ (x : Scene) event y, x.play? event = some y → x.Step y :=
    fun _ event _ h => ⟨event, h⟩
  have hruns : Scene.Runs (.start Sample.pair Sample.stocked 0) x₀ :=
    reflTransGen_of_foldlM hplay hbefore
  have hruns' : Scene.Runs x₀ x := reflTransGen_of_foldlM hplay hafter
  exact ⟨rfl, x₀, x, hruns, hcancelled, hruns', by rw [hopen]; rfl, hended, hrecorded,
    Scene.windsUp_of_cancelled rfl hruns hcancelled hruns'⟩

end Replication

end BlobVault
