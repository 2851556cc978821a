import BlobVault.Proofs.Scrub.Ascent
import BlobVault.Proofs.Scrub.Control

/-!
# Progress is never lost

The saved record of a job is written by one scan after another: from time to time while a scan is at
work, and once more when it ends.  Each of them goes on from what was saved, and at most one of them
is at work, so the saved progress never goes back.

* `ScrubJob.Forward` : the progress of a job has not gone back;
* `Vault.Advances` : no saved job has gone back, and none that was completed has changed;
* `Scan.Agrees` : what a saved job and the last scan of the job have to do with each other;
* `Scan.Agrees.step` : a step of the scan keeps that, and moves the saved job forward;
* `Controller.Latest`, `Controller.Faithful` : the last run of a job, and that every saved job agrees
  with it;
* `Faithful.served`, `Faithful.scan`, `Faithful.recorded` : the control loop, the scans and new jobs
  keep that.
-/

namespace BlobVault

open OrderedMap (isAfter)

/-- The cursor has not gone back; having none is before all references. -/
def CursorLe : Option Ref → Option Ref → Prop
  | none, _ => True
  | some _, none => False
  | some r, some r' => (compare r r').isLE = true

namespace CursorLe

theorem refl (cursor : Option Ref) : CursorLe cursor cursor := by
  cases cursor with
  | none => trivial
  | some r => simp [CursorLe]

theorem trans {c c' c'' : Option Ref} (h : CursorLe c c') (h' : CursorLe c' c'') :
    CursorLe c c'' := by
  cases c with
  | none => trivial
  | some r =>
    cases c' with
    | none => exact h.elim
    | some r' =>
      cases c'' with
      | none => exact h'.elim
      | some r'' => exact Std.TransCmp.isLE_trans h h'

theorem of_isAfter {cursor : Option Ref} {r : Ref} (h : isAfter cursor r = true) :
    CursorLe cursor (some r) := by
  cases cursor with
  | none => trivial
  | some c =>
    simp only [isAfter, beq_iff_eq] at h
    simp [CursorLe, h]

end CursorLe

namespace ScrubJob

/-- The progress of a job has not gone back. -/
structure Forward (j j' : ScrubJob) : Prop where
  cursor : CursorLe j.cursor j'.cursor
  bytesScanned : j.bytesScanned ≤ j'.bytesScanned
  errorsFound : j.errorsFound ≤ j'.errorsFound

variable {j j' j'' : ScrubJob}

theorem Forward.refl (j : ScrubJob) : j.Forward j :=
  ⟨.refl _, Nat.le_refl _, Nat.le_refl _⟩

theorem Forward.trans (h : j.Forward j') (h' : j'.Forward j'') : j.Forward j'' :=
  ⟨h.cursor.trans h'.cursor, Nat.le_trans h.bytesScanned h'.bytesScanned,
    Nat.le_trans h.errorsFound h'.errorsFound⟩

/-- Dealing with a record after the cursor is progress. -/
theorem forward_visited {r : Ref} (h : isAfter j.cursor r = true)
    (result? : Option (Except Fault Nat)) : j.Forward (j.visited r result?) := by
  have hcursor := CursorLe.of_isAfter h
  rcases result? with _ | ⟨fault | count⟩
  · exact ⟨hcursor, Nat.le_refl _, Nat.le_refl _⟩
  · exact ⟨hcursor, Nat.le_refl _, Nat.le_succ _⟩
  · exact ⟨hcursor, Nat.le_add_right _ _, Nat.le_refl _⟩

theorem isCompleted_visited (j : ScrubJob) (r : Ref) (result? : Option (Except Fault Nat)) :
    (j.visited r result?).isCompleted = j.isCompleted := by
  rcases result? with _ | ⟨_ | _⟩ <;> rfl

theorem forward_ending (j : ScrubJob) (outcome : Scan.Outcome) (now : Nat) :
    j.Forward (j.ending outcome now) := by
  unfold ending
  split <;> exact ⟨.refl _, Nat.le_refl _, Nat.le_refl _⟩

/-- A job that was open is completed unless its scan was stopped. -/
theorem isCompleted_ending (hopen : j.isCompleted = false) (outcome : Scan.Outcome) (now : Nat) :
    (j.ending outcome now).isCompleted = true ↔ outcome ≠ .stopped := by
  cases outcome <;> simp [ending, Scan.Outcome.isFinal, isCompleted] at hopen ⊢
  exact hopen

end ScrubJob

/-- No saved job has gone back, and none that was completed has changed. -/
def Vault.Advances (v v' : Vault) : Prop :=
  ∀ id j, v.catalog.findJob id = .ok j → ∃ j', v'.catalog.findJob id = .ok j' ∧ j.Forward j' ∧
    (j.isCompleted = true → j' = j)

namespace Vault.Advances

variable {v v' v'' : Vault}

theorem ofSame (h : ∀ id, v'.catalog.findJob id = v.catalog.findJob id) : v.Advances v' :=
  fun id j hj => ⟨j, (h id).trans hj, .refl j, fun _ => rfl⟩

theorem refl (v : Vault) : v.Advances v := ofSame fun _ => rfl

theorem trans (h : v.Advances v') (h' : v'.Advances v'') : v.Advances v'' := by
  intro id j hj
  obtain ⟨j', hj', hforward, hkept⟩ := h id j hj
  obtain ⟨j'', hj'', hforward', hkept'⟩ := h' id j' hj'
  refine ⟨j'', hj'', hforward.trans hforward', fun hcompleted => ?_⟩
  obtain rfl := hkept hcompleted
  exact hkept' hcompleted

end Vault.Advances

/-! ### A saved job and its scan -/

namespace Scan

variable {s s' : Scan} {v v' : Vault} {now : Nat} {cancelled : Bool} {j : ScrubJob}

/-- The saved job and the last scan of it.  A scan at work goes upwards from the saved progress, on
which nobody has put an end; one that has ended has saved all that it has. -/
structure Agrees (j : ScrubJob) (s : Scan) : Prop where
  working : s.phase.outcome? = none →
    s.Ascends ∧ j.Forward s.job ∧ j.isCompleted = false ∧ s.job.isCompleted = false
  ended : ∀ outcome, s.phase.outcome? = some outcome →
    j = s.job ∧ (j.isCompleted = true ↔ outcome ≠ .stopped)

theorem agrees_start (settings : ScrubSettings) (hopen : j.isCompleted = false) (now : Nat) :
    Agrees j (start settings j now) where
  working _ := ⟨ascends_start settings j now, .refl j, hopen, hopen⟩
  ended outcome h := by cases h

/-- Dealing with a record is progress, ends no scan, and may save the job. -/
theorem Noted.progress {r : Ref} {result? : Option (Except Fault Nat)} {rest : List BlobRecord}
    (h : Noted s now v r result? rest s' v') (hafter : isAfter s.job.cursor r = true) :
    s.job.Forward s'.job ∧ s'.job.isCompleted = s.job.isCompleted ∧ s'.phase.outcome? = none ∧
      (v'.catalog.jobs = v.catalog.jobs ∨
        v'.catalog.jobs = (v.catalog.saveJob s'.job).jobs) := by
  have hforward := ScrubJob.forward_visited hafter result?
  have hcompleted := ScrubJob.isCompleted_visited s.job r result?
  cases h with
  | full => exact ⟨⟨hforward.1, hforward.2, hforward.3⟩, hcompleted, rfl, .inl rfl⟩
  | checkpoint => exact ⟨hforward, hcompleted, rfl, .inr rfl⟩
  | next => exact ⟨hforward, hcompleted, rfl, .inl rfl⟩

theorem outcome?_query (s : Scan) (c : Catalog) : (s.query c).outcome? = none := by
  rcases query_cases s c with ⟨-, hquery⟩ | hquery
  · rw [hquery]
    rfl
  · rw [hquery]
    rfl

/-- A step of a scan that goes upwards is progress.  It may save the job, and it does if it is the
last one, which completes the job unless the scan was stopped. -/
theorem Stepped.progress (h : Stepped now v s cancelled s' v') (hs : s.Ascends)
    (hopen : s.job.isCompleted = false) :
    s.job.Forward s'.job ∧
      (s'.phase.outcome? = none ∧ s'.job.isCompleted = false ∧
          (v'.catalog.jobs = v.catalog.jobs ∨
            v'.catalog.jobs = (v.catalog.saveJob s'.job).jobs) ∨
        ∃ outcome, s'.phase.outcome? = some outcome ∧
          (s'.job.isCompleted = true ↔ outcome ≠ .stopped) ∧
          v'.catalog.jobs = (v.catalog.saveJob s'.job).jobs) := by
  unfold Ascends at hs
  cases h with
  | stop hphase => exact ⟨.refl _, .inl ⟨rfl, hopen, .inl rfl⟩⟩
  | query hphase => exact ⟨.refl _, .inl ⟨outcome?_query s v.catalog, hopen, .inl rfl⟩⟩
  | refill hphase => exact ⟨.refl _, .inl ⟨rfl, hopen, .inl rfl⟩⟩
  | begin hphase hon => exact ⟨.refl _, .inl ⟨rfl, hopen, .inl rfl⟩⟩
  | visit hphase hnoted =>
    rw [hphase] at hs
    obtain ⟨hforward, hcompleted, hphase', hjobs⟩ := hnoted.progress hs.1
    exact ⟨hforward, .inl ⟨hphase', hcompleted.trans hopen, hjobs⟩⟩
  | approach hphase => exact ⟨.refl _, .inl ⟨rfl, hopen, .inl rfl⟩⟩
  | check hphase hnoted =>
    rw [hphase] at hs
    obtain ⟨hforward, hcompleted, hphase', hjobs⟩ := hnoted.progress hs.1
    exact ⟨hforward, .inl ⟨hphase', hcompleted.trans hopen, hjobs⟩⟩
  | @save _ outcome hphase =>
    exact ⟨ScrubJob.forward_ending s.job outcome now,
      .inr ⟨outcome, rfl, ScrubJob.isCompleted_ending hopen outcome now, rfl⟩⟩

/-- A step of the scan moves the saved job forward, if at all, and they still agree. -/
theorem Agrees.step (h : Agrees j s) (hfiled : v.catalog.Filed)
    (hj : v.catalog.findJob s.job.id = .ok j) (hstep : Stepped now v s cancelled s' v') :
    ∃ j', v'.catalog.findJob s.job.id = .ok j' ∧ Agrees j' s' ∧ j.Forward j' ∧
      j.isCompleted = false := by
  obtain ⟨hs, hahead, hunfinished, hopen⟩ := h.working hstep.unfinished
  obtain ⟨hforward, hcases⟩ := hstep.progress hs hopen
  have hid := hstep.same.1
  have hsaved : v'.catalog.jobs = (v.catalog.saveJob s'.job).jobs →
      v'.catalog.findJob s.job.id = .ok s'.job := fun hjobs => by
    rw [Catalog.findJob_of_jobs hjobs, ← hid]
    exact Catalog.findJob_saveJob_self v.catalog s'.job
  have hascends := hstep.ascends hfiled hs
  rcases hcases with ⟨hworking, hopen', hjobs | hjobs⟩ | ⟨outcome, hended, hcompleted, hjobs⟩
  · -- nothing is saved
    have hkept := (Catalog.findJob_of_jobs hjobs s.job.id).trans hj
    refine ⟨j, hkept, ⟨fun _ => ?_, fun o ho => ?_⟩, .refl j, hunfinished⟩
    · exact ⟨hascends, hahead.trans hforward, hunfinished, hopen'⟩
    · rw [hworking] at ho
      cases ho
  · -- the progress so far is saved
    refine ⟨s'.job, hsaved hjobs, ⟨fun _ => ?_, fun o ho => ?_⟩, hahead.trans hforward, hunfinished⟩
    · exact ⟨hascends, .refl _, hopen', hopen'⟩
    · rw [hworking] at ho
      cases ho
  · -- the last save
    refine ⟨s'.job, hsaved hjobs, ⟨fun hnone => ?_, fun o ho => ?_⟩, hahead.trans hforward,
      hunfinished⟩
    · rw [hended] at hnone
      cases hnone
    · obtain rfl := Option.some.inj (hended.symm.trans ho)
      exact ⟨rfl, hcompleted⟩

end Scan

/-! ### Saved jobs and last runs -/

namespace Controller

variable {c c' : Controller} {v v' : Vault}

/-- The run is the last one of the job. -/
structure Latest (c : Controller) (run : Nat) (id : Uuid) (s : Scan) : Prop where
  work : c.work? run = some (id, s)
  last : ∀ run' s', c.work? run' = some (id, s') → run' ≤ run

/-- Every saved job agrees with the last run of it, and what is at work, or is listed, is the last
run. -/
structure Faithful (c : Controller) (v : Vault) : Prop where
  sound : c.Sound
  newest : ∀ run id s, c.work? run = some (id, s) →
    c.Works run id ∨ c.running.get? id = some run → c.Latest run id s
  saved : ∀ run id s, c.Latest run id s → ∃ j, v.catalog.findJob id = .ok j ∧ Scan.Agrees j s

/-- A step of a scan leaves every run with its job. -/
theorem exists_work?_keep {run : Nat} {s' : Scan} {t : Task} (ht : c.tasks.get? run = some t)
    {id : Uuid} {r : Nat} : (∃ s, (c.keep run { t with scan := s' }).work? r = some (id, s)) ↔
      ∃ s, c.work? r = some (id, s) := by
  rw [work?_keep]
  split
  · rename_i hr
    simp only [hr, work?_of_task ht, Option.some.injEq, Prod.mk.injEq, exists_and_left, exists_eq']
  · rfl

namespace Latest

variable {run run' : Nat} {id : Uuid} {s s' : Scan}

theorem unique (h : c.Latest run id s) (h' : c.Latest run' id s') : run = run' :=
  Nat.le_antisymm (h'.last run s h.work) (h.last run' s' h'.work)

/-- Which run is the last one of a job depends on the runs of the job alone. -/
theorem congr (hwork : ∀ run s, c'.work? run = some (id, s) ↔ c.work? run = some (id, s)) :
    c'.Latest run id s ↔ c.Latest run id s :=
  ⟨fun h => ⟨(hwork run s).1 h.work, fun run' s' hs' => h.last run' s' ((hwork run' s').2 hs')⟩,
    fun h => ⟨(hwork run s).2 h.work, fun run' s' hs' => h.last run' s' ((hwork run' s').1 hs')⟩⟩

theorem of_work_eq (hwork : ∀ run, c'.work? run = c.work? run) :
    c'.Latest run id s ↔ c.Latest run id s :=
  congr fun run _ => by rw [hwork]

/-- A step of a scan leaves the last run of every job the last one. -/
theorem keep_iff {t : Task} (ht : c.tasks.get? run = some t) :
    (c.keep run { t with scan := s' }).Latest run' id s ↔
      if run' = run then id = t.job ∧ s = s' ∧ c.Latest run t.job t.scan
      else c.Latest run' id s := by
  have hwork := work?_of_task ht
  have hkeep := work?_keep c run { t with scan := s' }
  have hruns := @exists_work?_keep c run s' t ht
  have hlast : ∀ {id : Uuid} {bound : Nat},
      (∀ r s, (c.keep run { t with scan := s' }).work? r = some (id, s) → r ≤ bound) ↔
        ∀ r s, c.work? r = some (id, s) → r ≤ bound := by
    refine fun {id bound} => ⟨fun h r s hs => ?_, fun h r s hs => ?_⟩
    · obtain ⟨s₁, hs₁⟩ := hruns.2 ⟨s, hs⟩
      exact h r s₁ hs₁
    · obtain ⟨s₁, hs₁⟩ := hruns.1 ⟨s, hs⟩
      exact h r s₁ hs₁
  constructor
  · intro h
    have hs := h.work
    rw [hkeep] at hs
    split at hs
    · rename_i hrun
      obtain ⟨rfl, rfl⟩ := Prod.mk.inj (Option.some.inj hs)
      rw [if_pos hrun]
      exact ⟨rfl, rfl, hwork, hlast.1 (hrun ▸ h.last)⟩
    · rename_i hrun
      rw [if_neg hrun]
      exact ⟨hs, hlast.1 h.last⟩
  · intro h
    split at h
    · rename_i hrun
      obtain ⟨rfl, rfl, hlatest⟩ := h
      exact ⟨(hkeep run').trans (if_pos hrun), hrun ▸ hlast.2 hlatest.last⟩
    · rename_i hrun
      exact ⟨(hkeep run').trans ((if_neg hrun).trans h.work), hlast.2 h.last⟩

end Latest

theorem isCompleted_of_resumable {id : Uuid} {j : ScrubJob} (h : c.resumable v id = .ok j) :
    j.isCompleted = false := by
  unfold resumable at h
  split at h
  · cases h
  · split at h
    · cases h
    · split at h
      · cases h
      · rename_i hopen
        split at h
        · cases h
        · obtain rfl := Except.ok.inj h
          exact eq_false_of_ne_true hopen

namespace Faithful

theorem start (settings : ScrubSettings) (v : Vault) : (Controller.start settings).Faithful v where
  sound := .start settings
  newest run id s hs := by cases hs
  saved run id s hlatest := by cases hlatest.work

/-- Nothing changes for the jobs when no scan is touched and nothing is listed anew. -/
theorem of_work_eq (h : c.Faithful v) (hsound : c'.Sound)
    (hwork : ∀ run, c'.work? run = c.work? run)
    (hlisted : ∀ id run, c'.running.get? id = some run → c.running.get? id = some run)
    (hjobs : ∀ id, v'.catalog.findJob id = v.catalog.findJob id) : c'.Faithful v' where
  sound := hsound
  newest run id s hs hcurrent := by
    rw [Latest.of_work_eq hwork]
    rw [hwork] at hs
    exact h.newest run id s hs
      (hcurrent.imp (Works.congr (hwork run)).1 (hlisted id run))
  saved run id s hlatest := by
    obtain ⟨j, hj, hagrees⟩ := h.saved run id s ((Latest.of_work_eq hwork).1 hlatest)
    exact ⟨j, (hjobs id).trans hj, hagrees⟩

/-- What else the controller does is all the same. -/
theorem of_eq (h : c.Faithful v) (hwork : ∀ run, c'.work? run = c.work? run)
    (hlast : c'.lastRun = c.lastRun) (hrunning : c'.running = c.running)
    (hnotices : c'.notices = c.notices) (hphase : c'.phase = c.phase) : c'.Faithful v :=
  h.of_work_eq (h.sound.of_eq hwork hlast hrunning hnotices hphase) hwork
    (fun _ _ hrun => hrunning ▸ hrun) fun _ => rfl

/-- A new scan goes on from what was saved. -/
theorem startRun (h : c.Faithful v) (hserving : c.phase = .serving) {j : ScrubJob}
    (hfree : c.running.get? j.id = none) (hj : v.catalog.findJob j.id = .ok j)
    (hopen : j.isCompleted = false) (now : Nat) : (c.startRun now j).Faithful v := by
  have hsound := h.sound.startRun hserving hfree now
  -- the new run has a greater number than all others
  have hbelow : ∀ {run id s}, (c.startRun now j).work? run = some (id, s) →
      run ≤ c.lastRun + 1 := fun hs => hsound.le_lastRun hs
  have hnew : (c.startRun now j).work? (c.lastRun + 1) =
      some (j.id, .start c.settings j now) := by
    rw [work?_startRun, if_pos rfl]
  have hrunning : ∀ id, (c.startRun now j).running.get? id =
      if id = j.id then some (c.lastRun + 1) else c.running.get? id := fun id => by
    simp only [Controller.startRun, OrderedMap.get?_insert, Std.LawfulEqCmp.compare_eq_iff_eq]
  -- the runs of other jobs are as before
  have hsame : ∀ {run id s}, id ≠ j.id →
      ((c.startRun now j).work? run = some (id, s) ↔ c.work? run = some (id, s)) := by
    intro run id s hid
    by_cases hrun : run = c.lastRun + 1
    · subst hrun
      rw [hnew, h.sound.numbered _ (Nat.lt_succ_self _)]
      refine ⟨fun heq => ?_, fun hnone => by cases hnone⟩
      exact absurd (Prod.mk.inj (Option.some.inj heq)).1.symm hid
    · rw [work?_startRun, if_neg hrun]
  have hother : ∀ {run id s}, id ≠ j.id →
      ((c.startRun now j).Latest run id s ↔ c.Latest run id s) := by
    intro run id s hid
    exact Latest.congr fun run s => hsame hid
  have hlast : ∀ {run s}, (c.startRun now j).Latest run j.id s → s = .start c.settings j now := by
    intro run s hlatest
    obtain rfl : run = c.lastRun + 1 :=
      Nat.le_antisymm (hbelow hlatest.work) (hlatest.last _ _ hnew)
    exact (Prod.mk.inj (Option.some.inj (hlatest.work.symm.trans hnew))).2
  refine ⟨hsound, ?_, ?_⟩
  · intro run id s hs hcurrent
    by_cases hid : id = j.id
    · subst hid
      -- only the new run is at work on the job, or listed for it
      have hrun : run = c.lastRun + 1 := by
        rcases hcurrent with hworks | hlisted
        · rcases (h.sound.works_startRun now j).1 hworks with ⟨hrun, -⟩ | hold'
          · exact hrun
          · have hlisted := h.sound.listed_of_works hserving hold'
            rw [hfree] at hlisted
            cases hlisted
        · rw [hrunning, if_pos rfl] at hlisted
          exact (Option.some.inj hlisted).symm
      subst hrun
      exact ⟨hs, fun run' s' hs' => hbelow hs'⟩
    · refine (hother hid).2 (h.newest run id s ((hsame hid).1 hs) (hcurrent.imp ?_ fun hlisted => ?_))
      · intro hworks
        exact ((h.sound.works_startRun now j).1 hworks).resolve_left fun heq => hid heq.2
      · rwa [hrunning, if_neg hid] at hlisted
  · intro run id s hlatest
    by_cases hid : id = j.id
    · subst hid
      obtain rfl := hlast hlatest
      exact ⟨j, hj, Scan.agrees_start c.settings hopen now⟩
    · exact h.saved run id s ((hother hid).1 hlatest)

/-- Commands are carried out without a change to what is saved. -/
theorem obey (h : c.Faithful v) (hfiled : v.catalog.JobsFiled) (hserving : c.phase = .serving)
    (now ticket : Nat) (command : Command) : (c.obey now v ticket command).Faithful v := by
  have hsound := (sound_obey h.sound hfiled hserving now ticket command).1
  have hanswer : ∀ {c : Controller} (reply : Reply), c.Faithful v →
      (c.answer ticket reply).Faithful v := fun _ h => h.of_eq (fun _ => rfl) rfl rfl rfl rfl
  cases command with
  | resume id =>
    rw [Controller.obey]
    cases hresumable : c.resumable v id with
    | error fault => exact hanswer _ h
    | ok j =>
      obtain ⟨hfree, hj⟩ := resumable_eq_ok hresumable
      rw [← hfiled id j hj] at hfree hj
      exact hanswer _ (h.startRun hserving hfree hj (isCompleted_of_resumable hresumable) now)
  | stop id =>
    rw [Controller.obey] at hsound ⊢
    cases hrun : c.running.get? id with
    | none => exact hanswer _ h
    | some run =>
      rw [hrun] at hsound
      exact h.of_work_eq hsound (work?_cancelRun c run)
        (fun _ _ hlisted => (OrderedMap.get?_erase_eq_some.1 hlisted).2) fun _ => rfl
  | list => exact hanswer _ h
  | shutdown =>
    obtain ⟨heq, hwork⟩ := halt_eq c (some ticket)
    refine h.of_work_eq hsound hwork (fun _ _ hlisted => ?_) fun _ => rfl
    rw [Controller.obey, heq] at hlisted
    cases hlisted

/-- The control loop leaves the saved jobs alone. -/
theorem served (h : c.Faithful v) (hfiled : v.catalog.JobsFiled) {now : Nat}
    (hserved : c.Served now v c') : c'.Faithful v := by
  have hsound := (sound_served h.sound hfiled hserved).1
  cases hserved with
  | @notice id run rest hserving hnotices =>
    obtain ⟨heq, hrunning⟩ := reap_eq { c with notices := rest } id run
    refine h.of_work_eq hsound (fun _ => ?_) (fun id' run' hlisted => ?_) fun _ => rfl
    · rw [heq]
      rfl
    · exact ((hrunning id' run').1 hlisted).1
  | @command ticket command rest hserving hcommands =>
    have hrest : Faithful { c with commands := rest } v := h.of_eq (fun _ => rfl) rfl rfl rfl rfl
    exact hrest.obey hfiled hserving now ticket command
  | halt hserving =>
    obtain ⟨heq, hwork⟩ := halt_eq c none
    refine h.of_work_eq hsound hwork (fun _ _ hlisted => ?_) fun _ => rfl
    rw [heq] at hlisted
    cases hlisted
  | joined hphase houtcome =>
    exact h.of_work_eq hsound (fun _ => rfl) (fun _ _ hrun => hrun) fun _ => rfl
  | halted hphase hall replies =>
    exact h.of_work_eq hsound (fun _ => rfl) (fun _ _ hrun => hrun) fun _ => rfl

/-- A step of a scan moves the saved jobs forward, if at all: it is the last one of its job, and was
not completed. -/
theorem scan (h : c.Faithful v) (hfiled : v.catalog.Filed) (hjobs : v.catalog.JobsFiled)
    {now run : Nat} (hscan : c.scan? now v run = some (c', v')) :
    c'.Faithful v' ∧ v.Advances v' := by
  have hsound := (sound_scan? h.sound hjobs hscan).1
  obtain ⟨t, s', ht, hstep, rfl⟩ := scan?_eq_some hscan
  obtain ⟨hworks, -, hsaves⟩ := Scan.step?_saves hstep
  have hwork := work?_of_task ht
  have hown := h.sound.own run t.job t.scan hwork
  rw [hown] at hsaves
  have hstill := @works_keep c run t { t with scan := s' } ht hworks rfl
  have hlatest := h.newest run t.job t.scan hwork (.inl ⟨_, hwork, hworks⟩)
  obtain ⟨j, hj, hagrees⟩ := h.saved run t.job t.scan hlatest
  obtain ⟨j', hj', hagrees', hforward, hopen⟩ :=
    hagrees.step hfiled (hown ▸ hj) (Scan.stepped_of_step? hstep)
  rw [hown] at hj'
  refine ⟨⟨hsound, fun run' id s hs hcurrent => ?_, fun run' id s hs => ?_⟩, fun id j₁ hj₁ => ?_⟩
  · rw [Latest.keep_iff ht]
    rw [work?_keep] at hs
    split at hs
    · rename_i hrun
      obtain ⟨rfl, rfl⟩ := Prod.mk.inj (Option.some.inj hs)
      rw [if_pos hrun]
      exact ⟨rfl, rfl, hlatest⟩
    · rename_i hrun
      rw [if_neg hrun]
      exact h.newest run' id s hs (hcurrent.imp_left fun hworks' => (hstill.1 hworks').1)
  · rw [Latest.keep_iff ht] at hs
    split at hs
    · obtain ⟨rfl, rfl, -⟩ := hs
      exact ⟨j', hj', hagrees'⟩
    · rename_i hrun
      -- another run is the last one of another job
      have hid : id ≠ t.job := by
        rintro rfl
        exact hrun (hs.unique hlatest)
      obtain ⟨j₁, hj₁, hagrees₁⟩ := h.saved run' id s hs
      exact ⟨j₁, (hsaves.others id hid).trans hj₁, hagrees₁⟩
  · by_cases hid : id = t.job
    · subst hid
      obtain rfl := Except.ok.inj (hj.symm.trans hj₁)
      refine ⟨j', hj', hforward, fun hcompleted => ?_⟩
      rw [hopen] at hcompleted
      cases hcompleted
    · exact ⟨j₁, (hsaves.others id hid).trans hj₁, .refl j₁, fun _ => rfl⟩

/-- A job may be recorded that there was not before. -/
theorem recorded (h : c.Faithful v) {id : Uuid} (hsaves : v.Saves id v')
    (hfresh : ∀ j, v.catalog.findJob id ≠ .ok j) : c.Faithful v' ∧ v.Advances v' := by
  have hkept : ∀ id' j, v.catalog.findJob id' = .ok j → v'.catalog.findJob id' = .ok j := by
    intro id' j hj
    refine (hsaves.others id' ?_).trans hj
    rintro rfl
    exact hfresh j hj
  refine ⟨⟨h.sound, h.newest, fun run id' s hlatest => ?_⟩, fun id' j hj => ?_⟩
  · obtain ⟨j, hj, hagrees⟩ := h.saved run id' s hlatest
    exact ⟨j, hkept id' j hj, hagrees⟩
  · exact ⟨j, hkept id' j hj, .refl j, fun _ => rfl⟩

end Faithful

end Controller

end BlobVault
