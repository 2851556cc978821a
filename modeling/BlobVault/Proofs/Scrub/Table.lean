import BlobVault.Proofs.Scrub.Steps
import BlobVault.Scrub.Controller

/-!
# The table of running scans

What the controller's table of running scans says about the scans, and that every operation of the
controller keeps it right.

* `Vault.Saves` : a scan changes no saved job but its own;
* `Controller.Works`, `Controller.Over` : a scan may still save its job, or has ended;
* `Controller.Sound` : the invariant: the table and the notices account for every run;
* `Sound.startRun`, `Sound.keep` : a scan starts, and takes a step;
* `Sound.reap`, `Sound.stop`, `Sound.halt`, `Sound.joined`, `Sound.halted` : the control loop
  changes its table, or what it waits for.
-/

namespace BlobVault

/-- Every job is kept under its own identifier. -/
def Catalog.JobsFiled (c : Catalog) : Prop := ∀ id j, c.findJob id = .ok j → j.id = id

/-! ### What a scan does to the saved jobs -/

/-- No saved job has changed but that of the given identifier. -/
structure Vault.Saves (id : Uuid) (v v' : Vault) : Prop where
  others : ∀ id', id' ≠ id → v'.catalog.findJob id' = v.catalog.findJob id'
  filed : v.catalog.JobsFiled → v'.catalog.JobsFiled

namespace Vault.Saves

variable {id : Uuid} {v v' : Vault}

theorem ofJobs (h : v'.catalog.jobs = v.catalog.jobs) : v.Saves id v' := by
  have hfind : ∀ id, v'.catalog.findJob id = v.catalog.findJob id := Catalog.findJob_of_jobs h
  exact ⟨fun id' _ => hfind id', fun hfiled id' j hj => hfiled id' j (hfind id' ▸ hj)⟩

theorem ofSaved {j : ScrubJob} (hsaved : v'.catalog = v.catalog.saveJob j) (hid : j.id = id) :
    v.Saves id v' := by
  subst hid
  refine ⟨fun id' hne => ?_, fun hfiled id' j' hj' => ?_⟩
  · rw [hsaved]
    exact (Catalog.findJob_saveJob v.catalog j id').trans (if_neg hne)
  · rw [hsaved, Catalog.findJob_saveJob] at hj'
    split at hj'
    · rename_i heq
      rw [← Except.ok.inj hj', heq]
    · exact hfiled id' j' hj'

theorem saveJob (v : Vault) {j : ScrubJob} (hid : j.id = id) :
    v.Saves id { v with catalog := v.catalog.saveJob j } :=
  ofSaved rfl hid

end Vault.Saves

namespace Scan

variable {s s' : Scan} {v v' : Vault} {now : Nat}

/-- A scan that takes a step has not ended, stays with its job, and saves no other. -/
theorem step?_saves {cancelled : Bool} (h : s.step? now cancelled v = some (s', v')) :
    s.phase.outcome? = none ∧ s'.job.id = s.job.id ∧ v.Saves s.job.id v' := by
  have hstepped := stepped_of_step? h
  have hid := hstepped.same.1
  refine ⟨hstepped.unfinished, hid, ?_⟩
  rcases hstepped.saves with hkept | ⟨hsaved, -⟩
  · exact .ofJobs (congrArg Catalog.jobs hkept)
  · exact .ofSaved hsaved hid

end Scan

namespace Controller

variable {c c' : Controller} {v v' : Vault}

/-! ### Runs -/

/-- What a run is about, and how far it has come. -/
def work? (c : Controller) (run : Nat) : Option (Uuid × Scan) :=
  (c.tasks.get? run).map fun t => (t.job, t.scan)

/-- The scan of the run is at work on the job: it may still save it. -/
def Works (c : Controller) (run : Nat) (id : Uuid) : Prop :=
  ∃ s, c.work? run = some (id, s) ∧ s.phase.outcome? = none

/-- The scan of the run has ended. -/
def Over (c : Controller) (run : Nat) (id : Uuid) : Prop :=
  ∃ s outcome, c.work? run = some (id, s) ∧ s.phase.outcome? = some outcome

/-- The control loop waits for the end of the run. -/
def Phase.Awaits : Phase → Nat → Prop
  | .joining run _, run' => run' = run
  | .halting runs _, run' => run' ∈ runs
  | .serving, _ | .ended, _ => False

/-- The control loop takes no commands any more. -/
def Phase.IsFinal : Phase → Prop
  | .halting .. | .ended => True
  | .serving | .joining .. => False

theorem contains_tasks (c : Controller) (run : Nat) :
    c.tasks.contains run = (c.work? run).isSome := by
  rw [OrderedMap.contains_eq_isSome, work?, Option.isSome_map]

theorem outcomeOf?_eq (c : Controller) (run : Nat) :
    c.outcomeOf? run = (c.work? run).bind fun w => w.2.phase.outcome? := by
  rw [outcomeOf?, work?, Option.bind_map]
  rfl

theorem Works.not_over {run : Nat} {id id' : Uuid} (h : c.Works run id) : ¬ c.Over run id' := by
  rintro ⟨s', outcome, hs', houtcome⟩
  obtain ⟨s, hs, hnone⟩ := h
  obtain ⟨-, rfl⟩ := Prod.mk.inj (Option.some.inj (hs.symm.trans hs'))
  rw [hnone] at houtcome
  cases houtcome

theorem Works.same {run : Nat} {id id' : Uuid} (h : c.Works run id) (h' : c.Works run id') :
    id = id' := by
  obtain ⟨s, hs, -⟩ := h
  obtain ⟨s', hs', -⟩ := h'
  exact (Prod.mk.inj (Option.some.inj (hs.symm.trans hs'))).1

theorem Works.outcomeOf? {run : Nat} {id : Uuid} (h : c.Works run id) :
    c.outcomeOf? run = none := by
  obtain ⟨s, hs, hnone⟩ := h
  rw [outcomeOf?_eq, hs]
  exact hnone

theorem Works.congr {run : Nat} {id : Uuid} (h : c'.work? run = c.work? run) :
    c'.Works run id ↔ c.Works run id := by
  rw [Works, Works, h]

theorem Over.congr {run : Nat} {id : Uuid} (h : c'.work? run = c.work? run) :
    c'.Over run id ↔ c.Over run id := by
  rw [Over, Over, h]

/-! ### The operations -/

theorem work?_cancelRun (c : Controller) (run run' : Nat) :
    (c.cancelRun run).work? run' = c.work? run' := by
  rw [work?, work?, cancelRun, OrderedMap.get?_modify]
  split
  · rw [Option.map_map]
    rfl
  · rfl

theorem work?_cancel (c : Controller) (run : Nat) : c.cancel.work? run = c.work? run := by
  rw [work?, work?, cancel, OrderedMap.get?_mapVal, Option.map_map]
  rfl

/-- Asking scans to stop changes nothing else. -/
theorem foldl_cancelRun (c : Controller) (runs : List Nat) :
    runs.foldl cancelRun c = { c with tasks := (runs.foldl cancelRun c).tasks } ∧
      ∀ run, (runs.foldl cancelRun c).work? run = c.work? run := by
  induction runs generalizing c with
  | nil => exact ⟨rfl, fun _ => rfl⟩
  | cons run runs ih =>
    obtain ⟨heq, hwork⟩ := ih (c.cancelRun run)
    refine ⟨heq, fun run' => ?_⟩
    rw [List.foldl_cons, hwork, work?_cancelRun]

theorem halt_eq (c : Controller) (ticket? : Option Nat) :
    c.halt ticket? = { c with
      tasks := (c.halt ticket?).tasks, running := .empty
      phase := .halting c.running.values ticket? } ∧
      ∀ run, (c.halt ticket?).work? run = c.work? run := by
  obtain ⟨heq, hwork⟩ := foldl_cancelRun c c.running.values
  refine ⟨?_, hwork⟩
  rw [halt]
  dsimp only
  rw [heq]

theorem work?_startRun (c : Controller) (now : Nat) (j : ScrubJob) (run : Nat) :
    (c.startRun now j).work? run =
      if run = c.lastRun + 1 then some (j.id, .start c.settings j now) else c.work? run := by
  rw [work?, work?, startRun, OrderedMap.get?_insert]
  by_cases h : run = c.lastRun + 1
  · simp [h]
  · simp [h]

theorem work?_keep (c : Controller) (run : Nat) (t : Task) (run' : Nat) :
    (c.keep run t).work? run' = if run' = run then some (t.job, t.scan) else c.work? run' := by
  rw [work?, work?, keep, OrderedMap.get?_insert]
  by_cases h : run' = run
  · simp [h]
  · simp [h]

/-- Looking at a notice touches the table alone, and there only the run's own entry. -/
theorem reap_eq (c : Controller) (id : Uuid) (run : Nat) :
    c.reap id run = { c with running := (c.reap id run).running } ∧
      ∀ id' run', (c.reap id run).running.get? id' = some run' ↔
        c.running.get? id' = some run' ∧ (id', run') ≠ (id, run) := by
  rw [reap]
  by_cases hrun : c.running.get? id = some run
  · rw [if_pos hrun]
    refine ⟨rfl, fun id' run' => ?_⟩
    dsimp only
    rw [OrderedMap.get?_erase_eq_some]
    constructor
    · rintro ⟨hne, hlisted⟩
      exact ⟨hlisted, fun heq => hne (Prod.mk.inj heq).1⟩
    · rintro ⟨hlisted, hne⟩
      refine ⟨?_, hlisted⟩
      rintro rfl
      exact hne (by rw [Option.some.inj (hlisted.symm.trans hrun)])
  · rw [if_neg hrun]
    refine ⟨rfl, fun id' run' => (and_iff_left_of_imp fun hlisted heq => hrun ?_).symm⟩
    obtain ⟨rfl, rfl⟩ := Prod.mk.inj heq
    exact hlisted

theorem resumable_eq_ok {id : Uuid} {j : ScrubJob} (h : c.resumable v id = .ok j) :
    c.running.get? id = none ∧ v.catalog.findJob id = .ok j := by
  unfold resumable at h
  split at h
  · cases h
  · rename_i hrunning
    refine ⟨?_, ?_⟩
    · exact OrderedMap.contains_eq_false.1 (eq_false_of_ne_true hrunning)
    · split at h
      · cases h
      · split at h
        · cases h
        · split at h
          · cases h
          · rename_i j' hj' _ _
            rw [hj', Except.ok.inj h]

/-! ### The invariant -/

/-- The table and the notices account for every run. -/
structure Sound (c : Controller) : Prop where
  /-- No number has been used ahead of time. -/
  numbered : ∀ run, c.lastRun < run → c.work? run = none
  /-- A scan saves the job that it was started for. -/
  own : ∀ run id s, c.work? run = some (id, s) → s.job.id = id
  /-- What the table lists is at work, or its notice has not been looked at. -/
  listed : ∀ id run, c.running.get? id = some run →
    c.Works run id ∨ c.Over run id ∧ (id, run) ∈ c.notices
  /-- Only ended scans leave notices. -/
  noticed : ∀ id run, (id, run) ∈ c.notices → c.Over run id
  /-- Whatever is at work is listed, or its end is waited for. -/
  tracked : ∀ id run, c.Works run id → c.running.get? id = some run ∨ c.phase.Awaits run
  /-- No two scans work on one job. -/
  single : ∀ id run run', c.Works run id → c.Works run' id → run = run'
  /-- The table has been emptied for good. -/
  emptied : c.phase.IsFinal → ∀ id, c.running.get? id = none

namespace Sound

theorem start (settings : ScrubSettings) : (Controller.start settings).Sound := by
  have hnone : ∀ run, (Controller.start settings).work? run = none := fun _ => rfl
  have hidle : ∀ run id, ¬ (Controller.start settings).Works run id := by
    rintro run id ⟨s, hs, -⟩
    rw [hnone] at hs
    cases hs
  refine ⟨fun run _ => hnone run, ?_, ?_, ?_, ?_, ?_, fun _ _ => rfl⟩
  · intro run id s hs
    rw [hnone] at hs
    cases hs
  · intro id run hlisted
    cases hlisted
  · intro id run hmem
    cases hmem
  · intro id run hworks
    exact absurd hworks (hidle run id)
  · intro id run run' hworks
    exact absurd hworks (hidle run id)

/-- What has to be seen to when no scan is touched. -/
theorem of_work_eq (h : c.Sound) (hwork : ∀ run, c'.work? run = c.work? run)
    (hlast : c'.lastRun = c.lastRun)
    (hlisted : ∀ id run, c'.running.get? id = some run →
      c.running.get? id = some run ∧ ((id, run) ∈ c.notices → (id, run) ∈ c'.notices))
    (hnoticed : ∀ p ∈ c'.notices, p ∈ c.notices)
    (htracked : ∀ id run, c.Works run id → c'.running.get? id = some run ∨ c'.phase.Awaits run)
    (hemptied : c'.phase.IsFinal → ∀ id, c'.running.get? id = none) : c'.Sound := by
  refine ⟨?_, ?_, ?_, ?_, ?_, ?_, hemptied⟩
  · intro run hrun
    rw [hwork]
    exact h.numbered run (hlast ▸ hrun)
  · intro run id s hs
    exact h.own run id s (hwork run ▸ hs)
  · intro id run hid
    obtain ⟨hold, hmem⟩ := hlisted id run hid
    rw [Works.congr (hwork run), Over.congr (hwork run)]
    exact (h.listed id run hold).imp_right fun hover => ⟨hover.1, hmem hover.2⟩
  · intro id run hmem
    rw [Over.congr (hwork run)]
    exact h.noticed id run (hnoticed _ hmem)
  · intro id run hworks
    exact htracked id run ((Works.congr (hwork run)).1 hworks)
  · intro id run run' hworks hworks'
    exact h.single id run run' ((Works.congr (hwork run)).1 hworks)
      ((Works.congr (hwork run')).1 hworks')

/-- The invariant is about the runs, the table, the notices and the phase alone. -/
theorem of_eq (h : c.Sound) (hwork : ∀ run, c'.work? run = c.work? run)
    (hlast : c'.lastRun = c.lastRun) (hrunning : c'.running = c.running)
    (hnotices : c'.notices = c.notices) (hphase : c'.phase = c.phase) : c'.Sound := by
  refine h.of_work_eq hwork hlast ?_ ?_ ?_ ?_
  · intro id run hid
    exact ⟨hrunning ▸ hid, fun hmem => hnotices ▸ hmem⟩
  · intro p hp
    exact hnotices ▸ hp
  · rw [hrunning, hphase]
    exact h.tracked
  · rw [hrunning, hphase]
    exact h.emptied

/-- While commands are taken, whatever is at work is listed. -/
theorem listed_of_works (h : c.Sound) (hserving : c.phase = .serving) {id : Uuid} {run : Nat}
    (hworks : c.Works run id) : c.running.get? id = some run := by
  rcases h.tracked id run hworks with hlisted | hawaits
  · exact hlisted
  · rw [hserving] at hawaits
    exact hawaits.elim

/-- The notice of a run takes the run's own entry off the table, and no scan that is at work has
left a notice. -/
theorem reap (h : c.Sound) {id : Uuid} {run : Nat} {rest : List (Uuid × Nat)}
    (hnotices : c.notices = (id, run) :: rest) :
    (Controller.reap { c with notices := rest } id run).Sound := by
  obtain ⟨heq, hrunning⟩ := reap_eq { c with notices := rest } id run
  have hover : c.Over run id := h.noticed id run (hnotices ▸ List.mem_cons_self)
  rw [heq]
  refine h.of_work_eq (fun _ => rfl) rfl ?_ ?_ ?_ ?_
  · intro id' run' hlisted
    obtain ⟨hold, hne⟩ := (hrunning id' run').1 hlisted
    refine ⟨hold, fun hmem => ?_⟩
    rw [hnotices] at hmem
    exact (List.mem_cons.1 hmem).resolve_left hne
  · intro p hp
    rw [hnotices]
    exact List.mem_cons_of_mem _ hp
  · intro id' run' hworks
    -- whatever is at work has left no notice, so this one is about another run
    refine (h.tracked id' run' hworks).imp_left fun hlisted => (hrunning id' run').2 ⟨hlisted, ?_⟩
    intro heq
    obtain ⟨rfl, rfl⟩ := Prod.mk.inj heq
    exact hworks.not_over hover
  · intro hfinal id'
    refine Option.eq_none_iff_forall_ne_some.2 fun run' hlisted => ?_
    have hold := ((hrunning id' run').1 hlisted).1
    rw [show c.running.get? id' = none from h.emptied hfinal id'] at hold
    cases hold

/-- A run whose end is waited for may leave the table. -/
theorem stop (h : c.Sound) (hserving : c.phase = .serving) {id : Uuid} {run : Nat}
    (hrun : c.running.get? id = some run) (ticket : Nat) :
    Sound { c.cancelRun run with running := c.running.erase id, phase := .joining run ticket } := by
  refine h.of_work_eq (work?_cancelRun c run) rfl ?_ (fun _ hp => hp) ?_
    (fun hfinal => hfinal.elim)
  · intro id' run' hlisted
    exact ⟨(OrderedMap.get?_erase_eq_some.1 hlisted).2, fun hmem => hmem⟩
  · intro id' run' hworks
    have hlisted := h.listed_of_works hserving hworks
    -- the job's own scan is waited for, and the others stay listed
    by_cases hid : id' = id
    · subst hid
      exact .inr (Option.some.inj (hlisted.symm.trans hrun))
    · exact .inl (OrderedMap.get?_erase_eq_some.2 ⟨hid, hlisted⟩)

/-- So may all runs at once. -/
theorem halt (h : c.Sound) (hserving : c.phase = .serving) (ticket? : Option Nat) :
    (c.halt ticket?).Sound := by
  obtain ⟨heq, hwork⟩ := halt_eq c ticket?
  refine h.of_work_eq hwork ?_ ?_ ?_ ?_ ?_
  · rw [heq]
  · rw [heq]
    exact nofun
  · rw [heq]
    exact fun _ hp => hp
  · intro id run hworks
    rw [heq]
    exact .inr (OrderedMap.mem_values.2 ⟨id, h.listed_of_works hserving hworks⟩)
  · rw [heq]
    exact fun _ _ => rfl

/-- A run that has ended need not be waited for. -/
theorem joined (h : c.Sound) {run ticket : Nat} (hphase : c.phase = .joining run ticket)
    {outcome : Scan.Outcome} (houtcome : c.outcomeOf? run = some outcome) (reply : Reply) :
    Sound { c.answer ticket reply with phase := .serving } := by
  refine h.of_work_eq (fun _ => rfl) rfl (fun _ _ hlisted => ⟨hlisted, id⟩) (fun _ hp => hp) ?_
    (fun hfinal => hfinal.elim)
  intro id run' hworks
  -- the run that was waited for is not at work any more
  refine .inl ((h.tracked id run' hworks).resolve_right fun hawaits => ?_)
  rw [hphase] at hawaits
  obtain rfl : run' = run := hawaits
  rw [hworks.outcomeOf?] at houtcome
  cases houtcome

/-- Neither need several. -/
theorem halted (h : c.Sound) {runs : List Nat} {ticket? : Option Nat}
    (hphase : c.phase = .halting runs ticket?)
    (hall : ∀ run ∈ runs, (c.outcomeOf? run).isSome = true) (replies : List (Nat × Reply)) :
    Sound { c with replies := replies, phase := .ended } := by
  refine h.of_work_eq (fun _ => rfl) rfl (fun _ _ hlisted => ⟨hlisted, id⟩) (fun _ hp => hp) ?_
    fun _ => h.emptied (hphase ▸ trivial)
  intro id run hworks
  refine .inl ((h.tracked id run hworks).resolve_right fun hawaits => ?_)
  rw [hphase] at hawaits
  have hended := hall run hawaits
  rw [hworks.outcomeOf?] at hended
  cases hended

theorem le_lastRun (h : c.Sound) {run : Nat} {w : Uuid × Scan} (hw : c.work? run = some w) :
    run ≤ c.lastRun := by
  refine Nat.le_of_not_lt fun hlt => ?_
  rw [h.numbered run hlt] at hw
  cases hw

/-- The only work that starting a scan adds is that of the new run. -/
theorem works_startRun (h : c.Sound) (now : Nat) (j : ScrubJob) {run : Nat} {id : Uuid} :
    (c.startRun now j).Works run id ↔ run = c.lastRun + 1 ∧ id = j.id ∨ c.Works run id := by
  constructor
  · rintro ⟨s, hs, hnone⟩
    rw [work?_startRun] at hs
    split at hs
    · rename_i hrun
      exact .inl ⟨hrun, (Prod.mk.inj (Option.some.inj hs)).1.symm⟩
    · exact .inr ⟨s, hs, hnone⟩
  · rintro (⟨rfl, rfl⟩ | ⟨s, hs, hnone⟩)
    · exact ⟨_, (work?_startRun c now j _).trans (if_pos rfl), rfl⟩
    · have hle := h.le_lastRun hs
      exact ⟨s, (work?_startRun c now j run).trans ((if_neg (by omega)).trans hs), hnone⟩

theorem over_startRun (h : c.Sound) (now : Nat) (j : ScrubJob) {run : Nat} {id : Uuid} :
    (c.startRun now j).Over run id ↔ c.Over run id := by
  constructor
  · rintro ⟨s, outcome, hs, houtcome⟩
    rw [work?_startRun] at hs
    split at hs
    · obtain ⟨-, rfl⟩ := Prod.mk.inj (Option.some.inj hs)
      cases houtcome
    · exact ⟨s, outcome, hs, houtcome⟩
  · rintro ⟨s, outcome, hs, houtcome⟩
    have hle := h.le_lastRun hs
    exact ⟨s, outcome, (work?_startRun c now j run).trans ((if_neg (by omega)).trans hs), houtcome⟩

/-- A new scan of a job that is not listed has the job for itself. -/
theorem startRun (h : c.Sound) (hserving : c.phase = .serving) {j : ScrubJob}
    (hfree : c.running.get? j.id = none) (now : Nat) : (c.startRun now j).Sound := by
  have hrunning : ∀ id, (c.startRun now j).running.get? id =
      if id = j.id then some (c.lastRun + 1) else c.running.get? id := fun id => by
    simp only [Controller.startRun, OrderedMap.get?_insert, Std.LawfulEqCmp.compare_eq_iff_eq]
  -- a scan at work on the job would be listed
  have hidle : ∀ run, ¬ c.Works run j.id := fun run hworks => by
    have hlisted := h.listed_of_works hserving hworks
    rw [hfree] at hlisted
    cases hlisted
  refine ⟨?_, ?_, ?_, ?_, ?_, ?_, ?_⟩
  · intro run hrun
    have hlt : c.lastRun + 1 < run := hrun
    rw [work?_startRun, if_neg (Nat.ne_of_gt hlt)]
    exact h.numbered run (by omega)
  · intro run id s hs
    rw [work?_startRun] at hs
    split at hs
    · obtain ⟨rfl, rfl⟩ := Prod.mk.inj (Option.some.inj hs)
      rfl
    · exact h.own run id s hs
  · intro id run hid
    rw [h.works_startRun, h.over_startRun]
    rw [hrunning] at hid
    split at hid
    · rename_i heq
      exact .inl (.inl ⟨(Option.some.inj hid).symm, heq⟩)
    · exact (h.listed id run hid).imp_left .inr
  · intro id run hmem
    rw [h.over_startRun]
    exact h.noticed id run hmem
  · intro id run hworks
    rw [hrunning]
    rcases h.works_startRun now j |>.1 hworks with ⟨rfl, rfl⟩ | hold
    · exact .inl (if_pos rfl)
    · refine .inl ((if_neg ?_).trans (h.listed_of_works hserving hold))
      rintro rfl
      exact hidle run hold
  · intro id run run' hworks hworks'
    rcases h.works_startRun now j |>.1 hworks with ⟨rfl, rfl⟩ | hold
    · rcases h.works_startRun now j |>.1 hworks' with ⟨rfl, -⟩ | hold'
      · rfl
      · exact absurd hold' (hidle run')
    · rcases h.works_startRun now j |>.1 hworks' with ⟨rfl, rfl⟩ | hold'
      · exact absurd hold (hidle run)
      · exact h.single id run run' hold hold'
  · intro hfinal
    have hphase : (c.startRun now j).phase = .serving := hserving
    rw [hphase] at hfinal
    exact hfinal.elim

end Sound

section Keep

variable {run : Nat} {t t' : Task}

theorem work?_of_task (ht : c.tasks.get? run = some t) : c.work? run = some (t.job, t.scan) := by
  rw [work?, ht]
  rfl

/-- After a step of a scan the others are at work as before, and it is if it has not ended. -/
theorem works_keep (ht : c.tasks.get? run = some t) (hworks : t.scan.phase.outcome? = none)
    (hjob : t'.job = t.job) {run' : Nat} {id : Uuid} :
    (c.keep run t').Works run' id ↔
      c.Works run' id ∧ (run' = run → t'.scan.phase.outcome? = none) := by
  by_cases hrun : run' = run
  · subst hrun
    have hbefore := work?_of_task ht
    have hafter : (c.keep run' t').work? run' = some (t.job, t'.scan) := by
      rw [work?_keep, if_pos rfl, hjob]
    constructor
    · rintro ⟨s, hs, hnone⟩
      obtain ⟨rfl, rfl⟩ := Prod.mk.inj (Option.some.inj (hafter.symm.trans hs))
      exact ⟨⟨_, hbefore, hworks⟩, fun _ => hnone⟩
    · rintro ⟨⟨s, hs, -⟩, hnone⟩
      obtain ⟨rfl, -⟩ := Prod.mk.inj (Option.some.inj (hbefore.symm.trans hs))
      exact ⟨_, hafter, hnone rfl⟩
  · rw [Works.congr ((work?_keep c run t' run').trans (if_neg hrun))]
    exact ⟨fun h => ⟨h, fun heq => absurd heq hrun⟩, And.left⟩

theorem mem_notices_keep {p : Uuid × Nat} :
    p ∈ (c.keep run t').notices ↔
      p ∈ c.notices ∨ p = (t'.job, run) ∧ t'.scan.phase.outcome?.isSome = true := by
  rw [keep]
  dsimp only
  by_cases hended : t'.scan.phase.outcome?.isSome = true
  · rw [if_pos hended, List.mem_append, List.mem_singleton]
    exact or_congr_right (and_iff_left hended).symm
  · rw [if_neg hended]
    exact (or_iff_left fun h => hended h.2).symm

/-- A scan that takes a step leaves a notice if that was its last. -/
theorem Sound.keep (h : c.Sound) (ht : c.tasks.get? run = some t)
    (hworks : t.scan.phase.outcome? = none) (hjob : t'.job = t.job)
    (hid : t'.scan.job.id = t.scan.job.id) : (c.keep run t').Sound := by
  have hself : c.Works run t.job := ⟨_, work?_of_task ht, hworks⟩
  have hafter : (c.keep run t').work? run = some (t.job, t'.scan) := by
    rw [work?_keep, if_pos rfl, hjob]
  have hother : ∀ {run'}, run' ≠ run → (c.keep run t').work? run' = c.work? run' :=
    fun hne => (work?_keep c run t' _).trans (if_neg hne)
  -- the scan was at work, so it has not left a notice before
  have hold : ∀ {id run'}, c.Over run' id → (c.keep run t').Over run' id :=
    fun {id run'} hover => by
      refine (Over.congr (hother ?_)).2 hover
      rintro rfl
      exact hself.not_over hover
  refine ⟨?_, ?_, ?_, ?_, ?_, ?_, h.emptied⟩
  · intro run' hrun'
    rw [hother]
    · exact h.numbered run' hrun'
    · rintro rfl
      exact absurd (h.le_lastRun (work?_of_task ht)) (Nat.not_le_of_lt hrun')
  · intro run' id s hs
    by_cases hrun : run' = run
    · subst hrun
      obtain ⟨rfl, rfl⟩ := Prod.mk.inj (Option.some.inj (hafter.symm.trans hs))
      exact hid.trans (h.own run' _ _ (work?_of_task ht))
    · rw [hother hrun] at hs
      exact h.own run' id s hs
  · intro id run' hlisted
    rw [works_keep ht hworks hjob, mem_notices_keep]
    rcases h.listed id run' hlisted with hworks' | ⟨hover, hmem⟩
    · -- if this was the last step of the listed scan, its notice takes over
      by_cases hended : run' = run ∧ t'.scan.phase.outcome?.isSome = true
      · obtain ⟨rfl, hended⟩ := hended
        obtain ⟨outcome, houtcome⟩ := Option.isSome_iff_exists.1 hended
        rw [hworks'.same hself]
        exact .inr ⟨⟨_, _, hafter, houtcome⟩, .inr ⟨by rw [hjob], hended⟩⟩
      · refine .inl ⟨hworks', fun hrun => ?_⟩
        exact Option.not_isSome_iff_eq_none.1 fun h => hended ⟨hrun, h⟩
    · exact .inr ⟨hold hover, .inl hmem⟩
  · intro id run' hmem
    rcases mem_notices_keep.1 hmem with hmem | ⟨heq, hended⟩
    · exact hold (h.noticed id run' hmem)
    · obtain ⟨rfl, rfl⟩ := Prod.mk.inj heq
      obtain ⟨outcome, houtcome⟩ := Option.isSome_iff_exists.1 hended
      rw [hjob]
      exact ⟨_, _, hafter, houtcome⟩
  · intro id run' hworks'
    exact h.tracked id run' ((works_keep ht hworks hjob).1 hworks').1
  · intro id run₁ run₂ hworks₁ hworks₂
    exact h.single id run₁ run₂ ((works_keep ht hworks hjob).1 hworks₁).1
      ((works_keep ht hworks hjob).1 hworks₂).1

end Keep

end Controller

end BlobVault
