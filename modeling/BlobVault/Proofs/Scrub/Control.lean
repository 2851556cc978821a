import BlobVault.Proofs.Scrub.Resumption
import BlobVault.Proofs.Scrub.Table

/-!
# One scan for each job

Commands, the actions of the control loop, the steps and ends of scans and the notices of their
ends can follow one another in any order.  In no order do two scans work on one job, and no scan is
ever forgotten.

* `Controller.Later` : runs are numbered upwards, and one that is over stays so;
* `Controller.Move` : what can happen, one thing at a time;
* `Controller.sound_history` : the table stays right (`Controller.Sound`);
* `Controller.orderly_of_history` : **after every history the controller is in order, and whatever
  happens next is.**

The control loop of `Controller.serve?` takes all notices before it takes a command.  Nothing here
depends on that: in `Move.overtake` a command comes first.
-/

namespace BlobVault

namespace Controller

variable {c c' c'' : Controller} {v v' : Vault}

/-! ### Numbers and ends -/

/-- Runs are numbered upwards, none is taken back, and one that is over stays so. -/
structure Later (c c' : Controller) : Prop where
  lastRun : c.lastRun ≤ c'.lastRun
  kept : ∀ run, c.tasks.contains run = true → c'.tasks.contains run = true
  fresh : ∀ run, c'.tasks.contains run = true → c.tasks.contains run = true ∨ c.lastRun < run
  worked : ∀ run id, c'.Works run id → c.Works run id ∨ c.lastRun < run

namespace Later

theorem refl (c : Controller) : c.Later c :=
  ⟨Nat.le_refl _, fun _ h => h, fun _ h => .inl h, fun _ _ h => .inl h⟩

theorem trans (h : c.Later c') (h' : c'.Later c'') : c.Later c'' where
  lastRun := Nat.le_trans h.lastRun h'.lastRun
  kept run hrun := h'.kept run (h.kept run hrun)
  fresh run hrun := by
    rcases h'.fresh run hrun with hold | hlt
    · exact h.fresh run hold
    · exact .inr (Nat.lt_of_le_of_lt h.lastRun hlt)
  worked run id hworks := by
    rcases h'.worked run id hworks with hold | hlt
    · exact h.worked run id hold
    · exact .inr (Nat.lt_of_le_of_lt h.lastRun hlt)

theorem of_work_eq (hwork : ∀ run, c'.work? run = c.work? run) (hlast : c'.lastRun = c.lastRun) :
    c.Later c' := by
  have hcontains : ∀ run, c'.tasks.contains run = c.tasks.contains run := fun run => by
    rw [contains_tasks, contains_tasks, hwork]
  refine ⟨Nat.le_of_eq hlast.symm, ?_, ?_, ?_⟩
  · intro run hrun
    exact (hcontains run).trans hrun
  · intro run hrun
    exact .inl ((hcontains run).symm.trans hrun)
  · intro run id hworks
    exact .inl ((Works.congr (hwork run)).1 hworks)

theorem startRun (h : c.Sound) (now : Nat) (j : ScrubJob) : c.Later (c.startRun now j) := by
  have hcontains : ∀ run, (c.startRun now j).tasks.contains run = true ↔
      run = c.lastRun + 1 ∨ c.tasks.contains run = true := fun run =>
    OrderedMap.contains_insert c.tasks (c.lastRun + 1) run _
  refine ⟨Nat.le_succ _, ?_, ?_, ?_⟩
  · intro run hrun
    exact (hcontains run).2 (.inr hrun)
  · intro run hrun
    rcases (hcontains run).1 hrun with rfl | hold
    · exact .inr (Nat.lt_succ_self _)
    · exact .inl hold
  · intro run id hworks
    rcases h.works_startRun now j |>.1 hworks with ⟨rfl, -⟩ | hold
    · exact .inr (Nat.lt_succ_self _)
    · exact .inl hold

theorem keep {run : Nat} {t t' : Task} (ht : c.tasks.get? run = some t)
    (hworks : t.scan.phase.outcome? = none) (hjob : t'.job = t.job) : c.Later (c.keep run t') := by
  have hrun : c.tasks.contains run = true := OrderedMap.contains_of_get? ht
  have hcontains : ∀ run', (c.keep run t').tasks.contains run' = true ↔
      run' = run ∨ c.tasks.contains run' = true := fun run' =>
    OrderedMap.contains_insert c.tasks run run' t'
  refine ⟨Nat.le_refl _, ?_, ?_, ?_⟩
  · intro run' hrun'
    exact (hcontains run').2 (.inr hrun')
  · intro run' hrun'
    rcases (hcontains run').1 hrun' with rfl | hold
    · exact .inl hrun
    · exact .inl hold
  · intro run' id hworks'
    exact .inl ((works_keep ht hworks hjob).1 hworks').1

end Later

/-! ### What can happen -/

/-- What one action of the control loop can be. -/
inductive Served (now : Nat) (v : Vault) (c : Controller) : Controller → Prop
  | notice {id : Uuid} {run : Nat} {rest : List (Uuid × Nat)} (hserving : c.phase = .serving)
      (hnotices : c.notices = (id, run) :: rest) :
      Served now v c (reap { c with notices := rest } id run)
  | command {ticket : Nat} {command : Command} {rest : List (Nat × Command)}
      (hserving : c.phase = .serving) (hcommands : c.commands = (ticket, command) :: rest) :
      Served now v c (obey { c with commands := rest } now v ticket command)
  | halt (hserving : c.phase = .serving) : Served now v c (c.halt none)
  | joined {run ticket : Nat} {outcome : Scan.Outcome} (hphase : c.phase = .joining run ticket)
      (houtcome : c.outcomeOf? run = some outcome) :
      Served now v c { c.answer ticket (.outcome outcome) with phase := .serving }
  | halted {runs : List Nat} {ticket? : Option Nat} (hphase : c.phase = .halting runs ticket?)
      (hall : ∀ run ∈ runs, (c.outcomeOf? run).isSome = true) (replies : List (Nat × Reply)) :
      Served now v c { c with replies := replies, phase := .ended }

theorem served_of_serve? {now : Nat} (h : c.serve? now v = some c') : c.Served now v c' := by
  unfold serve? at h
  split at h
  · rename_i hserving
    split at h
    · obtain rfl := Option.some.inj h
      exact .halt hserving
    · split at h
      · rename_i hnotices
        obtain rfl := Option.some.inj h
        exact .notice hserving hnotices
      · rename_i hcommands
        obtain rfl := Option.some.inj h
        exact .command hserving hcommands
      · split at h
        · obtain rfl := Option.some.inj h
          exact .halt hserving
        · cases h
  · rename_i hphase
    obtain ⟨outcome, houtcome, rfl⟩ := Option.map_eq_some_iff.1 h
    exact .joined hphase houtcome
  · rename_i ticket? hphase
    split at h
    · rename_i hall
      have hall := List.all_eq_true.1 hall
      cases ticket? with
      | some ticket =>
        obtain rfl := Option.some.inj h
        exact .halted hphase hall _
      | none =>
        obtain rfl := Option.some.inj h
        exact .halted hphase hall c.replies
    · cases h
  · cases h

/-- What can happen to a controller and the vault that its scans work on. -/
inductive Move : Controller × Vault → Controller × Vault → Prop
  /-- Somebody gives a command. -/
  | submit {c : Controller} {v : Vault} (command : Command) :
      Move (c, v) ((c.submit command).2, v)
  /-- The controller is cancelled. -/
  | cancel {c : Controller} {v : Vault} : Move (c, v) (c.cancel, v)
  /-- Nobody can give commands any more. -/
  | abandon {c : Controller} {v : Vault} : Move (c, v) (c.abandon, v)
  /-- The control loop or a scan takes an action. -/
  | act {c c' : Controller} {v v' : Vault} (now : Nat) (action : Action)
      (hstep : c.step? now v action = some (c', v')) : Move (c, v) (c', v')
  /-- The control loop takes a command although notices wait. -/
  | overtake {c : Controller} {v : Vault} {ticket : Nat} {command : Command}
      {rest : List (Nat × Command)} (now : Nat) (hserving : c.phase = .serving)
      (hcommands : c.commands = (ticket, command) :: rest) :
      Move (c, v) (obey { c with commands := rest } now v ticket command, v)
  /-- Something else happens to the vault. -/
  | other {c : Controller} {v v' : Vault} (hfiled : v'.catalog.JobsFiled) : Move (c, v) (c, v')

theorem scan?_eq_some {now run : Nat} (h : c.scan? now v run = some (c', v')) :
    ∃ t s', c.tasks.get? run = some t ∧ t.scan.step? now t.cancelled v = some (s', v') ∧
      c' = c.keep run { t with scan := s' } := by
  unfold scan? at h
  split at h
  · cases h
  · rename_i t ht
    obtain ⟨⟨s', v''⟩, hstep, heq⟩ := Option.map_eq_some_iff.1 h
    obtain ⟨rfl, rfl⟩ := Prod.mk.inj heq
    exact ⟨t, s', ht, hstep, rfl⟩

/-! ### One move and many -/

theorem sound_obey (h : c.Sound) (hfiled : v.catalog.JobsFiled) (hserving : c.phase = .serving)
    (now ticket : Nat) (command : Command) :
    (c.obey now v ticket command).Sound ∧ c.Later (c.obey now v ticket command) := by
  have hanswer : ∀ {c : Controller} (reply : Reply), c.Sound → (c.answer ticket reply).Sound :=
    fun _ h => h.of_eq (fun _ => rfl) rfl rfl rfl rfl
  cases command with
  | resume id =>
    rw [obey]
    cases hresumable : c.resumable v id with
    | error fault => exact ⟨hanswer _ h, .of_work_eq (fun _ => rfl) rfl⟩
    | ok j =>
      -- the job that was found has the identifier that was asked for
      obtain ⟨hfree, hj⟩ := resumable_eq_ok hresumable
      rw [← hfiled id j hj] at hfree
      exact ⟨hanswer _ (h.startRun hserving hfree now),
        (Later.startRun h now j).trans (.of_work_eq (fun _ => rfl) rfl)⟩
  | stop id =>
    rw [obey]
    cases hrun : c.running.get? id with
    | none => exact ⟨hanswer _ h, .of_work_eq (fun _ => rfl) rfl⟩
    | some run => exact ⟨h.stop hserving hrun ticket, .of_work_eq (work?_cancelRun c run) rfl⟩
  | list => exact ⟨hanswer _ h, .of_work_eq (fun _ => rfl) rfl⟩
  | shutdown =>
    obtain ⟨heq, hwork⟩ := halt_eq c (some ticket)
    exact ⟨h.halt hserving _, .of_work_eq hwork (by rw [obey, heq])⟩

/-- The control loop keeps its table. -/
theorem sound_served (h : c.Sound) (hfiled : v.catalog.JobsFiled) {now : Nat}
    (hserved : c.Served now v c') : c'.Sound ∧ c.Later c' := by
  cases hserved with
  | @notice id run rest hserving hnotices =>
    refine ⟨h.reap hnotices, ?_⟩
    rw [(reap_eq { c with notices := rest } id run).1]
    exact .of_work_eq (fun _ => rfl) rfl
  | @command ticket command rest hserving hcommands =>
    have hrest : Sound { c with commands := rest } := h.of_eq (fun _ => rfl) rfl rfl rfl rfl
    obtain ⟨hsound, hlater⟩ := sound_obey hrest hfiled hserving now ticket command
    have htaken : c.Later { c with commands := rest } := .of_work_eq (fun _ => rfl) rfl
    exact ⟨hsound, htaken.trans hlater⟩
  | halt hserving =>
    obtain ⟨heq, hwork⟩ := halt_eq c none
    exact ⟨h.halt hserving none, .of_work_eq hwork (by rw [heq])⟩
  | joined hphase houtcome =>
    exact ⟨h.joined hphase houtcome _, .of_work_eq (fun _ => rfl) rfl⟩
  | halted hphase hall replies =>
    exact ⟨h.halted hphase hall replies, .of_work_eq (fun _ => rfl) rfl⟩

/-- Scans keep to their jobs. -/
theorem sound_scan? (h : c.Sound) (hfiled : v.catalog.JobsFiled) {now run : Nat}
    (hscan : c.scan? now v run = some (c', v')) :
    c'.Sound ∧ v'.catalog.JobsFiled ∧ c.Later c' := by
  obtain ⟨t, s', ht, hstep, rfl⟩ := scan?_eq_some hscan
  obtain ⟨hworks, hid, hsaves⟩ := Scan.step?_saves hstep
  exact ⟨h.keep ht hworks rfl hid, hsaves.filed hfiled, .keep ht hworks rfl⟩

/-- Everything that can happen keeps the invariant. -/
theorem sound_move {x y : Controller × Vault} (h : x.1.Sound) (hfiled : x.2.catalog.JobsFiled)
    (hmove : Move x y) : y.1.Sound ∧ y.2.catalog.JobsFiled ∧ x.1.Later y.1 := by
  cases hmove with
  | submit command =>
    exact ⟨h.of_eq (fun _ => rfl) rfl rfl rfl rfl, hfiled, .of_work_eq (fun _ => rfl) rfl⟩
  | @cancel c v =>
    exact ⟨h.of_eq (work?_cancel c) rfl rfl rfl rfl, hfiled, .of_work_eq (work?_cancel c) rfl⟩
  | abandon =>
    exact ⟨h.of_eq (fun _ => rfl) rfl rfl rfl rfl, hfiled, .of_work_eq (fun _ => rfl) rfl⟩
  | @act c c' v v' now action hstep =>
    cases action with
    | serve =>
      obtain ⟨c'', hserve, heq⟩ := Option.map_eq_some_iff.1 hstep
      obtain ⟨rfl, rfl⟩ := Prod.mk.inj heq
      obtain ⟨hsound, hlater⟩ := sound_served h hfiled (served_of_serve? hserve)
      exact ⟨hsound, hfiled, hlater⟩
    | scan run => exact sound_scan? h hfiled hstep
  | @overtake c v ticket command rest now hserving hcommands =>
    have hserved : c.Served now v _ := .command hserving hcommands
    obtain ⟨hsound, hlater⟩ := sound_served h hfiled hserved
    exact ⟨hsound, hfiled, hlater⟩
  | other hfiled' => exact ⟨h, hfiled', .refl _⟩

/-- The same for a history. -/
theorem sound_history {x y : Controller × Vault} (h : x.1.Sound) (hfiled : x.2.catalog.JobsFiled)
    (hhistory : Relation.ReflTransGen Move x y) :
    y.1.Sound ∧ y.2.catalog.JobsFiled ∧ x.1.Later y.1 := by
  induction hhistory with
  | refl => exact ⟨h, hfiled, .refl _⟩
  | tail _ hmove ih =>
    obtain ⟨hsound, hfiled', hlater⟩ := ih
    obtain ⟨hsound', hfiled'', hlater'⟩ := sound_move hsound hfiled' hmove
    exact ⟨hsound', hfiled'', hlater.trans hlater'⟩

/-! ### Notices and commands -/

theorem obey_queues (c : Controller) (now : Nat) (v : Vault) (ticket : Nat) (command : Command) :
    (c.obey now v ticket command).notices = c.notices ∧
      (c.obey now v ticket command).commands = c.commands := by
  cases command with
  | resume id =>
    rw [obey]
    cases c.resumable v id <;> exact ⟨rfl, rfl⟩
  | stop id =>
    rw [obey]
    cases c.running.get? id <;> exact ⟨rfl, rfl⟩
  | list => exact ⟨rfl, rfl⟩
  | shutdown =>
    rw [obey, (halt_eq c (some ticket)).1]
    exact ⟨rfl, rfl⟩

theorem not_cons_append {α : Type} {a : α} {l more : List α} : l ≠ a :: (l ++ more) := fun h => by
  have hlength := congrArg List.length h
  rw [List.length_cons, List.length_append] at hlength
  omega

/-- Notices and commands only come in at the end, but for the one that is taken. -/
theorem queues_of_served {now : Nat} (h : c.Served now v c') :
    (c'.commands = c.commands ∧ ∃ id run, c.notices = (id, run) :: c'.notices ∧
        c' = reap { c with notices := c'.notices } id run) ∨
      (c'.notices = c.notices ∧ ∃ ticket command, c.commands = (ticket, command) :: c'.commands ∧
        c' = obey { c with commands := c'.commands } now v ticket command) ∨
      (c'.notices = c.notices ∧ c'.commands = c.commands) := by
  cases h with
  | @notice id run rest hserving hnotices =>
    obtain ⟨heq, -⟩ := reap_eq { c with notices := rest } id run
    have hrest : (reap { c with notices := rest } id run).notices = rest := by rw [heq]
    refine .inl ⟨by rw [heq], id, run, ?_, ?_⟩
    · rw [hrest]
      exact hnotices
    · rw [hrest]
  | @command ticket command rest hserving hcommands =>
    obtain ⟨hnotices, hrest⟩ := obey_queues { c with commands := rest } now v ticket command
    dsimp only at hrest
    refine .inr (.inl ⟨hnotices, ticket, command, ?_, ?_⟩)
    · rw [hrest]
      exact hcommands
    · rw [hrest]
  | halt hserving =>
    rw [(halt_eq c none).1]
    exact .inr (.inr ⟨rfl, rfl⟩)
  | joined hphase houtcome => exact .inr (.inr ⟨rfl, rfl⟩)
  | halted hphase hall replies => exact .inr (.inr ⟨rfl, rfl⟩)

/-- Only the control loop takes anything from the queues. -/
theorem served_or_queues (h : Move (c, v) (c', v')) :
    (∃ now, c.Served now v c') ∨
      (∃ more, c'.notices = c.notices ++ more) ∧ ∃ more, c'.commands = c.commands ++ more := by
  have hsame : ∀ {α : Type} (l : List α), ∃ more, l = l ++ more := fun l => ⟨[], l.append_nil.symm⟩
  cases h with
  | submit command => exact .inr ⟨hsame _, _, rfl⟩
  | cancel => exact .inr ⟨hsame _, hsame _⟩
  | abandon => exact .inr ⟨hsame _, hsame _⟩
  | act now action hstep =>
    cases action with
    | serve =>
      obtain ⟨c'', hserve, heq⟩ := Option.map_eq_some_iff.1 hstep
      obtain ⟨rfl, rfl⟩ := Prod.mk.inj heq
      exact .inl ⟨now, served_of_serve? hserve⟩
    | scan run =>
      obtain ⟨t, s', -, -, rfl⟩ := scan?_eq_some hstep
      refine .inr ⟨?_, hsame _⟩
      rw [keep]
      dsimp only
      split
      · exact ⟨_, rfl⟩
      · exact hsame _
  | overtake now hserving hcommands => exact .inl ⟨now, .command hserving hcommands⟩
  | other hfiled => exact .inr ⟨hsame _, hsame _⟩

/-- A notice takes the run's own entry off the table, and nothing else. -/
theorem running_of_notice (hmove : Move (c, v) (c', v')) {id : Uuid} {run : Nat}
    (hnotice : c.notices = (id, run) :: c'.notices) (id' : Uuid) (run' : Nat) :
    c'.running.get? id' = some run' ↔
      c.running.get? id' = some run' ∧ (id', run') ≠ (id, run) := by
  rcases served_or_queues hmove with ⟨now, hserved⟩ | ⟨⟨more, hmore⟩, -⟩
  · -- nothing but a look at the notice makes the queue shorter
    have hlonger : c'.notices ≠ c.notices := fun heq => by
      rw [← heq] at hnotice
      exact List.cons_ne_self _ _ hnotice.symm
    rcases queues_of_served hserved with ⟨-, id₀, run₀, htaken, heq⟩ | ⟨hsame, -⟩ | ⟨hsame, -⟩
    · obtain ⟨rfl, rfl⟩ := Prod.mk.inj (List.cons.inj (htaken.symm.trans hnotice)).1
      rw [heq]
      exact (reap_eq { c with notices := c'.notices } id₀ run₀).2 id' run'
    · exact absurd hsame hlonger
    · exact absurd hsame hlonger
  · rw [hmore] at hnotice
    exact absurd hnotice not_cons_append

/-- Whoever asks for the running jobs is told all that are in the table, in order. -/
theorem reply_of_list (hmove : Move (c, v) (c', v')) {ticket : Nat}
    (hlist : c.commands = (ticket, .list) :: c'.commands) :
    ∃ ids, c'.replies = (ticket, .jobs ids) :: c.replies ∧
      ids.Pairwise (fun id id' => compare id id' = .lt) ∧
      ∀ id, id ∈ ids ↔ c.running.contains id = true := by
  rcases served_or_queues hmove with ⟨now, hserved⟩ | ⟨-, more, hmore⟩
  · have hlonger : c'.commands ≠ c.commands := fun heq => by
      rw [← heq] at hlist
      exact List.cons_ne_self _ _ hlist.symm
    rcases queues_of_served hserved with
      ⟨hsame, -⟩ | ⟨-, ticket₀, command, htaken, heq⟩ | ⟨-, hsame⟩
    · exact absurd hsame hlonger
    · obtain ⟨rfl, rfl⟩ := Prod.mk.inj (List.cons.inj (htaken.symm.trans hlist)).1
      refine ⟨c.running.keys, ?_, c.running.pairwise_keys, fun id => OrderedMap.mem_keys⟩
      rw [heq]
      rfl
    · exact absurd hsame hlonger
  · rw [hmore] at hlist
    exact absurd hlist not_cons_append

/-! ### The controller is in order -/

/-- The table of running scans is right. -/
structure Orderly (c : Controller) : Prop where
  /-- At most one scan may still save a job. -/
  single : ∀ id run run', c.Works run id → c.Works run' id → run = run'
  /-- No two jobs have the same run. -/
  distinct : ∀ id id' run, c.running.get? id = some run → c.running.get? id' = some run → id = id'
  /-- A listed run is either at work, or has ended and its own notice waits. -/
  listed : ∀ id run, c.running.get? id = some run →
    c.Works run id ∧ (id, run) ∉ c.notices ∨ ¬ c.Works run id ∧ (id, run) ∈ c.notices
  /-- What is at work is listed, or the control loop waits for its end. -/
  tracked : ∀ id run, c.Works run id → c.running.get? id = some run ∨ c.phase.Awaits run
  /-- The control loop does not end before its scans. -/
  ended : c.phase = .ended → ∀ id run, ¬ c.Works run id

theorem Sound.orderly (h : c.Sound) : c.Orderly where
  single := h.single
  distinct id id' run hid hid' := by
    have hwork : ∀ id, c.running.get? id = some run → ∃ s, c.work? run = some (id, s) :=
      fun id hid => by
        rcases h.listed id run hid with ⟨s, hs, -⟩ | ⟨⟨s, outcome, hs, -⟩, -⟩
        · exact ⟨s, hs⟩
        · exact ⟨s, hs⟩
    obtain ⟨s, hs⟩ := hwork id hid
    obtain ⟨s', hs'⟩ := hwork id' hid'
    exact (Prod.mk.inj (Option.some.inj (hs.symm.trans hs'))).1
  listed id run hid := by
    rcases h.listed id run hid with hworks | ⟨hover, hmem⟩
    · exact .inl ⟨hworks, fun hmem => hworks.not_over (h.noticed id run hmem)⟩
    · exact .inr ⟨fun hworks => hworks.not_over hover, hmem⟩
  tracked := h.tracked
  ended hended id run hworks := by
    rcases h.tracked id run hworks with hlisted | hawaits
    · rw [h.emptied (hended ▸ trivial) id] at hlisted
      cases hlisted
    · rw [hended] at hawaits
      exact hawaits

/-- **Every history leaves the controller in order.**  Whatever comes then, no run is forgotten,
each new one has a greater number than all before it, and only a scan that is at work now, or a new
one, saves a job; and a notice takes only the entry of its own run off the table, and the answer to
a question for the running jobs is exactly the table. -/
theorem orderly_of_history {settings : ScrubSettings} {v₀ : Vault}
    (hfiled : v₀.catalog.JobsFiled)
    (hhistory : Relation.ReflTransGen Move (.start settings, v₀) (c, v)) :
    c.Orderly ∧
      (∀ c' v', Relation.ReflTransGen Move (c, v) (c', v') →
        (∀ run, c.tasks.contains run = true → c'.tasks.contains run = true) ∧
        (∀ run run', c.tasks.contains run = true → c.tasks.contains run' = false →
          c'.tasks.contains run' = true → run < run') ∧
        (∀ now run c'' v'' id, c'.scan? now v' run = some (c'', v'') →
          v''.catalog.findJob id ≠ v'.catalog.findJob id →
          c.tasks.contains run = true → c.Works run id)) ∧
      ∀ c' v', Move (c, v) (c', v') →
        (∀ id run, c.notices = (id, run) :: c'.notices → ∀ id' run',
          c'.running.get? id' = some run' ↔
            c.running.get? id' = some run' ∧ (id', run') ≠ (id, run)) ∧
        (∀ ticket, c.commands = (ticket, .list) :: c'.commands →
          ∃ ids, c'.replies = (ticket, .jobs ids) :: c.replies ∧
            ids.Pairwise (fun id id' => compare id id' = .lt) ∧
            ∀ id, id ∈ ids ↔ c.running.contains id = true) := by
  obtain ⟨hsound, hfiled, -⟩ := sound_history (.start settings) hfiled hhistory
  -- the last number bounds all that were given out
  have hbound : ∀ run, c.tasks.contains run = true → run ≤ c.lastRun := fun run hrun => by
    rw [contains_tasks] at hrun
    obtain ⟨w, hw⟩ := Option.isSome_iff_exists.1 hrun
    exact hsound.le_lastRun hw
  refine ⟨hsound.orderly, fun c' v' hlater => ?_, fun c' v' hmove => ?_⟩
  · obtain ⟨hsound', -, hlater⟩ := sound_history hsound hfiled hlater
    refine ⟨hlater.kept, fun run run' hrun hnew hrun' => ?_,
      fun now run c'' v'' id hscan hsaved hrun => ?_⟩
    · rcases hlater.fresh run' hrun' with hold | hlt
      · rw [hnew] at hold
        cases hold
      · exact Nat.lt_of_le_of_lt (hbound run hrun) hlt
    · obtain ⟨t, s', ht, hstep, -⟩ := scan?_eq_some hscan
      obtain ⟨hworks, -, hsaves⟩ := Scan.step?_saves hstep
      have hwork := work?_of_task ht
      -- the scan saves the job that it was started for, and that is the only one
      obtain rfl : id = t.job := by
        rw [← hsound'.own run _ _ hwork]
        exact Decidable.byContradiction fun hne => hsaved (hsaves.others id hne)
      refine (hlater.worked run t.job ⟨_, hwork, hworks⟩).resolve_right fun hlt => ?_
      exact absurd (hbound run hrun) (Nat.not_le_of_lt hlt)
  · exact ⟨fun id run hnotice => running_of_notice hmove hnotice,
      fun ticket hlist => reply_of_list hmove hlist⟩

/-! ### A notice that comes too late -/

/-- What can be done with a controller and its vault by themselves. -/
inductive Event where
  | submit (command : Command)
  | act (action : Action)
  | overtake

/-- What an event leads to, if it is possible. -/
def play? (x : Controller × Vault) : Event → Option (Controller × Vault)
  | .submit command => some ((x.1.submit command).2, x.2)
  | .act action => x.1.step? 0 x.2 action
  | .overtake =>
    match x.1.phase, x.1.commands with
    | .serving, (ticket, command) :: rest =>
      some (obey { x.1 with commands := rest } 0 x.2 ticket command, x.2)
    | _, _ => none

theorem move_of_play? {x y : Controller × Vault} {event : Event} (h : play? x event = some y) :
    Move x y := by
  cases event with
  | submit command =>
    obtain rfl := Option.some.inj h
    exact .submit command
  | act action => exact .act 0 action h
  | overtake =>
    unfold play? at h
    dsimp only at h
    split at h
    · rename_i hserving hcommands
      obtain rfl := Option.some.inj h
      exact .overtake 0 hserving hcommands
    · cases h

namespace Sample

open Scrubbing.Sample (vault oneByOne)

theorem jobsFiled : vault.catalog.JobsFiled := by
  have hempty : ∀ {c : Catalog}, c.jobs = .empty → c.JobsFiled := fun hjobs id j hj => by
    rw [Catalog.findJob, hjobs] at hj
    cases hj
  exact (Vault.Saves.saveJob { vault with catalog := { vault.catalog with jobs := .empty } }
    (j := Scrubbing.Sample.job) rfl).filed (hempty rfl)

/-- A job is stopped, and resumed before the notice of its first run has been looked at. -/
def events : List Event :=
  [.submit (.resume ⟨7⟩), .act .serve, .submit (.stop ⟨7⟩), .act .serve, .act (.scan 1),
    .act (.scan 1), .act .serve, .submit (.resume ⟨7⟩), .overtake]

theorem resumes : ((events.foldlM play? (Controller.start oneByOne, vault)).map fun x =>
    (x.1.running.get? ⟨7⟩, x.1.notices)) = some (some 2, [(⟨7⟩, 1)]) := by
  decide +kernel

end Sample

/-- The scan of the first run has ended, its notice waits, and the second run is at work: the notice
will not take its entry. -/
theorem orderly_of_history_sample :
    ∃ c v, Relation.ReflTransGen Move (.start Scrubbing.Sample.oneByOne, Scrubbing.Sample.vault)
        (c, v) ∧
      c.running.get? ⟨7⟩ = some 2 ∧ c.notices = [(⟨7⟩, 1)] ∧ c.Orderly ∧
      ∀ c' v', Move (c, v) (c', v') → c'.notices = [] → c'.running.get? ⟨7⟩ = some 2 := by
  obtain ⟨⟨c, v⟩, hplay, hstate⟩ := Option.map_eq_some_iff.1 Sample.resumes
  obtain ⟨hrunning, hnotices⟩ := Prod.mk.inj hstate
  have hhistory : Relation.ReflTransGen Move
      (.start Scrubbing.Sample.oneByOne, Scrubbing.Sample.vault) (c, v) := by
    refine reflTransGen_of_foldlM ?_ hplay
    exact fun x event y hplay => move_of_play? hplay
  obtain ⟨horderly, -, hmoves⟩ := orderly_of_history Sample.jobsFiled hhistory
  refine ⟨c, v, hhistory, hrunning, hnotices, horderly, fun c' v' hmove htaken => ?_⟩
  have hnotice : c.notices = (⟨7⟩, 1) :: c'.notices := by rw [hnotices, htaken]
  exact ((hmoves c' v' hmove).1 ⟨7⟩ 1 hnotice ⟨7⟩ 2).2 ⟨hrunning, by decide⟩

end Controller

end BlobVault
