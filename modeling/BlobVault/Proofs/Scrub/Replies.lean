import BlobVault.Proofs.History
import BlobVault.Proofs.Scrub.Progress

/-!
# Answers agree with what is saved

Commands are given, scans take their steps, jobs and blobs come in, and when a control loop has
ended another one may take over.  However these follow one another, the saved jobs only move
forward; and whoever is told that a scan was stopped, or that all were, finds its progress saved.

* `Controller.replies_obey`, `Controller.replies_of_serve?` : what is answered at once, and what only
  after a scan has ended;
* `Desk` : a controller, its vault, and what it was asked for;
* `Desk.Sound` : what every step keeps: the saved jobs agree with their last runs, and whoever waits
  for the end of a run waits for the last run of the job that he wanted stopped;
* `Desk.progress_of_history` : **after every history the saved jobs move only forward, and the
  answers agree with them.**
-/

namespace BlobVault

namespace Controller

variable {c c' : Controller} {v v' : Vault}

/-! ### What is answered, and when -/

/-- A command is answered at once or later.  No scan's end is answered at once, and nothing but a
resumed job is said to be done. -/
theorem replies_obey {now ticket ticket' : Nat} {command : Command} {reply : Reply}
    (h : (c.obey now v ticket command).replies = (ticket', reply) :: c.replies) :
    ticket' = ticket ∧ (∀ outcome, reply ≠ .outcome outcome) ∧
      (reply = .done → ∃ id, command = .resume id) := by
  -- what is answered at once is the last reply
  have hhead : ∀ {reply₀ : Reply}, (ticket, reply₀) :: c.replies = (ticket', reply) :: c.replies →
      (∀ outcome, reply₀ ≠ .outcome outcome) →
      (reply₀ = .done → ∃ id, command = .resume id) →
      ticket' = ticket ∧ (∀ outcome, reply ≠ .outcome outcome) ∧
        (reply = .done → ∃ id, command = .resume id) := fun heq hnot hdone => by
    obtain ⟨rfl, rfl⟩ := Prod.mk.inj (List.cons.inj heq).1
    exact ⟨rfl, hnot, hdone⟩
  cases command with
  | resume id =>
    simp only [obey] at h
    cases hresumable : c.resumable v id with
    | error fault =>
      rw [hresumable] at h
      exact hhead h (by simp) fun _ => ⟨id, rfl⟩
    | ok j =>
      rw [hresumable] at h
      exact hhead h (by simp) fun _ => ⟨id, rfl⟩
  | stop id =>
    simp only [obey] at h
    cases hrun : c.running.get? id with
    | none =>
      rw [hrun] at h
      exact hhead h (by simp) (by simp)
    | some run =>
      rw [hrun] at h
      exact absurd h.symm (List.cons_ne_self _ _)
  | list => exact hhead h (by simp) (by simp)
  | shutdown =>
    rw [obey, (halt_eq c (some ticket)).1] at h
    exact absurd h.symm (List.cons_ne_self _ _)

/-- The end of a scan is answered by whoever has waited for it, and once the control loop has halted
all scans, it ends. -/
theorem replies_of_serve? {now ticket : Nat} {reply : Reply} (h : c.serve? now v = some c')
    (hreply : c'.replies = (ticket, reply) :: c.replies) :
    (∃ command rest, c.commands = (ticket, command) :: rest ∧
        (∀ outcome, reply ≠ .outcome outcome) ∧ (reply = .done → ∃ id, command = .resume id)) ∨
      (∃ run outcome, c.phase = .joining run ticket ∧ c.outcomeOf? run = some outcome ∧
        reply = .outcome outcome ∧
        c' = { c.answer ticket (.outcome outcome) with phase := .serving }) ∨
      reply = .done ∧ c'.phase = .ended := by
  have hsame : c'.replies ≠ c.replies := fun heq =>
    List.cons_ne_self _ _ (hreply.symm.trans heq)
  unfold serve? at h
  split at h
  · have hhalt : ∀ ticket?, c' ≠ c.halt ticket? := by
      rintro ticket? rfl
      exact hsame (by rw [(halt_eq c ticket?).1])
    split at h
    · exact absurd (Option.some.inj h).symm (hhalt none)
    · split at h
      · obtain rfl := Option.some.inj h
        exact absurd (by rw [(reap_eq _ _ _).1]) hsame
      · rename_i ticket₀ command rest _ hcommands
        obtain rfl := Option.some.inj h
        obtain ⟨rfl, hnot, hdone⟩ := replies_obey hreply
        exact .inl ⟨command, rest, hcommands, hnot, hdone⟩
      · split at h
        · exact absurd (Option.some.inj h).symm (hhalt none)
        · cases h
  · rename_i run ticket₀ hphase
    obtain ⟨outcome, houtcome, rfl⟩ := Option.map_eq_some_iff.1 h
    obtain ⟨rfl, rfl⟩ := Prod.mk.inj (List.cons.inj hreply).1
    exact .inr (.inl ⟨run, outcome, hphase, houtcome, rfl, rfl⟩)
  · split at h
    · split at h
      · obtain rfl := Option.some.inj h
        obtain ⟨-, rfl⟩ := Prod.mk.inj (List.cons.inj hreply).1
        exact .inr (.inr ⟨rfl, rfl⟩)
      · obtain rfl := Option.some.inj h
        exact absurd rfl hsame
    · cases h
  · cases h

/-- The control loop gives out no tickets. -/
theorem issued_of_served {now : Nat} (h : c.Served now v c') : c'.issued = c.issued := by
  cases h with
  | @notice id run rest => rw [(reap_eq { c with notices := rest } id run).1]
  | @command ticket command rest =>
    cases command with
    | resume id =>
      rw [obey]
      cases Controller.resumable { c with commands := rest } v id <;> rfl
    | stop id =>
      rw [obey]
      cases OrderedMap.get? c.running id <;> rfl
    | list => rfl
    | shutdown => rw [obey, (halt_eq { c with commands := rest } (some ticket)).1]
  | halt => rw [(halt_eq c none).1]
  | joined => rfl
  | halted => rfl

/-- Whoever begins to wait wants a job stopped, and waits for its last run. -/
theorem latest_of_joining (h : c.Faithful v) (hserving : c.phase = .serving)
    {now ticket run ticket' : Nat} {command : Command}
    (hphase : (c.obey now v ticket command).phase = .joining run ticket') :
    ticket' = ticket ∧ ∃ id s, command = .stop id ∧ (c.obey now v ticket command).Latest run id s := by
  have hnot : ∀ {c' : Controller}, c'.phase = c.phase → c'.phase ≠ .joining run ticket' := by
    intro c' hsame heq
    rw [hsame, hserving] at heq
    cases heq
  cases command with
  | resume id =>
    simp only [obey] at hphase
    cases hresumable : c.resumable v id <;>
    · rw [hresumable] at hphase
      exact absurd hphase (hnot rfl)
  | stop id =>
    simp only [obey] at hphase ⊢
    cases hrun : c.running.get? id with
    | none =>
      rw [hrun] at hphase
      exact absurd hphase (hnot rfl)
    | some run₀ =>
      rw [hrun] at hphase
      obtain ⟨rfl, rfl⟩ := Phase.joining.inj hphase
      have hwork : ∃ s, c.work? run₀ = some (id, s) := by
        rcases h.sound.listed id run₀ hrun with ⟨s, hs, -⟩ | ⟨⟨s, outcome, hs, -⟩, -⟩
        · exact ⟨s, hs⟩
        · exact ⟨s, hs⟩
      obtain ⟨s, hs⟩ := hwork
      refine ⟨rfl, id, s, rfl, Iff.mpr (Latest.of_work_eq fun run => ?_)
        (h.newest run₀ id s hs (.inr hrun))⟩
      exact work?_cancelRun c run₀ run
  | list => exact absurd hphase (hnot rfl)
  | shutdown =>
    rw [obey, (halt_eq c (some ticket)).1] at hphase
    cases hphase

end Controller

theorem Vault.createJob_eq_ok {v v' : Vault} {volume : VolumeId} {now : Nat} {j : ScrubJob}
    (h : v.createJob volume now = (.ok j, v')) :
    v.Saves j.id v' ∧ v'.catalog.records = v.catalog.records := by
  unfold createJob at h
  split at h
  · cases h
  · obtain ⟨hj, rfl⟩ := Prod.mk.inj h
    obtain rfl := Except.ok.inj hj
    exact ⟨.ofSaved rfl rfl, rfl⟩

/-- A controller, the vault that its scans work on, and what it was asked for: the command of each
ticket. -/
structure Desk where
  controller : Controller
  vault : Vault
  asked : List Controller.Command

namespace Desk

open Controller (Action Command Reply)

/-- What can happen, one thing at a time. -/
inductive Step : Desk → Desk → Prop
  /-- Somebody gives a command. -/
  | submit {c : Controller} {v : Vault} {asked : List Command} (command : Command) :
      Step ⟨c, v, asked⟩ ⟨(c.submit command).2, v, asked ++ [command]⟩
  /-- The controller is cancelled. -/
  | cancel {c : Controller} {v : Vault} {asked : List Command} :
      Step ⟨c, v, asked⟩ ⟨c.cancel, v, asked⟩
  /-- Nobody can give commands any more. -/
  | abandon {c : Controller} {v : Vault} {asked : List Command} :
      Step ⟨c, v, asked⟩ ⟨c.abandon, v, asked⟩
  /-- The control loop or a scan takes an action. -/
  | act {c c' : Controller} {v v' : Vault} {asked : List Command} (now : Nat) (action : Action)
      (hstep : c.step? now v action = some (c', v')) : Step ⟨c, v, asked⟩ ⟨c', v', asked⟩
  /-- The control loop takes a command although notices wait. -/
  | overtake {c : Controller} {v : Vault} {asked : List Command} {ticket : Nat} {command : Command}
      {rest : List (Nat × Command)} (now : Nat) (hserving : c.phase = .serving)
      (hcommands : c.commands = (ticket, command) :: rest) :
      Step ⟨c, v, asked⟩ ⟨Controller.obey { c with commands := rest } now v ticket command, v, asked⟩
  /-- A new job is recorded, under an identifier that no job has. -/
  | create {c : Controller} {v v' : Vault} {asked : List Command} {volume : VolumeId} {now : Nat}
      {j : ScrubJob} (hcreate : v.createJob volume now = (.ok j, v'))
      (hfresh : ∀ j', v.catalog.findJob j.id ≠ .ok j') : Step ⟨c, v, asked⟩ ⟨c, v', asked⟩
  /-- Something else happens to the vault, such as a write or a copy of a blob. -/
  | other {c : Controller} {v v' : Vault} {asked : List Command}
      (hfiled : v.catalog.Filed → v'.catalog.Filed)
      (hjobs : ∀ id, v'.catalog.findJob id = v.catalog.findJob id) :
      Step ⟨c, v, asked⟩ ⟨c, v', asked⟩
  /-- The control loop has ended, and a new one takes over. -/
  | restart {c : Controller} {v : Vault} {asked : List Command} (settings : ScrubSettings)
      (hended : c.phase = .ended) : Step ⟨c, v, asked⟩ ⟨.start settings, v, []⟩

/-- The saved jobs agree with their last runs, the commands that wait stand as they were given, and
whoever waits for the end of a run wants its job stopped. -/
structure Sound (x : Desk) : Prop where
  filed : x.vault.catalog.Filed
  jobsFiled : x.vault.catalog.JobsFiled
  faithful : x.controller.Faithful x.vault
  issued : x.controller.issued = x.asked.length
  queued : ∀ ticket command, (ticket, command) ∈ x.controller.commands →
    x.asked[ticket]? = some command
  joining : ∀ run ticket, x.controller.phase = .joining run ticket →
    ∃ id s, x.asked[ticket]? = some (.stop id) ∧ x.controller.Latest run id s

namespace Sound

variable {x y : Desk}

theorem start (settings : ScrubSettings) {v : Vault} (hfiled : v.catalog.Filed)
    (hjobs : v.catalog.JobsFiled) : Sound ⟨.start settings, v, []⟩ where
  filed := hfiled
  jobsFiled := hjobs
  faithful := .start settings v
  issued := rfl
  queued _ _ hmem := by cases hmem
  joining _ _ hphase := by cases hphase

/-- Nothing is done but that the controller or its scans are asked to come to an end. -/
theorem asked {c c' : Controller} {v : Vault} {asked : List Command} (h : Sound ⟨c, v, asked⟩)
    (hwork : ∀ run, c'.work? run = c.work? run) (hlast : c'.lastRun = c.lastRun)
    (hrunning : c'.running = c.running) (hnotices : c'.notices = c.notices)
    (hphase : c'.phase = c.phase) (hissued : c'.issued = c.issued)
    (hcommands : c'.commands = c.commands) : Sound ⟨c', v, asked⟩ where
  filed := h.filed
  jobsFiled := h.jobsFiled
  faithful := h.faithful.of_eq hwork hlast hrunning hnotices hphase
  issued := hissued.trans h.issued
  queued ticket command hmem := h.queued ticket command (hcommands ▸ hmem)
  joining run ticket hjoining := by
    obtain ⟨id, s, hasked, hlatest⟩ := h.joining run ticket (hphase ▸ hjoining)
    exact ⟨id, s, hasked, Iff.mpr (Controller.Latest.of_work_eq hwork) hlatest⟩

/-- The control loop takes an action: it takes a command at most, and only for a command does it
begin to wait. -/
theorem served {c c' : Controller} {v : Vault} {asked : List Command} {now : Nat}
    (h : Sound ⟨c, v, asked⟩) (hserved : c.Served now v c') : Sound ⟨c', v, asked⟩ where
  filed := h.filed
  jobsFiled := h.jobsFiled
  faithful := h.faithful.served h.jobsFiled hserved
  issued := (Controller.issued_of_served hserved).trans h.issued
  queued ticket command hmem := by
    refine h.queued ticket command ?_
    rcases Controller.queues_of_served hserved with
      ⟨hsame, -⟩ | ⟨-, ticket₀, command₀, hcommands, -⟩ | ⟨-, hsame⟩
    · exact hsame ▸ hmem
    · rw [hcommands]
      exact List.mem_cons_of_mem _ hmem
    · exact hsame ▸ hmem
  joining run ticket hphase := by
    cases hserved with
    | @notice id run₀ rest hserving hnotices =>
      rw [(Controller.reap_eq { c with notices := rest } id run₀).1] at hphase
      cases hserving.symm.trans hphase
    | @command ticket₀ command rest hserving hcommands =>
      have hrest : Controller.Faithful { c with commands := rest } v :=
        h.faithful.of_eq (fun _ => rfl) rfl rfl rfl rfl
      obtain ⟨rfl, id, s, rfl, hlatest⟩ := Controller.latest_of_joining hrest hserving hphase
      exact ⟨id, s, h.queued ticket (.stop id) (hcommands ▸ List.mem_cons_self), hlatest⟩
    | halt hserving =>
      rw [(Controller.halt_eq c none).1] at hphase
      cases hphase
    | joined => cases hphase
    | halted => cases hphase

/-- A scan takes a step: whoever waits for its end, waits for the last run of the job as before. -/
theorem scan {c c' : Controller} {v v' : Vault} {asked : List Command} {now run : Nat}
    (h : Sound ⟨c, v, asked⟩) (hscan : c.scan? now v run = some (c', v')) :
    Sound ⟨c', v', asked⟩ ∧ v.Advances v' := by
  obtain ⟨hfaithful, hadvances⟩ := h.faithful.scan h.filed h.jobsFiled hscan
  obtain ⟨-, hjobs, -⟩ := Controller.sound_scan? h.faithful.sound h.jobsFiled hscan
  obtain ⟨t, s', ht, hstep, rfl⟩ := Controller.scan?_eq_some hscan
  have hrecords := (Scan.stepped_of_step? hstep).records
  refine ⟨⟨fun r b hb => h.filed r b (hrecords ▸ hb), hjobs, hfaithful, h.issued, h.queued, ?_⟩,
    hadvances⟩
  intro run' ticket hphase
  obtain ⟨id, s, hasked, hlatest⟩ := h.joining run' ticket hphase
  by_cases hrun : run' = run
  · subst hrun
    obtain ⟨rfl, rfl⟩ := Prod.mk.inj
      (Option.some.inj (hlatest.work.symm.trans (Controller.work?_of_task ht)))
    refine ⟨t.job, s', hasked, (Controller.Latest.keep_iff ht).2 ?_⟩
    rw [if_pos rfl]
    exact ⟨rfl, rfl, hlatest⟩
  · refine ⟨id, s, hasked, (Controller.Latest.keep_iff ht).2 ?_⟩
    rw [if_neg hrun]
    exact hlatest

/-- Everything that can happen keeps the invariant, and moves the saved jobs forward. -/
theorem step (h : x.Sound) (hstep : Step x y) : y.Sound ∧ x.vault.Advances y.vault := by
  have hgrows : ∀ {asked more : List Command} {ticket : Nat} {command : Command},
      asked[ticket]? = some command → (asked ++ more)[ticket]? = some command := fun hasked =>
    (List.getElem?_append_left (List.getElem?_eq_some_iff.1 hasked).1).trans hasked
  cases hstep with
  | @submit c v asked command =>
    refine ⟨⟨h.filed, h.jobsFiled, h.faithful.of_eq (fun _ => rfl) rfl rfl rfl rfl, ?_, ?_, ?_⟩,
      .refl v⟩
    · rw [List.length_append]
      exact congrArg (· + 1) h.issued
    · intro ticket command' hmem
      rcases List.mem_append.1 hmem with hold | hnew
      · exact hgrows (h.queued ticket command' hold)
      · obtain ⟨rfl, rfl⟩ := Prod.mk.inj (List.mem_singleton.1 hnew)
        rw [h.issued]
        exact List.getElem?_concat_length
    · intro run ticket hphase
      obtain ⟨id, s, hasked, hlatest⟩ := h.joining run ticket hphase
      exact ⟨id, s, hgrows hasked, hlatest.work, hlatest.last⟩
  | @cancel c v asked =>
    exact ⟨h.asked (Controller.work?_cancel c) rfl rfl rfl rfl rfl rfl, .refl v⟩
  | abandon => exact ⟨h.asked (fun _ => rfl) rfl rfl rfl rfl rfl rfl, .refl _⟩
  | @act c c' v v' asked now action hstep =>
    cases action with
    | serve =>
      obtain ⟨c'', hserve, heq⟩ := Option.map_eq_some_iff.1 hstep
      obtain ⟨rfl, rfl⟩ := Prod.mk.inj heq
      exact ⟨h.served (Controller.served_of_serve? hserve), .refl v⟩
    | scan run => exact h.scan hstep
  | @overtake c v asked ticket command rest now hserving hcommands =>
    have hserved : c.Served now v _ := .command hserving hcommands
    exact ⟨h.served hserved, .refl v⟩
  | @create c v v' asked volume now j hcreate hfresh =>
    obtain ⟨hsaves, hrecords⟩ := Vault.createJob_eq_ok hcreate
    obtain ⟨hfaithful, hadvances⟩ := h.faithful.recorded hsaves hfresh
    exact ⟨⟨fun r b hb => h.filed r b (hrecords ▸ hb), hsaves.filed h.jobsFiled, hfaithful,
      h.issued, h.queued, h.joining⟩, hadvances⟩
  | @other c v v' asked hfiled hjobs =>
    refine ⟨⟨hfiled h.filed, fun id j hj => h.jobsFiled id j (hjobs id ▸ hj), ?_, h.issued, h.queued,
      h.joining⟩, .ofSame hjobs⟩
    exact h.faithful.of_work_eq h.faithful.sound (fun _ => rfl) (fun _ _ hrun => hrun) hjobs
  | @restart c v asked settings hended => exact ⟨.start settings h.filed h.jobsFiled, .refl v⟩

/-- The same for a history. -/
theorem history (h : x.Sound) (hhistory : Relation.ReflTransGen Step x y) :
    y.Sound ∧ x.vault.Advances y.vault := by
  induction hhistory with
  | refl => exact ⟨h, .refl _⟩
  | tail _ hstep ih =>
    obtain ⟨hsound, hadvances⟩ := ih
    obtain ⟨hsound', hadvances'⟩ := hsound.step hstep
    exact ⟨hsound', hadvances.trans hadvances'⟩

end Sound

variable {x y : Desk}

/-- What a scan that has ended leaves behind: its progress is saved, and the job is completed unless
the scan was stopped. -/
structure Settled (v : Vault) (id : Uuid) (s : Scan) (outcome : Scan.Outcome) : Prop where
  ended : s.phase = .ended outcome
  saved : v.catalog.findJob id = .ok s.job
  completed : s.job.isCompleted = true ↔ outcome ≠ .stopped

/-- The last run of a job, once it has ended, has left everything as it should be. -/
theorem Sound.settled (h : x.Sound) {run : Nat} {id : Uuid} {s : Scan} {outcome : Scan.Outcome}
    (hlatest : x.controller.Latest run id s) (houtcome : s.phase.outcome? = some outcome) :
    Settled x.vault id s outcome := by
  obtain ⟨j, hj, hagrees⟩ := h.faithful.saved run id s hlatest
  obtain ⟨rfl, hcompleted⟩ := hagrees.ended outcome houtcome
  exact ⟨Scan.Phase.outcome?_eq_some.1 houtcome, hj, hcompleted⟩

/-- A reply is given at once; or it says how the last scan of a job has ended that was to be
stopped; or all scans are halted, and the control loop ends. -/
theorem Sound.replied (h : x.Sound) (hstep : Step x y) {ticket : Nat} {reply : Reply}
    (hreply : y.controller.replies = (ticket, reply) :: x.controller.replies) :
    (∃ command, x.asked[ticket]? = some command ∧ (∀ outcome, reply ≠ .outcome outcome) ∧
        (reply = .done → ∃ id, command = .resume id)) ∨
      (∃ id run s outcome, reply = .outcome outcome ∧ x.asked[ticket]? = some (.stop id) ∧
        y.controller.Latest run id s ∧ s.phase.outcome? = some outcome) ∨
      reply = .done ∧ y.controller.phase = .ended := by
  have hsame : y.controller.replies ≠ x.controller.replies := fun heq =>
    List.cons_ne_self _ _ (hreply.symm.trans heq)
  cases hstep with
  | @act c c' v v' asked now action hact =>
    cases action with
    | scan run =>
      obtain ⟨t, s', -, -, rfl⟩ := Controller.scan?_eq_some hact
      exact absurd rfl hsame
    | serve =>
      obtain ⟨c'', hserve, heq⟩ := Option.map_eq_some_iff.1 hact
      obtain ⟨rfl, rfl⟩ := Prod.mk.inj heq
      rcases Controller.replies_of_serve? hserve hreply with
        ⟨command, rest, hcommands, hcauses⟩ | ⟨run, outcome, hphase, houtcome, rfl, rfl⟩ | hended
      · have hasked := h.queued ticket command (hcommands ▸ List.mem_cons_self)
        exact .inl ⟨command, hasked, hcauses⟩
      · obtain ⟨id, s, hasked, hlatest⟩ := h.joining run ticket hphase
        rw [Controller.outcomeOf?_eq, hlatest.work] at houtcome
        exact .inr (.inl ⟨id, run, s, outcome, rfl, hasked, ⟨hlatest.work, hlatest.last⟩, houtcome⟩)
      · exact .inr (.inr hended)
  | @overtake c v asked ticket' command rest now hserving hcommands =>
    obtain ⟨rfl, hcauses⟩ := Controller.replies_obey hreply
    have hasked := h.queued ticket command (hcommands ▸ List.mem_cons_self)
    exact .inl ⟨command, hasked, hcauses⟩
  | restart settings hended => cases hreply
  | _ => exact absurd rfl hsame

/-- Whoever is told how a scan has ended wanted its job stopped, and finds it saved. -/
theorem Sound.outcome (h : x.Sound) (hstep : Step x y) {ticket : Nat} {outcome : Scan.Outcome}
    (hreply : y.controller.replies = (ticket, .outcome outcome) :: x.controller.replies) :
    ∃ id run s, x.asked[ticket]? = some (.stop id) ∧ y.controller.Latest run id s ∧
      Settled y.vault id s outcome := by
  rcases h.replied hstep hreply with
    ⟨command, -, hnot, -⟩ | ⟨id, run, s, outcome', heq, hasked, hlatest, houtcome⟩ | ⟨heq, -⟩
  · exact absurd rfl (hnot outcome)
  · cases heq
    exact ⟨id, run, s, hasked, hlatest, (h.step hstep).1.settled hlatest houtcome⟩
  · cases heq

/-- Whoever has asked for the end of all scans is told when the control loop has ended. -/
theorem Sound.halted (h : x.Sound) (hstep : Step x y) {ticket : Nat}
    (hreply : y.controller.replies = (ticket, .done) :: x.controller.replies)
    (hasked : x.asked[ticket]? = some .shutdown) : y.controller.phase = .ended := by
  rcases h.replied hstep hreply with
    ⟨command, hasked', -, hdone⟩ | ⟨id, run, s, outcome, heq, -⟩ | ⟨-, hended⟩
  · -- what is done at once is to resume a job
    obtain ⟨id, rfl⟩ := hdone rfl
    cases hasked.symm.trans hasked'
  · cases heq
  · exact hended

/-- **After every history the saved jobs only move forward, and the answers agree with them.**  The
cursor, the bytes and the errors of a saved job never go back, and a completed job never changes.
When it is answered that a scan has ended, the job that was to be stopped is saved as the scan has
left it, and is completed unless the scan was stopped.  When it is answered that all scans are
halted, none is at work, and every job is saved as its last scan has left it. -/
theorem progress_of_history {settings : ScrubSettings} {v₀ : Vault} (hfiled : v₀.catalog.Filed)
    (hjobs : v₀.catalog.JobsFiled)
    (hhistory : Relation.ReflTransGen Step ⟨.start settings, v₀, []⟩ x) :
    (∀ y, Relation.ReflTransGen Step x y → x.vault.Advances y.vault) ∧
      ∀ y, Step x y → ∀ ticket,
        (∀ outcome, y.controller.replies = (ticket, .outcome outcome) :: x.controller.replies →
          ∃ id run s, x.asked[ticket]? = some (.stop id) ∧ y.controller.Latest run id s ∧
            Settled y.vault id s outcome) ∧
        (y.controller.replies = (ticket, .done) :: x.controller.replies →
          x.asked[ticket]? = some .shutdown →
          (∀ run id, ¬ y.controller.Works run id) ∧
            ∀ run id s, y.controller.Latest run id s → ∃ outcome, Settled y.vault id s outcome) := by
  have hsound := ((Sound.start settings hfiled hjobs).history hhistory).1
  refine ⟨fun y hlater => (hsound.history hlater).2, fun y hstep ticket => ⟨?_, ?_⟩⟩
  · intro outcome hreply
    exact hsound.outcome hstep hreply
  · intro hreply hasked
    have hsound' := (hsound.step hstep).1
    have hidle := hsound'.faithful.sound.orderly.ended (hsound.halted hstep hreply hasked)
    refine ⟨fun run id => hidle id run, fun run id s hlatest => ?_⟩
    cases houtcome : s.phase.outcome? with
    | none => exact absurd ⟨s, hlatest.work, houtcome⟩ (hidle id run)
    | some outcome => exact ⟨outcome, hsound'.settled hlatest houtcome⟩

/-! ### A job that is stopped, and goes on under another controller -/

/-- What can be done at a desk. -/
inductive Event where
  | submit (command : Command)
  | act (action : Action)
  | restart

/-- What an event leads to, if it is possible. -/
def play? (settings : ScrubSettings) (x : Desk) : Event → Option Desk
  | .submit command =>
    some ⟨(x.controller.submit command).2, x.vault, x.asked ++ [command]⟩
  | .act action => (x.controller.step? 0 x.vault action).map fun (c, v) => ⟨c, v, x.asked⟩
  | .restart => if x.controller.phase = .ended then some ⟨.start settings, x.vault, []⟩ else none

theorem step_of_play? {settings : ScrubSettings} {event : Event}
    (h : x.play? settings event = some y) : Step x y := by
  obtain ⟨c, v, asked⟩ := x
  cases event with
  | submit command =>
    obtain rfl := Option.some.inj h
    exact .submit command
  | act action =>
    obtain ⟨⟨c', v'⟩, hstep, rfl⟩ := Option.map_eq_some_iff.1 h
    exact .act 0 action hstep
  | restart =>
    unfold play? at h
    dsimp only at h
    split at h
    · rename_i hended
      obtain rfl := Option.some.inj h
      exact .restart settings hended
    · cases h

namespace Sample

/-- A scan has dealt with the first blob, is stopped, and comes to its end. -/
def stopped : List Event :=
  [.submit (.resume ⟨7⟩), .act .serve, .act (.scan 1), .act (.scan 1), .act (.scan 1),
    .submit (.stop ⟨7⟩), .act .serve, .act (.scan 1), .act (.scan 1), .act (.scan 1)]

/-- All scans are halted; another controller takes over, and finishes the job. -/
def finished : List Event :=
  [.act .serve, .submit .shutdown, .act .serve, .act .serve, .restart, .submit (.resume ⟨7⟩),
    .act .serve, .act (.scan 1), .act (.scan 1), .act (.scan 1), .act (.scan 1), .act (.scan 1),
    .act (.scan 1)]

/-- The desk at first. -/
def desk : Desk := ⟨.start Scrubbing.Sample.oneByOne, Scrubbing.Sample.vault, []⟩

theorem plays : ((stopped.foldlM (play? Scrubbing.Sample.oneByOne) desk).bind fun x =>
    (x.play? Scrubbing.Sample.oneByOne (.act .serve)).bind fun y =>
      (finished.foldlM (play? Scrubbing.Sample.oneByOne) y).map fun z =>
        (x.asked[1]?,
          decide (y.controller.replies = (1, .outcome .stopped) :: x.controller.replies),
          (z.vault.catalog.findJob ⟨7⟩).toOption.map ScrubJob.isCompleted)) =
      some (some (.stop ⟨7⟩), true, some true) := by
  decide +kernel

end Sample

/-- The first of two blobs is checked, and the job is stopped: that is answered, and saved.  Another
controller goes on from there. -/
theorem progress_of_history_sample :
    ∃ x y z, Relation.ReflTransGen Step Sample.desk x ∧ Step x y ∧ Relation.ReflTransGen Step y z ∧
      y.controller.replies = (1, .outcome .stopped) :: x.controller.replies ∧
      (∃ s, Settled y.vault ⟨7⟩ s .stopped ∧
        ∃ j, z.vault.catalog.findJob ⟨7⟩ = .ok j ∧ s.job.Forward j ∧ j.isCompleted = true) := by
  obtain ⟨x, hstopped, hx⟩ := Option.bind_eq_some_iff.1 Sample.plays
  obtain ⟨y, hanswer, hy⟩ := Option.bind_eq_some_iff.1 hx
  obtain ⟨z, hfinished, hz⟩ := Option.map_eq_some_iff.1 hy
  simp only [Prod.mk.injEq] at hz
  obtain ⟨hasked, hreply, hcompleted⟩ := hz
  have hhistory : ∀ {x y : Desk} {events : List Event},
      events.foldlM (play? Scrubbing.Sample.oneByOne) x = some y → Relation.ReflTransGen Step x y := by
    intro x y events hplay
    refine reflTransGen_of_foldlM ?_ hplay
    exact fun x event y hplay => step_of_play? hplay
  have hstep : Step x y := step_of_play? hanswer
  have hreply : y.controller.replies = (1, .outcome .stopped) :: x.controller.replies :=
    of_decide_eq_true hreply
  have hfiled := Scrubbing.Sample.filed
  have hjobs := Controller.Sample.jobsFiled
  obtain ⟨-, hanswers⟩ := progress_of_history hfiled hjobs (hhistory hstopped)
  obtain ⟨hadvances, -⟩ := progress_of_history hfiled hjobs ((hhistory hstopped).tail hstep)
  obtain ⟨id, run, s, hstop, -, hsettled⟩ := (hanswers y hstep 1).1 .stopped hreply
  cases hasked.symm.trans hstop
  obtain ⟨j, hj, hforward, -⟩ := hadvances z (hhistory hfinished) ⟨7⟩ s.job hsettled.saved
  rw [hj] at hcompleted
  exact ⟨x, y, z, hhistory hstopped, hstep, hhistory hfinished, hreply, s, hsettled, j, hj, hforward,
    Option.some.inj hcompleted⟩

end Desk

end BlobVault
