import BlobVault.Proofs.Replication.Accounting
import BlobVault.Proofs.Storage.Confinement
import Mathlib.Logic.Function.Basic

/-!
# Replication in small steps

Between any two of the things that a worker does for one copy, the feeder and the other workers can
do something, and replication can be cancelled.  A scene is replication with the vault, how far each
copy has come, and what has happened so far.  Only whether a worker may begin is looked up and acted
upon at once; everyone else may do the next thing without having noticed a cancellation.

* `Turn` : what the feeder and the workers do when no copy is concerned;
* `Scene.play?` : what can happen next;
* `Scene.happens_of_step` : **all that can happen to copies, the vault and the log**;
* `Scene.runs_of_actions` : what replication does in actions is made of what can happen in a scene.
-/

namespace BlobVault

namespace Replication

/-! ### Turns -/

/-- What the feeder and the workers do when no copy is concerned. -/
inductive Turn where
  | cancel
  /-- The feeder searches in a vault that it has seen some time ago. -/
  | search (now : Nat) (seen : Vault)
  | send
  | close
  /-- The feeder releases one of the jobs that it will not send. -/
  | giveUp
  /-- The feeder releases one of the jobs that no worker has taken. -/
  | drain
  | conclude
  | receive (worker : Nat)
  | wake (worker now : Nat)
  | leave (worker : Nat)
  /-- A worker releases the job that it may not begin. -/
  | giveBack (worker : Nat)

/-- Does something without having noticed a cancellation. -/
def unnoticed? (r : Replication) (act? : Replication → Option Replication) : Option Replication :=
  (act? { r with cancelled := false }).map fun r' => { r' with cancelled := r.cancelled }

/-- Takes a turn, if that is possible now. -/
def Turn.take? (r : Replication) : Turn → Option Replication
  | cancel => some r.cancel
  | search now seen => r.unnoticed? (tick? now seen)
  | send => r.unnoticed? send?
  | close => r.close?
  | giveUp =>
    match r.feeder with
    | .sending job rest =>
      if r.cancelled then
        some { r with
          feeder := match rest with
            | [] => .closing
            | job :: rest => .sending job rest
          inFlight := r.inFlight.release job }
      else none
    | _ => none
  | drain =>
    match r.feeder, r.queue with
    | .closing, job :: rest =>
      if r.workers.all Worker.hasLeft then
        some { r with queue := rest, inFlight := r.inFlight.release job }
      else none
    | _, _ => none
  | conclude => r.conclude?
  | receive i =>
    match r.workers[i]? with
    | some .idle => r.unnoticed? (receive? · i)
    | _ => none
  | wake i now =>
    match r.workers[i]? with
    | some (.resting due) => if Clock.isDue due now then some (r.setWorker i .idle) else none
    | _ => none
  | leave i =>
    match r.workers[i]? with
    | some .idle => if r.cancelled then some (r.setWorker i .left) else none
    | some (.resting _) => if r.cancelled then some (r.setWorker i .left) else none
    | _ => none
  | giveBack i =>
    match r.workers[i]? with
    | some (.holding job) => if r.cancelled then some (r.settle i job .left) else none
    | _ => none

/-! ### Scenes -/

/-- How far a copy has come. -/
inductive Stage where
  /-- It waits for its source. -/
  | reading
  /-- The source has answered. -/
  | storing (answer : Except Fault Stream)
  /-- The target has the content. -/
  | confirming
  /-- It is at its end, and its job has not been released. -/
  | done (answer : Except Fault Unit)

/-- The copy is at its end. -/
def Stage.isDone : Stage → Bool
  | done _ => true
  | _ => false

/-- What happens to a copy. -/
inductive Happening where
  | began (worker : Nat) (job : CopyJob)
  /-- The catalog knows the copy. -/
  | confirmed (worker : Nat) (job : CopyJob)
  | ended (worker : Nat) (job : CopyJob) (answer : Except Fault Unit)

/-- Replication at work on a vault, and what has happened so far. -/
structure Scene where
  replication : Replication
  vault : Vault
  /-- How far the copy of each worker has come. -/
  stage : Nat → Stage
  /-- What has happened, latest first. -/
  log : List Happening

/-- What can happen in a scene. -/
inductive Scene.Event where
  | turn (t : Turn)
  /-- A worker begins to copy. -/
  | begin (worker now : Nat)
  /-- A worker does the next thing for its copy. -/
  | goOn (worker now : Nat)

namespace Scene

/-- Replication that has just been started. -/
def start (r : Replication) (v : Vault) (now : Nat) : Scene :=
  ⟨r.start now, v, fun _ => .reading, []⟩

/-- The copy of a worker has come to a stage. -/
def reach (x : Scene) (i : Nat) (stage : Stage) : Scene :=
  { x with stage := Function.update x.stage i stage }

/-- Begins a copy, if replication was not cancelled. -/
def begin? (x : Scene) (i now : Nat) (job : CopyJob) : Option Scene :=
  if x.replication.cancelled then none
  else
    let y := { x with replication := x.replication.begin now x.vault i job }
    match x.vault.beginCopy job.source job.target job.ref with
    | .error fault => some { y with log := .ended i job (.error fault) :: .began i job :: x.log }
    | .ok _ => some { y with log := .began i job :: x.log }

/-- Waits for the source, or asks it. -/
def read? (x : Scene) (i now : Nat) (job : CopyJob) (copy : Copy) (approach : Approach) :
    Option Scene :=
  match approach.passage with
  | .clear =>
    let (answer, storage) := x.vault.storage.answer approach
    some ({ x with vault := { x.vault with storage := storage } }.reach i (.storing answer))
  | _ =>
    match x.vault.storage.advance? now approach with
    | some (approach, storage) =>
      some { x with
        replication := x.replication.setWorker i (.copying job copy approach)
        vault := { x.vault with storage := storage } }
    | none => none

/-- Stores what the source has answered. -/
def store (x : Scene) (i : Nat) (copy : Copy) (answer : Except Fault Stream) : Scene :=
  match answer with
  | .error fault => x.reach i (.done (.error fault))
  | .ok s =>
    match x.vault.rawStore copy.target copy.ref (VerifiedStream.ofCrc32 s copy.crc32).toStream with
    | (.error fault, v) => { x with vault := v }.reach i (.done (.error fault))
    | (.ok (), v) => { x with vault := v }.reach i .confirming

/-- Has the copy recorded. -/
def confirm (x : Scene) (i : Nat) (job : CopyJob) (copy : Copy) : Scene :=
  match x.vault.catalog.confirm copy.ref copy.volume with
  | .error fault => x.reach i (.done (.error (.ofCatalog fault)))
  | .ok catalog =>
    { x with
      vault := { x.vault with catalog := catalog }
      log := .confirmed i job :: x.log }.reach i (.done (.ok ()))

/-- Releases the job of a copy that is at its end. -/
def finish (x : Scene) (i now : Nat) (job : CopyJob) (answer : Except Fault Unit) : Scene :=
  let worker := match answer with
    | .ok () => .idle
    | .error _ => x.replication.rest now
  { x with
    replication := x.replication.settle i job worker
    log := .ended i job answer :: x.log }.reach i .reading

/-- Does the next thing for a copy. -/
def goOn? (x : Scene) (i now : Nat) (job : CopyJob) (copy : Copy) (approach : Approach) :
    Option Scene :=
  match x.stage i with
  | .reading => x.read? i now job copy approach
  | .storing answer => some (x.store i copy answer)
  | .confirming => some (x.confirm i job copy)
  | .done answer => some (x.finish i now job answer)

/-- What can happen next. -/
def play? (x : Scene) : Event → Option Scene
  | .turn t => (t.take? x.replication).map fun r => { x with replication := r }
  | .begin i now =>
    match x.replication.workers[i]? with
    | some (.holding job) => x.begin? i now job
    | _ => none
  | .goOn i now =>
    match x.replication.workers[i]? with
    | some (.copying job copy approach) => x.goOn? i now job copy approach
    | _ => none

/-- One thing happens. -/
def Step (x y : Scene) : Prop := ∃ event, x.play? event = some y

/-- A history of things that happen. -/
abbrev Runs : Scene → Scene → Prop := Relation.ReflTransGen Step

end Scene

/-! ### What a step leaves as it is -/

/-- The job and the copy that a worker makes. -/
def Worker.making? : Worker → Option (CopyJob × Copy)
  | copying job copy _ => some (job, copy)
  | _ => none

/-- The job and the copy that the worker at a position makes. -/
def making? (r : Replication) (i : Nat) : Option (CopyJob × Copy) :=
  r.workers[i]?.bind Worker.making?

/-- A copy asks its own source. -/
def Worker.Aimed : Worker → Prop
  | copying _ copy approach => approach.backend = copy.source
  | _ => True

/-- At the end all workers have left. -/
def Finished (r : Replication) : Prop :=
  r.feeder = .ended → r.workers.all Worker.hasLeft = true

/-- Replication has gone on, and its workers make these copies now. -/
structure Moved (r r' : Replication) (making : Nat → Option (CopyJob × Copy)) : Prop where
  settings : r'.settings = r.settings
  length : r'.workers.length = r.workers.length
  cancelled : r.cancelled = true → r'.cancelled = true
  sound : r.Sound → r'.Sound
  aimed : (∀ w ∈ r.workers, w.Aimed) → ∀ w ∈ r'.workers, w.Aimed
  finished : r.Finished → r'.Finished
  making : r'.making? = making

variable {r r' : Replication} {i : Nat} {w w' : Worker}

/-- The feeder does something. -/
theorem moved_of_workers_eq (hsettings : r'.settings = r.settings)
    (hworkers : r'.workers = r.workers)
    (hcancelled : r.cancelled = true → r'.cancelled = true) (hsound : r.Sound → r'.Sound)
    (hfinished : r.Finished → r'.Finished) : Moved r r' r.making? where
  settings := hsettings
  length := by rw [hworkers]
  cancelled := hcancelled
  sound := hsound
  aimed h := by rwa [hworkers]
  finished := hfinished
  making := by
    funext j
    rw [making?, hworkers, making?]

/-- A worker that has not left is about something else now. -/
theorem moved_of_set (hw : r.workers[i]? = some w) (hleft : w.hasLeft = false)
    (hworkers : r'.workers = r.workers.set i w') (hsettings : r'.settings = r.settings)
    (hfeeder : r'.feeder = r.feeder) (hcancelled : r'.cancelled = r.cancelled)
    (hsound : r.Sound → r'.Sound) (haimed : w.Aimed → w'.Aimed) :
    Moved r r' (Function.update r.making? i w'.making?) where
  settings := hsettings
  length := by rw [hworkers, List.length_set]
  cancelled := by rw [hcancelled]; exact id
  sound := hsound
  aimed h w₀ hw₀ := by
    rw [hworkers] at hw₀
    rcases List.mem_or_eq_of_mem_set hw₀ with hold | rfl
    · exact h w₀ hold
    · exact haimed (h w (List.mem_of_getElem? hw))
  finished h hended := by
    -- the worker has not left, so this is not the end
    have hall := h (hfeeder ▸ hended)
    rw [List.all_eq_true.1 hall w (List.mem_of_getElem? hw)] at hleft
    cases hleft
  making := by
    funext j
    obtain ⟨hi, -⟩ := List.getElem?_eq_some_iff.1 hw
    by_cases hj : j = i
    · subst hj
      rw [making?, hworkers, List.getElem?_set_self hi, Function.update_self]
      rfl
    · rw [making?, hworkers, List.getElem?_set_ne (Ne.symm hj), Function.update_of_ne hj, making?]

theorem moved_setWorker (hw : r.workers[i]? = some w) (hleft : w.hasLeft = false)
    (hsound : r.Sound → (r.setWorker i w').Sound) (haimed : w.Aimed → w'.Aimed) :
    Moved r (r.setWorker i w') (Function.update r.making? i w'.making?) :=
  moved_of_set hw hleft rfl rfl rfl rfl hsound haimed

theorem making?_of_worker (hw : r.workers[i]? = some w) : r.making? i = w.making? := by
  rw [making?, hw]
  rfl

theorem Worker.aimed_of_making?_eq_none (h : w.making? = none) : w.Aimed := by
  cases w with
  | copying job copy approach => cases h
  | _ => trivial

/-- A worker that makes no copy is about something else now, and still makes none. -/
theorem moved_of_free (hw : r.workers[i]? = some w) (hworkers : r'.workers = r.workers.set i w')
    (hleft : w.hasLeft = false) (hfree : w.making? = none) (hfree' : w'.making? = none)
    (hsettings : r'.settings = r.settings) (hfeeder : r'.feeder = r.feeder)
    (hcancelled : r'.cancelled = r.cancelled) (hsound : r.Sound → r'.Sound) :
    Moved r r' r.making? := by
  have hmoved := moved_of_set hw hleft hworkers hsettings hfeeder hcancelled hsound
    fun _ => Worker.aimed_of_making?_eq_none hfree'
  rwa [hfree', ← hfree, ← making?_of_worker hw, Function.update_eq_self] at hmoved

/-! ### Turns -/

theorem sound_unnoticed {act? : Replication → Option Replication}
    (hact : ∀ {r r' : Replication}, r.Sound → act? r = some r' → r'.Sound)
    (h : r.unnoticed? act? = some r') (hr : r.Sound) : r'.Sound := by
  obtain ⟨r₁, hr₁, rfl⟩ := Option.map_eq_some_iff.1 h
  exact (hact (hr.withCancelled false) hr₁).withCancelled _

/-- The feeder has something else to do, and is not at its end. -/
structure Fed (r r' : Replication) : Prop where
  settings : r'.settings = r.settings
  workers : r'.workers = r.workers
  cancelled : r'.cancelled = r.cancelled
  running : r'.feeder ≠ .ended

theorem Fed.moved (h : Fed r r') (hsound : r.Sound → r'.Sound) : Moved r r' r.making? :=
  moved_of_workers_eq h.settings h.workers (fun hc => by rw [h.cancelled, hc]) hsound
    fun _ hended => absurd hended h.running

theorem Fed.of_unnoticed {act? : Replication → Option Replication}
    (hact : ∀ {r r' : Replication}, act? r = some r' → Fed r r')
    (h : r.unnoticed? act? = some r') : Fed r r' := by
  obtain ⟨r₁, hr₁, rfl⟩ := Option.map_eq_some_iff.1 h
  have hfed := hact hr₁
  exact ⟨hfed.settings, hfed.workers, rfl, hfed.running⟩

theorem fed_tick {now : Nat} {v : Vault} (h : r.tick? now v = some r') : Fed r r' := by
  unfold tick? at h
  split at h
  · split at h
    · cases h
    · obtain rfl := Option.some.inj h
      exact ⟨rfl, rfl, rfl, ofJobs_ne_ended _⟩
  · cases h

theorem fed_send (h : r.send? = some r') : Fed r r' := by
  unfold send? at h
  split at h
  · split at h
    · cases h
    · obtain rfl := Option.some.inj h
      exact ⟨rfl, rfl, rfl, ofJobs_ne_ended _⟩
  · cases h

theorem fed_close (h : r.close? = some r') : Fed r r' := by
  unfold close? at h
  split at h
  · split at h
    · obtain rfl := Option.some.inj h
      exact ⟨rfl, rfl, rfl, by simp⟩
    · cases h
  · split at h
    · obtain rfl := Option.some.inj h
      exact ⟨rfl, rfl, rfl, by simp⟩
    · cases h
  · cases h

theorem moved_conclude (h : r.conclude? = some r') : Moved r r' r.making? := by
  have hsound : r.Sound → r'.Sound := fun hr => sound_conclude hr h
  unfold conclude? at h
  split at h
  · split at h
    · rename_i hleft
      obtain rfl := Option.some.inj h
      exact moved_of_workers_eq rfl rfl id hsound fun _ _ => hleft
    · cases h
  · cases h

theorem moved_receive (hw : r.workers[i]? = some .idle)
    (h : r.unnoticed? (receive? · i) = some r') : Moved r r' r.making? := by
  have hsound : r.Sound → r'.Sound := fun hr => by
    obtain ⟨r₁, hr₁, rfl⟩ := Option.map_eq_some_iff.1 h
    exact (sound_receive (hr.withCancelled false) hw hr₁).withCancelled _
  obtain ⟨r₁, hr₁, rfl⟩ := Option.map_eq_some_iff.1 h
  simp only [receive?] at hr₁
  split at hr₁
  · contradiction
  · split at hr₁
    · cases hr₁
    · obtain rfl := Option.some.inj hr₁
      exact moved_of_free hw rfl rfl rfl rfl rfl rfl rfl hsound

/-- No turn begins a copy, or ends one. -/
theorem moved_take {t : Turn} (h : t.take? r = some r') : Moved r r' r.making? := by
  cases t with
  | cancel =>
    obtain rfl := Option.some.inj h
    exact moved_of_workers_eq rfl rfl (fun _ => rfl) (·.withCancelled true) id
  | search now seen =>
    exact (Fed.of_unnoticed fed_tick h).moved (sound_unnoticed sound_tick h)
  | send => exact (Fed.of_unnoticed fed_send h).moved (sound_unnoticed sound_send h)
  | close => exact (fed_close h).moved fun hr => sound_close hr h
  | giveUp =>
    simp only [Turn.take?] at h
    split at h
    · rename_i job rest hfeeder
      split at h
      · rename_i hcancelled
        obtain rfl := Option.some.inj h
        refine Fed.moved ⟨rfl, rfl, rfl, ?_⟩ fun hr => ?_
        · cases rest <;> simp
        · cases rest <;> exact hr.move (.giveUp (.empty 0) hfeeder hcancelled)
      · cases h
    · cases h
  | drain =>
    simp only [Turn.take?] at h
    split at h
    · rename_i job rest hfeeder hqueue
      split at h
      · rename_i hleft
        obtain rfl := Option.some.inj h
        refine Fed.moved ⟨rfl, rfl, rfl, ?_⟩ fun hr => ?_
        · simp [hfeeder]
        · exact hr.move (.drain (.empty 0) hfeeder hleft hqueue)
      · cases h
    · cases h
  | conclude => exact moved_conclude h
  | receive i =>
    simp only [Turn.take?] at h
    split at h
    · rename_i hw
      exact moved_receive hw h
    · cases h
  | wake i now =>
    simp only [Turn.take?] at h
    split at h
    · rename_i due hw
      split at h
      · obtain rfl := Option.some.inj h
        exact moved_of_free hw rfl rfl rfl rfl rfl rfl rfl (·.setWorker hw rfl trivial)
      · cases h
    · cases h
  | leave i =>
    simp only [Turn.take?] at h
    split at h
    · rename_i hw
      split at h
      · obtain rfl := Option.some.inj h
        exact moved_of_free hw rfl rfl rfl rfl rfl rfl rfl (·.setWorker hw rfl trivial)
      · cases h
    · rename_i due hw
      split at h
      · obtain rfl := Option.some.inj h
        exact moved_of_free hw rfl rfl rfl rfl rfl rfl rfl (·.setWorker hw rfl trivial)
      · cases h
    · cases h
  | giveBack i =>
    simp only [Turn.take?] at h
    split at h
    · rename_i job hw
      split at h
      · obtain rfl := Option.some.inj h
        exact moved_of_free hw rfl rfl rfl rfl rfl rfl rfl (·.settle hw rfl rfl)
      · cases h
    · cases h

/-! ### Everything that can happen -/

/-- What one step does to the copies, the vault and the log. -/
inductive Scene.Happens (x y : Scene) : Prop
  /-- It is no step of a copy. -/
  | turn (hmoved : Moved x.replication y.replication x.replication.making?)
      (hvault : y.vault = x.vault) (hstage : y.stage = x.stage) (hlog : y.log = x.log)
  /-- A copy is begun. -/
  | begin {i : Nat} {job : CopyJob} {copy : Copy} (hopen : x.replication.cancelled = false)
      (hfree : x.replication.making? i = none)
      (hmoved : Moved x.replication y.replication
        (Function.update x.replication.making? i (some (job, copy))))
      (hvault : y.vault = x.vault) (hstage : y.stage = x.stage)
      (hlog : y.log = .began i job :: x.log)
  /-- A copy is begun, and there is nothing to copy from or to. -/
  | refuse {i : Nat} {job : CopyJob} {fault : Fault} (hopen : x.replication.cancelled = false)
      (hfree : x.replication.making? i = none)
      (hmoved : Moved x.replication y.replication x.replication.making?)
      (hvault : y.vault = x.vault) (hstage : y.stage = x.stage)
      (hlog : y.log = .ended i job (.error fault) :: .began i job :: x.log)
  /-- A copy asks its source, is stored on its target, or fails. -/
  | goOn {i : Nat} {job : CopyJob} {copy : Copy} {storage : Storage} {stage : Stage}
      (hmaking : x.replication.making? i = some (job, copy)) (hopen : (x.stage i).isDone = false)
      (hmoved : Moved x.replication y.replication x.replication.making?)
      (hvault : y.vault = { x.vault with storage := storage })
      (htouched : Storage.Touched (Eq copy) x.vault.storage storage)
      (hstage : y.stage = Function.update x.stage i stage) (hunrecorded : stage ≠ .done (.ok ()))
      (hlog : y.log = x.log)
  /-- A copy is recorded. -/
  | confirm {i : Nat} {job : CopyJob} {copy : Copy} {catalog : Catalog}
      (hmaking : x.replication.making? i = some (job, copy)) (hopen : (x.stage i).isDone = false)
      (hmoved : Moved x.replication y.replication x.replication.making?)
      (hconfirm : x.vault.catalog.confirm copy.ref copy.volume = .ok catalog)
      (hvault : y.vault = { x.vault with catalog := catalog })
      (hstage : y.stage = Function.update x.stage i (.done (.ok ())))
      (hlog : y.log = .confirmed i job :: x.log)
  /-- A copy that is at its end is ended. -/
  | finish {i : Nat} {job : CopyJob} {copy : Copy} {answer : Except Fault Unit}
      (hmaking : x.replication.making? i = some (job, copy))
      (hdone : x.stage i = .done answer)
      (hmoved : Moved x.replication y.replication (Function.update x.replication.making? i none))
      (hvault : y.vault = x.vault) (hstage : y.stage = Function.update x.stage i .reading)
      (hlog : y.log = .ended i job answer :: x.log)

namespace Scene

variable {x y : Scene} {now : Nat} {job : CopyJob} {copy : Copy} {approach : Approach}

theorem Happens.moved (h : x.Happens y) : ∃ making, Moved x.replication y.replication making := by
  cases h <;> exact ⟨_, ‹_›⟩

theorem happens_of_begin (hw : x.replication.workers[i]? = some (.holding job))
    (h : x.begin? i now job = some y) : x.Happens y := by
  have hsound : x.replication.Sound → (x.replication.begin now x.vault i job).Sound :=
    fun hr => sound_begin hr hw now x.vault
  unfold begin? at h
  split at h
  · cases h
  · rename_i hcancelled
    have hopen : x.replication.cancelled = false := by simpa using hcancelled
    split at h
    · rename_i fault hcopy
      have hbegin : x.replication.begin now x.vault i job =
          x.replication.settle i job (x.replication.rest now) := by
        simp [Replication.begin, hopen, hcopy]
      obtain rfl := Option.some.inj h
      rw [hbegin] at hsound ⊢
      exact .refuse hopen (making?_of_worker hw)
        (moved_of_free hw rfl rfl rfl rfl rfl rfl rfl hsound) rfl rfl rfl
    · rename_i copy hcopy
      have hbegin : x.replication.begin now x.vault i job = x.replication.setWorker i
          (.copying job copy (x.vault.storage.approach copy.source copy.ref now)) := by
        simp [Replication.begin, hopen, hcopy]
      obtain rfl := Option.some.inj h
      rw [hbegin] at hsound ⊢
      exact .begin hopen (making?_of_worker hw) (moved_setWorker hw rfl hsound
        fun _ => x.vault.storage.backend_approach ..) rfl rfl rfl

/-- Replication is as it was. -/
theorem moved_refl (r : Replication) : Moved r r r.making? :=
  moved_of_workers_eq rfl rfl id id id

theorem happens_of_read (hw : x.replication.workers[i]? = some (.copying job copy approach))
    (haimed : approach.backend = copy.source) (hstage : x.stage i = .reading)
    (h : x.read? i now job copy approach = some y) : x.Happens y := by
  have hmaking := making?_of_worker hw
  have hopen : (x.stage i).isDone = false := by rw [hstage]; rfl
  unfold read? at h
  split at h
  · have htouched : Storage.Touched (Eq copy) x.vault.storage
        (x.vault.storage.answer approach).2 := Storage.touched_answer rfl haimed
    obtain rfl := Option.some.inj h
    exact .goOn hmaking hopen (moved_refl _) rfl htouched rfl (by simp) rfl
  · split at h
    · rename_i approach' storage hadvance
      obtain rfl := Option.some.inj h
      have hbackend := (Storage.advance?_eq_some hadvance).1
      have hmoved : Moved x.replication (x.replication.setWorker i (.copying job copy approach'))
          (Function.update x.replication.making? i (some (job, copy))) :=
        moved_setWorker hw rfl
          (fun hr => hr.setWorker hw rfl
            (hr.matched (.copying job copy approach) (List.mem_of_getElem? hw)))
          fun _ => hbackend.trans haimed
      -- the copy goes on waiting: who makes what is as it was, and so is the stage
      rw [← show _ = some (job, copy) from hmaking, Function.update_eq_self] at hmoved
      exact .goOn hmaking hopen hmoved rfl (Storage.touched_advance rfl haimed hadvance)
        (Function.update_eq_self_iff.2 hstage.symm).symm (by simp) rfl
    · cases h

theorem happens_store (hmaking : x.replication.making? i = some (job, copy))
    (hopen : (x.stage i).isDone = false) (answer : Except Fault Stream) :
    x.Happens (x.store i copy answer) := by
  unfold store
  split
  · exact .goOn hmaking hopen (moved_refl _) rfl (.refl _) rfl (by simp) rfl
  · rename_i s
    have htouched : Storage.Touched (Eq copy) x.vault.storage (x.vault.storage.store copy.target
        copy.ref (VerifiedStream.ofCrc32 s copy.crc32).toStream).2 := Storage.touched_store rfl _
    split
    · rename_i fault v hv
      obtain rfl := congrArg Prod.snd hv
      exact .goOn hmaking hopen (moved_refl _) rfl htouched rfl (by simp) rfl
    · rename_i v hv
      obtain rfl := congrArg Prod.snd hv
      exact .goOn hmaking hopen (moved_refl _) rfl htouched rfl (by simp) rfl

theorem happens_confirm (hmaking : x.replication.making? i = some (job, copy))
    (hopen : (x.stage i).isDone = false) : x.Happens (x.confirm i job copy) := by
  unfold confirm
  split
  · exact .goOn hmaking hopen (moved_refl _) rfl (.refl _) rfl (by simp) rfl
  · rename_i catalog hconfirm
    exact .confirm hmaking hopen (moved_refl _) hconfirm rfl rfl rfl

theorem happens_finish (hw : x.replication.workers[i]? = some (.copying job copy approach))
    {answer : Except Fault Unit} (hdone : x.stage i = .done answer) :
    x.Happens (x.finish i now job answer) := by
  -- whether the worker is idle or rests, it has no job and makes no copy
  have hfree : (match answer with
      | .ok () => Worker.idle
      | .error _ => x.replication.rest now).job? = none := by cases answer <;> rfl
  have hnone : (match answer with
      | .ok () => Worker.idle
      | .error _ => x.replication.rest now).making? = none := by cases answer <;> rfl
  have hmoved : Moved x.replication (x.replication.settle i job _)
      (Function.update x.replication.making? i _) := moved_of_set hw rfl rfl rfl rfl rfl
    (·.settle hw rfl hfree) fun _ => Worker.aimed_of_making?_eq_none hnone
  rw [hnone] at hmoved
  exact .finish (making?_of_worker hw) hdone hmoved rfl rfl rfl

/-- **All that can happen to copies, the vault and the log.** -/
theorem happens_of_step (haimed : ∀ w ∈ x.replication.workers, w.Aimed) (h : x.Step y) :
    x.Happens y := by
  obtain ⟨event, h⟩ := h
  cases event with
  | turn t =>
    obtain ⟨r, hr, rfl⟩ := Option.map_eq_some_iff.1 h
    exact .turn (moved_take hr) rfl rfl rfl
  | begin i now =>
    simp only [play?] at h
    split at h
    · rename_i job hw
      exact happens_of_begin hw h
    · cases h
  | goOn i now =>
    simp only [play?] at h
    split at h
    · rename_i job copy approach hw
      have hmaking := making?_of_worker hw
      unfold goOn? at h
      split at h
      · rename_i hstage
        exact happens_of_read hw (haimed _ (List.mem_of_getElem? hw)) hstage h
      · rename_i answer hstage
        obtain rfl := Option.some.inj h
        exact happens_store hmaking (by rw [hstage]; rfl) answer
      · rename_i hstage
        obtain rfl := Option.some.inj h
        exact happens_confirm hmaking (by rw [hstage]; rfl)
      · rename_i answer hdone
        obtain rfl := Option.some.inj h
        exact happens_finish hw hdone
    · cases h

/-! ### The actions of replication -/

theorem step_of_goOn? (hw : x.replication.workers[i]? = some (.copying job copy approach))
    (now : Nat) (h : x.goOn? i now job copy approach = some y) : x.Step y :=
  ⟨.goOn i now, by simp only [play?, hw, h]⟩

/-- A scene in which a copy has come to an end, and its job is released. -/
def released (x : Scene) (i now : Nat) (job : CopyJob) (outcome : Except Fault Unit × Vault)
    (log : List Happening) : Scene :=
  { x with
    replication := x.replication.settle i job (match outcome.1 with
      | .ok () => .idle
      | .error _ => x.replication.rest now)
    vault := outcome.2
    stage := Function.update x.stage i .reading
    log := log }

/-- A copy that is at its end is ended. -/
theorem step_released (hw : x.replication.workers[i]? = some (.copying job copy approach))
    (now : Nat) (v : Vault) (log : List Happening) (answer : Except Fault Unit) :
    Step ({ x with vault := v, log := log }.reach i (.done answer))
      (x.released i now job (answer, v) (.ended i job answer :: log)) := by
  have hstage : ({ x with vault := v, log := log }.reach i (.done answer)).stage i =
      .done answer := Function.update_self ..
  refine step_of_goOn? hw now ?_
  rw [goOn?, hstage]
  simp only [finish, reach, released, Function.update_idem]

/-- What the source has answered is stored and recorded, and the job is released. -/
theorem runs_released (hw : x.replication.workers[i]? = some (.copying job copy approach))
    (now : Nat) {answer : Except Fault Stream} (hstage : x.stage i = .storing answer) :
    ∃ log, Runs x (x.released i now job (copy.finish answer x.vault) log) := by
  have hstore : x.Step (x.store i copy answer) := step_of_goOn? hw now (by rw [goOn?, hstage])
  cases answer with
  | error fault =>
    exact ⟨_, .tail (.single hstore) (step_released hw now x.vault x.log (.error fault))⟩
  | ok s =>
    rcases hraw : x.vault.rawStore copy.target copy.ref
      (VerifiedStream.ofCrc32 s copy.crc32).toStream with ⟨stored, v⟩
    simp only [store, hraw] at hstore
    cases stored with
    | error fault =>
      have hfinish : copy.finish (.ok s) x.vault = (.error fault, v) := by
        simp only [Copy.finish, hraw]
      rw [hfinish]
      exact ⟨_, .tail (.single hstore) (step_released hw now v x.log (.error fault))⟩
    | ok u =>
      have hconfirming : ({ x with vault := v }.reach i .confirming).stage i = .confirming :=
        Function.update_self ..
      have hconfirm : Step ({ x with vault := v }.reach i .confirming)
          (({ x with vault := v }.reach i .confirming).confirm i job copy) :=
        step_of_goOn? hw now (by rw [goOn?, hconfirming])
      have hruns := Relation.ReflTransGen.tail (.single hstore) hconfirm
      simp only [confirm, reach] at hruns
      cases hcatalog : v.catalog.confirm copy.ref copy.volume with
      | error fault =>
        have hfinish : copy.finish (.ok s) x.vault = (.error (.ofCatalog fault), v) := by
          simp only [Copy.finish, hraw, hcatalog]
        rw [hfinish]
        simp only [hcatalog, Function.update_idem] at hruns
        exact ⟨_, .tail hruns (step_released hw now v x.log (.error (.ofCatalog fault)))⟩
      | ok catalog =>
        have hfinish : copy.finish (.ok s) x.vault = (.ok (), { v with catalog := catalog }) := by
          simp only [Copy.finish, hraw, hcatalog]
        rw [hfinish]
        simp only [hcatalog, Function.update_idem] at hruns
        exact ⟨_, .tail hruns (step_released hw now { v with catalog := catalog }
          (.confirmed i job :: x.log) (.ok ()))⟩

end Scene

/-! #### Searching and sending -/

theorem unnoticed?_of_open {act? : Replication → Option Replication}
    (hopen : r.cancelled = false) (hact : act? r = some r') (hsame : r'.cancelled = r.cancelled) :
    r.unnoticed? act? = some r' := by
  have hr : ({ r with cancelled := false } : Replication) = r := by rw [← hopen]
  rw [unnoticed?, hr, hact, Option.map_some, ← hsame]

theorem open_of_tick {now : Nat} {v : Vault} (h : r.tick? now v = some r') :
    r.cancelled = false := by
  by_contra hcancelled
  simp only [Bool.not_eq_false] at hcancelled
  unfold tick? at h
  split at h
  · simp [hcancelled] at h
  · cases h

theorem open_of_send (h : r.send? = some r') : r.cancelled = false := by
  by_contra hcancelled
  simp only [Bool.not_eq_false] at hcancelled
  unfold send? at h
  split at h
  · simp [hcancelled] at h
  · cases h

namespace Scene

variable {v v' : Vault} {now : Nat} {log : List Happening}

/-- A scene in which no copy has got anywhere. -/
def calm (r : Replication) (v : Vault) (log : List Happening) : Scene :=
  ⟨r, v, fun _ => .reading, log⟩

theorem step_of_turn {t : Turn} (h : t.take? r = some r') :
    Step (calm r v log) (calm r' v log) :=
  ⟨.turn t, by simp only [play?, calm, h, Option.map_some]⟩

/-- A copy that goes on in one action goes on in steps. -/
theorem runs_of_copyOn? {job : CopyJob} {copy : Copy} {approach : Approach}
    (hw : r.workers[i]? = some (.copying job copy approach))
    (h : r.copyOn? now v i job copy approach = some (r', v')) :
    ∃ log', Runs (calm r v log) (calm r' v' log') := by
  have hgoOn : (calm r v log).goOn? i now job copy approach =
      (calm r v log).read? i now job copy approach := rfl
  unfold copyOn? at h
  split at h
  · -- the source is asked, and all that follows is done before anyone else comes in
    rename_i hpassage
    rcases hanswer : v.storage.answer approach with ⟨answer, storage⟩
    have hread : Step (calm r v log)
        ((calm r { v with storage := storage } log).reach i (.storing answer)) :=
      step_of_goOn? hw now (by rw [hgoOn, read?, hpassage]; simp only [calm, hanswer, reach])
    obtain ⟨log', hruns⟩ := runs_released
      (x := (calm r { v with storage := storage } log).reach i (.storing answer)) hw now
      (Function.update_self ..)
    refine ⟨log', .head hread ?_⟩
    have hcalm : ∀ outcome log', ((calm r { v with storage := storage } log).reach i
        (.storing answer)).released i now job outcome log' =
        calm (r.settle i job (match outcome.1 with
          | .ok () => .idle
          | .error _ => r.rest now)) outcome.2 log' := by
      intro outcome log'
      simp only [released, reach, calm, Function.update_idem]
      rw [Function.update_eq_self_iff.2 rfl]
    rw [hcalm] at hruns
    have hend : (r.settle i job (match (copy.finish answer { v with storage := storage }).1 with
        | .ok () => .idle
        | .error _ => r.rest now), (copy.finish answer { v with storage := storage }).2) =
        (r', v') := by
      simp only [hanswer] at h
      rcases hfinish : copy.finish answer { v with storage := storage } with ⟨outcome, v₁⟩
      rw [hfinish] at h
      cases outcome <;> exact Option.some.inj h
    obtain ⟨rfl, rfl⟩ := Prod.mk.inj hend
    exact hruns
  · rename_i hpassage
    split at h
    · rename_i approach' storage hadvance
      obtain ⟨rfl, rfl⟩ := Prod.mk.inj (Option.some.inj h)
      refine ⟨log, .single (step_of_goOn? hw now ?_)⟩
      rw [hgoOn, read?]
      split
      · exact absurd ‹_› hpassage
      · simp only [calm, hadvance]
    · cases h

/-- What a worker does in one action is made of steps. -/
theorem runs_of_work? (h : r.work? now v i = some (r', v')) :
    ∃ log', Runs (calm r v log) (calm r' v' log') := by
  unfold work? at h
  split at h
  · rename_i hw
    obtain ⟨r₁, hr₁, hpair⟩ := Option.map_eq_some_iff.1 h
    obtain ⟨rfl, rfl⟩ := Prod.mk.inj hpair
    cases hcancelled : r.cancelled with
    | true =>
      rw [receive?, hcancelled, if_pos rfl] at hr₁
      exact ⟨log, .single (step_of_turn (t := .leave i) (by
        simpa only [Turn.take?, hw, hcancelled, if_pos] using hr₁))⟩
    | false =>
      have hsame : r₁.cancelled = r.cancelled := by
        rw [receive?, hcancelled, if_neg (by simp)] at hr₁
        split at hr₁
        · cases hr₁
        · obtain rfl := Option.some.inj hr₁
          rfl
      exact ⟨log, .single (step_of_turn (t := .receive i) (by
        simpa only [Turn.take?, hw] using unnoticed?_of_open hcancelled hr₁ hsame))⟩
  · rename_i job hw
    obtain ⟨rfl, rfl⟩ := Prod.mk.inj (Option.some.inj h)
    cases hcancelled : r.cancelled with
    | true =>
      have hbegin : r.begin now v i job = r.settle i job .left := by
        simp [Replication.begin, hcancelled]
      rw [hbegin]
      exact ⟨log, .single (step_of_turn (t := .giveBack i) (by
        simp only [Turn.take?, hw, hcancelled, if_pos]))⟩
    | false =>
      cases hcopy : v.beginCopy job.source job.target job.ref with
      | error fault => exact ⟨_, .single ⟨.begin i now, by
          simp only [play?, calm, hw, begin?, hcancelled, hcopy]; rfl⟩⟩
      | ok copy => exact ⟨_, .single ⟨.begin i now, by
          simp only [play?, calm, hw, begin?, hcancelled, hcopy]; rfl⟩⟩
  · rename_i job copy approach hw
    exact runs_of_copyOn? hw h
  · rename_i due hw
    split at h
    · rename_i hcancelled
      obtain ⟨rfl, rfl⟩ := Prod.mk.inj (Option.some.inj h)
      exact ⟨log, .single (step_of_turn (t := .leave i) (by
        simp only [Turn.take?, hw, hcancelled, if_pos]))⟩
    · split at h
      · rename_i hdue
        obtain ⟨rfl, rfl⟩ := Prod.mk.inj (Option.some.inj h)
        exact ⟨log, .single (step_of_turn (t := .wake i now) (by
          simp only [Turn.take?, hw, hdue, if_pos]))⟩
      · cases h
  · cases h
  · cases h

/-- **An action of replication is made of what can happen in a scene.** -/
theorem runs_of_step? {action : Action} (h : r.step? now v action = some (r', v')) :
    ∃ log', Runs (calm r v log) (calm r' v' log') := by
  cases action with
  | tick =>
    obtain ⟨r₁, hr₁, hpair⟩ := Option.map_eq_some_iff.1 h
    obtain ⟨rfl, rfl⟩ := Prod.mk.inj hpair
    exact ⟨log, .single (step_of_turn (t := .search now v)
      (unnoticed?_of_open (open_of_tick hr₁) hr₁ (fed_tick hr₁).cancelled))⟩
  | send =>
    obtain ⟨r₁, hr₁, hpair⟩ := Option.map_eq_some_iff.1 h
    obtain ⟨rfl, rfl⟩ := Prod.mk.inj hpair
    exact ⟨log, .single (step_of_turn (t := .send)
      (unnoticed?_of_open (open_of_send hr₁) hr₁ (fed_send hr₁).cancelled))⟩
  | close =>
    obtain ⟨r₁, hr₁, hpair⟩ := Option.map_eq_some_iff.1 h
    obtain ⟨rfl, rfl⟩ := Prod.mk.inj hpair
    exact ⟨log, .single (step_of_turn (t := .close) hr₁)⟩
  | conclude =>
    obtain ⟨r₁, hr₁, hpair⟩ := Option.map_eq_some_iff.1 h
    obtain ⟨rfl, rfl⟩ := Prod.mk.inj hpair
    exact ⟨log, .single (step_of_turn (t := .conclude) hr₁)⟩
  | work i => exact runs_of_work? h

/-- An action of replication at some time, or a cancellation. -/
inductive Acts : Replication × Vault → Replication × Vault → Prop
  | act {r r' : Replication} {v v' : Vault} (now : Nat) (action : Action)
      (hstep : r.step? now v action = some (r', v')) : Acts (r, v) (r', v')
  | cancel (r : Replication) (v : Vault) : Acts (r, v) (r.cancel, v)

/-- **Whatever replication does in actions, it can do in steps.** -/
theorem runs_of_actions {p p' : Replication × Vault} (h : Relation.ReflTransGen Acts p p') :
    ∃ log, Runs (calm p.1 p.2 []) (calm p'.1 p'.2 log) := by
  induction h with
  | refl => exact ⟨[], .refl⟩
  | tail _ hacts ih =>
    obtain ⟨log, hruns⟩ := ih
    cases hacts with
    | act now action hstep =>
      obtain ⟨log', hruns'⟩ := runs_of_step? hstep
      exact ⟨log', hruns.trans hruns'⟩
    | cancel r v => exact ⟨log, hruns.tail (step_of_turn (t := .cancel) rfl)⟩

end Scene

end Replication

end BlobVault
