import BlobVault.Proofs.Scrub.Resumption
import BlobVault.Proofs.Vault.Secrets
import BlobVault.Simulation.Request

/-!
# Upkeep needs no keys

Scrubbing and replication keep the stored ciphertexts in order.  They go on in the same way on two
nodes that differ in their keys only, whatever is asked of both and in whatever order their
background work takes its turns.

* `Simulation.withSecrets` : the node with other keys;
* `Chore` : what can be asked of a node about scrubbing and replication, and the single actions of
  its background work;
* `Simulation.perform_withSecrets` : every chore commutes with giving the node other keys;
* `Simulation.Agree` : two nodes differ in their keys only;
* `Simulation.agree_performAll` : **two nodes that differ in their keys only give the same answers,
  go on to differ in their keys only, and keep their keys.**
-/

namespace BlobVault

/-- Something that is asked of a node, or a single action of its background work. -/
inductive Chore where
  | scrub (r : Ref) (volume : VolumeId)
  | replicate (source target : VolumeId) (r : Ref)
  | discover
  | replicateOne (source target : VolumeId) (r : Ref)
  | createJob (volume : VolumeId)
  /-- A job is resumed or stopped, the running ones are listed, or the controller is shut down;
  whoever asks waits for the reply. -/
  | request (command : Controller.Command) (opening? : Option Simulation.Opening)
  /-- The same, without waiting. -/
  | submit (command : Controller.Command)
  /-- One action of a scrub controller or of one of its scans. -/
  | scrubbing (controller : Nat) (action : Controller.Action)
  /-- One action of replication. -/
  | replicating (replication : Nat) (action : Replication.Action)
  /-- The background work goes on and time passes until something has happened. -/
  | wait (w : Simulation.Wait)
  | setUpReplication (settings : ReplicationSettings)
  | startReplication
  | stopReplication (opening? : Option Simulation.Opening)
  | startController (settings : ScrubSettings)
  | cancelController (opening? : Option Simulation.Opening)

namespace Simulation

/-- What comes of a chore. -/
inductive Outcome where
  | bytes (answer : Answer Nat)
  | done (answer : Answer Unit)
  | jobs (jobs : List CopyJob)
  | job (answer : Except Fault ScrubJob)
  | reply (answer : Answer Controller.Reply)
  | ticket (ticket : Nat)
  /-- What was waited for has happened, or it took too long. -/
  | waited (inTime : Bool)
  /-- An action was possible, or was not. -/
  | acted (possible : Bool)

/-- One action of a scrub controller, as the node with its mount table sees it. -/
def actScrubbing (s : Simulation) (i : Nat) (a : Controller.Action) : Bool × Simulation :=
  match s.controllers[i]? with
  | none => (false, s)
  | some (table, c) =>
    match c.step? s.now (s.seenFrom table) a with
    | none => (false, s)
    | some (c, v) => (true, { s.keepMounts v with controllers := s.controllers.set i (table, c) })

/-- One action of replication, as the node with its mount table sees it. -/
def actReplicating (s : Simulation) (i : Nat) (a : Replication.Action) : Bool × Simulation :=
  match s.replications[i]? with
  | none => (false, s)
  | some (table, r) =>
    match r.step? s.now (s.seenFrom table) a with
    | none => (false, s)
    | some (r, v) => (true, { s.keepMounts v with replications := s.replications.set i (table, r) })

/-- Carries out a chore. -/
def perform (s : Simulation) : Chore → Outcome × Simulation
  | .scrub r volume => (s.scrub r volume).map .bytes id
  | .replicate source target r => (s.replicate source target r).map .done id
  | .discover => s.discover.map .jobs id
  | .replicateOne source target r => (s.replicateOne source target r).map .done id
  | .createJob volume => (s.operate fun v => v.createJob volume s.now).map .job id
  | .request command opening? => (s.request command opening?).map .reply id
  | .submit command => (s.modifyController 0 fun c => c.submit command).map .ticket id
  | .scrubbing i a => (s.actScrubbing i a).map .acted id
  | .replicating i a => (s.actReplicating i a).map .acted id
  | .wait w => (s.wait w).map (fun w? => .waited w?.isSome) id
  | .setUpReplication settings => (.done (.ok ()), s.setUpReplication settings)
  | .startReplication => (.done (.ok ()), s.startReplication)
  | .stopReplication opening? => (s.stopReplication opening?).map .done id
  | .startController settings => (s.startController settings).map .done id
  | .cancelController opening? => (s.cancelController opening?).map .done id

/-- Carries out chores one after another. -/
def performAll (s : Simulation) : List Chore → List Outcome × Simulation
  | [] => ([], s)
  | c :: cs =>
    let (outcome, s) := s.perform c
    let (outcomes, s) := s.performAll cs
    (outcome :: outcomes, s)

/-! ### Other keys -/

/-- The node with other keys. -/
def withSecrets (s : Simulation) (k : Secrets) : Simulation :=
  { s with vault := s.vault.withSecrets k }

/-- A result beside a node with other keys. -/
def keyed {α : Type} (k : Secrets) (result : α × Simulation) : α × Simulation :=
  (result.1, result.2.withSecrets k)

theorem map_keyed {α β : Type} (f : α → β) (k : Secrets) (result : α × Simulation) :
    (keyed k result).map f id = keyed k (result.map f id) := rfl

theorem operate_withSecrets {α : Type} (s : Simulation) (k : Secrets) {f : Vault → α × Vault}
    (hf : ∀ v, f (v.withSecrets k) = BlobVault.keyed k (f v)) :
    (s.withSecrets k).operate f = keyed k (s.operate f) := by
  show ((f (s.vault.withSecrets k)).1, { s with vault := (f (s.vault.withSecrets k)).2 }) = _
  rw [hf]
  rfl

/-! ### Background work -/

theorem changeFirst?_map {α β : Type} {f f' : α → Option (α × β)} {g : β → β}
    (h : ∀ a, f' a = (f a).map (Prod.map id g)) (as : List α) :
    changeFirst? f' as = (changeFirst? f as).map (Prod.map id g) := by
  induction as with
  | nil => rfl
  | cons a as ih =>
    rw [changeFirst?, changeFirst?, h]
    cases f a with
    | some p => rfl
    | none =>
      dsimp only [Option.map_none]
      rw [ih, Option.map_map, Option.map_map]
      rfl

/-- The first part of the background work that can go on is the same with other keys. -/
theorem changeFirst?_withSecrets {α : Type} (s : Simulation) (k : Secrets)
    (next? : α → Vault → Option (α × Vault))
    (hnext : ∀ a v, next? a (v.withSecrets k) = (next? a v).map (BlobVault.keyed k))
    (parts : List (Nat × α)) :
    changeFirst? (fun (table, a) => (next? a ((s.withSecrets k).seenFrom table)).map
        fun (a, v) => ((table, a), v)) parts =
      (changeFirst? (fun (table, a) => (next? a (s.seenFrom table)).map
        fun (a, v) => ((table, a), v)) parts).map (Prod.map id (·.withSecrets k)) := by
  refine changeFirst?_map (fun p => ?_) parts
  have hseen : (s.withSecrets k).seenFrom p.1 = (s.seenFrom p.1).withSecrets k := rfl
  dsimp only
  rw [hseen, hnext, Option.map_map, Option.map_map]
  rfl

theorem nextReplication?_withSecrets (s : Simulation) (k : Secrets) :
    (s.withSecrets k).nextReplication? = s.nextReplication?.map (·.withSecrets k) := by
  have hfirst := s.changeFirst?_withSecrets k (fun r v => r.next? s.now v)
    (fun r v => r.next?_withSecrets s.now v k) s.replications
  rw [nextReplication?, nextReplication?]
  refine (congrArg _ hfirst).trans ?_
  rw [Option.map_map, Option.map_map]
  rfl

theorem nextController?_withSecrets (s : Simulation) (k : Secrets) :
    (s.withSecrets k).nextController? = s.nextController?.map (·.withSecrets k) := by
  have hfirst := s.changeFirst?_withSecrets k (fun c v => c.next? s.now v)
    (fun c v => c.next?_withSecrets s.now v k) s.controllers
  rw [nextController?, nextController?]
  refine (congrArg _ hfirst).trans ?_
  rw [Option.map_map, Option.map_map]
  rfl

theorem next?_withSecrets (s : Simulation) (k : Secrets) :
    (s.withSecrets k).next? = s.next?.map (·.withSecrets k) := by
  rw [next?, next?, nextReplication?_withSecrets]
  cases s.nextReplication? with
  | some s' => rfl
  | none => exact s.nextController?_withSecrets k

theorem settleWithin_withSecrets (fuel : Nat) (s : Simulation) (k : Secrets) :
    settleWithin fuel (s.withSecrets k) = (settleWithin fuel s).withSecrets k := by
  induction fuel generalizing s with
  | zero => rfl
  | succ fuel ih =>
    rw [settleWithin, settleWithin, next?_withSecrets]
    cases s.next? with
    | none => rfl
    | some s' => exact ih s'

theorem settle_withSecrets (s : Simulation) (k : Secrets) :
    (s.withSecrets k).settle = s.settle.withSecrets k :=
  settleWithin_withSecrets patience s k

/-! ### Waiting -/

theorem Goal.isReached_withSecrets (s : Simulation) (k : Secrets) (g : Goal) :
    g.isReached (s.withSecrets k) = g.isReached s := by
  cases g <;> rfl

theorem Goal.advance_withSecrets (s : Simulation) (k : Secrets) (steps : Nat) (g : Goal) :
    g.advance (s.withSecrets k) steps = keyed k (g.advance s steps) := by
  induction steps generalizing s g with
  | zero => cases g <;> rfl
  | succ steps ih =>
    cases g with
    | approach a =>
      have hadvance : (s.withSecrets k).vault.storage.advance? (s.withSecrets k).now a =
          s.vault.storage.advance? s.now a := rfl
      rw [advance, advance, hadvance]
      cases s.vault.storage.advance? s.now a with
      | none => rfl
      | some p => exact ih { s with vault := { s.vault with storage := p.2 } } (.approach p.1)
    | _ => rfl

namespace Wait

theorem openGate_withSecrets (s : Simulation) (k : Secrets) (w : Wait) :
    w.openGate (s.withSecrets k) = keyed k (w.openGate s) := by
  rw [openGate, openGate]
  cases w.opening? with
  | none => rfl
  | some o =>
    have hnow : (s.withSecrets k).now = s.now := rfl
    dsimp only
    rw [hnow]
    split <;> rfl

theorem advance_withSecrets (s : Simulation) (k : Secrets) (w : Wait) :
    w.advance (s.withSecrets k) = keyed k (w.advance s) := by
  rw [advance, advance, openGate_withSecrets]
  dsimp only [keyed]
  rw [Goal.advance_withSecrets]
  rfl

theorem isOver_withSecrets (s : Simulation) (k : Secrets) (w : Wait) :
    w.isOver (s.withSecrets k) = w.isOver s := by
  rw [isOver, isOver, Goal.isReached_withSecrets]

end Wait

theorem waitWithin_withSecrets (fuel deadline : Nat) (s : Simulation) (k : Secrets) (w : Wait) :
    waitWithin fuel deadline (s.withSecrets k) w = keyed k (waitWithin fuel deadline s w) := by
  -- the two runs look at the same clock, so they stop in the same round
  induction fuel generalizing s w with
  | zero => rfl
  | succ fuel ih =>
    rw [waitWithin, waitWithin, Wait.advance_withSecrets]
    obtain ⟨w, s⟩ := w.advance s
    have hnow : (s.withSecrets k).now = s.now := rfl
    simp only [keyed, Wait.isOver_withSecrets, hnow, settle_withSecrets, Wait.advance_withSecrets]
    split
    · rfl
    · split
      · rfl
      · obtain ⟨w, s⟩ := w.advance s.settle
        dsimp only
        split
        · rfl
        · exact ih { s with now := s.nextAlarm w deadline } w

theorem wait_withSecrets (s : Simulation) (k : Secrets) (w : Wait) :
    (s.withSecrets k).wait w = keyed k (s.wait w) :=
  waitWithin_withSecrets _ _ s k w

/-! ### Requests -/

theorem ask_withSecrets (s : Simulation) (k : Secrets) (b : BackendId) (r : Ref) :
    (s.withSecrets k).ask b r = keyed k (s.ask b r) := by
  have happroach : (s.withSecrets k).vault.storage.approach b r (s.withSecrets k).now =
      s.vault.storage.approach b r s.now := rfl
  rw [ask, ask, happroach, wait_withSecrets]
  obtain ⟨w?, s⟩ := s.wait ⟨.approach (s.vault.storage.approach b r s.now), none⟩
  cases w? with
  | none => rfl
  | some w =>
    obtain ⟨goal, opening?⟩ := w
    cases goal <;> rfl

theorem scrub_withSecrets (s : Simulation) (k : Secrets) (r : Ref) (volume : VolumeId) :
    (s.withSecrets k).scrub r volume = keyed k (s.scrub r volume) := by
  have hbegin : (s.withSecrets k).vault.beginCheck r volume = s.vault.beginCheck r volume := rfl
  rw [scrub, scrub, hbegin]
  cases s.vault.beginCheck r volume with
  | error fault => rfl
  | ok c =>
    dsimp only
    rw [ask_withSecrets]
    obtain ⟨answer, s⟩ := s.ask c.backend r
    cases answer <;> rfl

theorem replicateFrom_withSecrets (s : Simulation) (k : Secrets) (table : Nat)
    (source target : VolumeId) (r : Ref) :
    (s.withSecrets k).replicateFrom table source target r =
      keyed k (s.replicateFrom table source target r) := by
  have hbegin : ((s.withSecrets k).seenFrom table).beginCopy source target r =
      (s.seenFrom table).beginCopy source target r := rfl
  rw [replicateFrom, replicateFrom, hbegin]
  cases (s.seenFrom table).beginCopy source target r with
  | error fault => rfl
  | ok c =>
    dsimp only
    rw [ask_withSecrets]
    obtain ⟨answer, s⟩ := s.ask c.source r
    cases answer with
    | error failure => rfl
    | ok answer =>
      dsimp only [keyed]
      rw [s.operate_withSecrets k fun v => c.finish_withSecrets answer v k]
      rfl

theorem discover_withSecrets (s : Simulation) (k : Secrets) :
    (s.withSecrets k).discover = keyed k s.discover := by
  have hreplications : (s.withSecrets k).replications = s.replications := rfl
  rw [discover, discover, hreplications]
  cases s.replications with
  | nil => rfl
  | cons p rest =>
    have hseen : (s.withSecrets k).seenFrom p.1 = (s.seenFrom p.1).withSecrets k := rfl
    dsimp only
    rw [hseen, Vault.discover_withSecrets]
    rfl

theorem modifyReplication_withSecrets (s : Simulation) (k : Secrets)
    (f : Replication → Replication) :
    (s.withSecrets k).modifyReplication f = (s.modifyReplication f).withSecrets k := by
  have hreplications : (s.withSecrets k).replications = s.replications := rfl
  rw [modifyReplication, modifyReplication, hreplications]
  cases s.replications <;> rfl

theorem stopReplication_withSecrets (s : Simulation) (k : Secrets) (opening? : Option Opening) :
    (s.withSecrets k).stopReplication opening? = keyed k (s.stopReplication opening?) := by
  rw [stopReplication, stopReplication, modifyReplication_withSecrets, wait_withSecrets]
  obtain ⟨w?, s⟩ := (s.modifyReplication Replication.cancel).wait ⟨.replicationOver, opening?⟩
  cases w? with
  | none => rfl
  | some w =>
    have hreplication : (s.withSecrets k).replication? = s.replication? := rfl
    dsimp only [keyed]
    rw [hreplication]
    split <;> rfl

theorem modifyController_withSecrets {α : Type} (s : Simulation) (k : Secrets) (default : α)
    (f : Controller → α × Controller) :
    (s.withSecrets k).modifyController default f = keyed k (s.modifyController default f) := by
  have hcontrollers : (s.withSecrets k).controllers = s.controllers := rfl
  rw [modifyController, modifyController, hcontrollers]
  cases s.controllers <;> rfl

theorem startController_withSecrets (s : Simulation) (k : Secrets) (settings : ScrubSettings) :
    (s.withSecrets k).startController settings = keyed k (s.startController settings) := by
  rw [startController, startController]
  split
  · rw [modifyController_withSecrets]
    rfl
  · rfl

theorem request_withSecrets (s : Simulation) (k : Secrets) (command : Controller.Command)
    (opening? : Option Opening) :
    (s.withSecrets k).request command opening? = keyed k (s.request command opening?) := by
  rw [request, request, modifyController_withSecrets]
  obtain ⟨ticket, s⟩ := s.modifyController 0 fun c => c.submit command
  dsimp only [keyed]
  rw [wait_withSecrets]
  obtain ⟨w?, s⟩ := s.wait ⟨.reply ticket, opening?⟩
  cases w? with
  | none => rfl
  | some w =>
    have hcontroller : (s.withSecrets k).controller? = s.controller? := rfl
    dsimp only [keyed]
    rw [hcontroller]
    split <;> rfl

theorem cancelController_withSecrets (s : Simulation) (k : Secrets) (opening? : Option Opening) :
    (s.withSecrets k).cancelController opening? = keyed k (s.cancelController opening?) := by
  rw [cancelController, cancelController, modifyController_withSecrets]
  dsimp only [keyed]
  rw [wait_withSecrets]
  obtain ⟨w?, s⟩ :=
    (s.modifyController () fun c => ((), c.cancel)).2.wait ⟨.controllerOver, opening?⟩
  cases w? <;> rfl

/-! ### Single actions of the background work -/

theorem actScrubbing_withSecrets (s : Simulation) (k : Secrets) (i : Nat)
    (a : Controller.Action) :
    (s.withSecrets k).actScrubbing i a = keyed k (s.actScrubbing i a) := by
  have hcontrollers : (s.withSecrets k).controllers = s.controllers := rfl
  rw [actScrubbing, actScrubbing, hcontrollers]
  cases s.controllers[i]? with
  | none => rfl
  | some p =>
    have hseen : (s.withSecrets k).seenFrom p.1 = (s.seenFrom p.1).withSecrets k := rfl
    have hnow : (s.withSecrets k).now = s.now := rfl
    dsimp only
    rw [hseen, hnow, Controller.step?_withSecrets]
    cases p.2.step? s.now (s.seenFrom p.1) a <;> rfl

theorem actReplicating_withSecrets (s : Simulation) (k : Secrets) (i : Nat)
    (a : Replication.Action) :
    (s.withSecrets k).actReplicating i a = keyed k (s.actReplicating i a) := by
  have hreplications : (s.withSecrets k).replications = s.replications := rfl
  rw [actReplicating, actReplicating, hreplications]
  cases s.replications[i]? with
  | none => rfl
  | some p =>
    have hseen : (s.withSecrets k).seenFrom p.1 = (s.seenFrom p.1).withSecrets k := rfl
    have hnow : (s.withSecrets k).now = s.now := rfl
    dsimp only
    rw [hseen, hnow, Replication.step?_withSecrets]
    cases p.2.step? s.now (s.seenFrom p.1) a <;> rfl

/-! ### Whole runs -/

/-- Every chore commutes with giving the node other keys. -/
theorem perform_withSecrets (s : Simulation) (k : Secrets) (c : Chore) :
    (s.withSecrets k).perform c = keyed k (s.perform c) := by
  -- each case is the lemma about that chore; its answer is only wrapped up
  cases c with
  | scrub r volume => rw [perform, perform, scrub_withSecrets, map_keyed]
  | replicate source target r =>
    have hcopy : (s.withSecrets k).replicate source target r =
        keyed k (s.replicate source target r) :=
      s.replicateFrom_withSecrets k s.table source target r
    rw [perform, perform, hcopy, map_keyed]
  | discover => rw [perform, perform, discover_withSecrets, map_keyed]
  | replicateOne source target r =>
    have hcopy : (s.withSecrets k).replicateOne source target r =
        keyed k (s.replicateOne source target r) := s.replicateFrom_withSecrets k _ source target r
    rw [perform, perform, hcopy, map_keyed]
  | createJob volume =>
    have hnow : (s.withSecrets k).now = s.now := rfl
    rw [perform, perform, hnow,
      s.operate_withSecrets k fun v => v.createJob_withSecrets k volume s.now, map_keyed]
  | request command opening? => rw [perform, perform, request_withSecrets, map_keyed]
  | submit command => rw [perform, perform, modifyController_withSecrets, map_keyed]
  | scrubbing i a => rw [perform, perform, actScrubbing_withSecrets, map_keyed]
  | replicating i a => rw [perform, perform, actReplicating_withSecrets, map_keyed]
  | wait w => rw [perform, perform, wait_withSecrets, map_keyed]
  | setUpReplication settings => rfl
  | startReplication =>
    have hnow : (s.withSecrets k).now = s.now := rfl
    rw [perform, perform, startReplication, startReplication, hnow, modifyReplication_withSecrets]
    rfl
  | stopReplication opening? => rw [perform, perform, stopReplication_withSecrets, map_keyed]
  | startController settings => rw [perform, perform, startController_withSecrets, map_keyed]
  | cancelController opening? => rw [perform, perform, cancelController_withSecrets, map_keyed]

theorem performAll_withSecrets (s : Simulation) (k : Secrets) (chores : List Chore) :
    (s.withSecrets k).performAll chores = keyed k (s.performAll chores) := by
  induction chores generalizing s with
  | nil => rfl
  | cons c cs ih =>
    rw [performAll, performAll, perform_withSecrets]
    dsimp only [keyed]
    rw [ih]
    rfl

/-- Two nodes differ in their keys only. -/
structure Agree (s t : Simulation) : Prop where
  now : s.now = t.now
  records : s.vault.catalog.records = t.vault.catalog.records
  volumes : s.vault.catalog.volumes = t.vault.catalog.volumes
  jobs : s.vault.catalog.jobs = t.vault.catalog.jobs
  storage : s.vault.storage = t.vault.storage
  mounts : s.vault.mounts = t.vault.mounts
  formerMounts : s.formerMounts = t.formerMounts
  replications : s.replications = t.replications
  controllers : s.controllers = t.controllers

theorem agree_withSecrets (s : Simulation) (k : Secrets) : s.Agree (s.withSecrets k) :=
  ⟨rfl, rfl, rfl, rfl, rfl, rfl, rfl, rfl, rfl⟩

/-- Of two nodes that differ in their keys only, one is the other with its own keys. -/
theorem Agree.eq_withSecrets {s t : Simulation} (h : s.Agree t) :
    t = s.withSecrets t.vault.secrets := by
  obtain ⟨now, ⟨ring, ⟨records, volumes, collections, envelopes, jobs⟩, storage, mounts⟩,
    formerMounts, replications, controllers⟩ := t
  obtain ⟨hnow, hrecords, hvolumes, hjobs, hstorage, hmounts, hformer, hreplications,
    hcontrollers⟩ := h
  dsimp only at *
  subst hnow hrecords hvolumes hjobs hstorage hmounts hformer hreplications hcontrollers
  rfl

/-- Chores leave the keys alone. -/
theorem secrets_performAll (s : Simulation) (chores : List Chore) :
    (s.performAll chores).2.vault.secrets = s.vault.secrets := by
  have hsame : s.withSecrets s.vault.secrets = s := rfl
  have hrun := s.performAll_withSecrets s.vault.secrets chores
  rw [hsame] at hrun
  rw [hrun]
  rfl

/-- **Two nodes that differ in their keys only give the same answers, go on to differ in their keys
only, and keep their keys.** -/
theorem agree_performAll {s t : Simulation} (h : s.Agree t) (chores : List Chore) :
    (t.performAll chores).1 = (s.performAll chores).1 ∧
      (s.performAll chores).2.Agree (t.performAll chores).2 ∧
      (s.performAll chores).2.vault.secrets = s.vault.secrets ∧
      (t.performAll chores).2.vault.secrets = t.vault.secrets := by
  -- the second node is the first one with other keys, and so is what becomes of it
  refine ⟨?_, ?_, s.secrets_performAll chores, t.secrets_performAll chores⟩
  · rw [h.eq_withSecrets, performAll_withSecrets]
    rfl
  · rw [h.eq_withSecrets, performAll_withSecrets]
    exact agree_withSecrets _ _

namespace Sample

open Scrubbing.Sample (present oneByOne)

/-- A node without keys. -/
def node : Simulation := { start 1 with vault := Scrubbing.Sample.vault }

/-- The keys of another node, which knows the data key of the blobs. -/
def keys : Secrets where
  ring := .empty 5
  collections := OrderedMap.empty.insert "photos" "key"
  envelopes := OrderedMap.empty.insert "key" ⟨"key", []⟩

/-- A blob is checked, and a scan is stopped after its first record. -/
def chores : List Chore :=
  [.scrub present 1, .startController oneByOne, .submit (.resume ⟨7⟩), .scrubbing 0 .serve,
    .scrubbing 0 (.scan 1), .scrubbing 0 (.scan 1), .request (.stop ⟨7⟩) none]

end Sample

/-- The checks of a node without keys succeed, and those of a node with keys are no different. -/
theorem agree_performAll_sample :
    (Sample.node.scrub Scrubbing.Sample.present 1).1.toOption = some 3 ∧
      Sample.keys.envelopes ≠ Sample.node.vault.secrets.envelopes ∧
      ((Sample.node.withSecrets Sample.keys).performAll Sample.chores).1 =
        (Sample.node.performAll Sample.chores).1 ∧
      ((Sample.node.withSecrets Sample.keys).performAll Sample.chores).2.vault.secrets =
        Sample.keys := by
  obtain ⟨hanswers, -, -, hkeys⟩ :=
    agree_performAll (Sample.node.agree_withSecrets Sample.keys) Sample.chores
  refine ⟨by decide +kernel, fun h => ?_, hanswers, hkeys⟩
  have hsome : Sample.keys.envelopes.contains "key" = true := by decide
  rw [h] at hsome
  cases hsome

end Simulation

end BlobVault
