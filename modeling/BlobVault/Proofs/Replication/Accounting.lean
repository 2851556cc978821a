import BlobVault.Proofs.History
import BlobVault.Proofs.Replication.Discovery
import BlobVault.Proofs.Vault.Transfer
import BlobVault.Replication.Run

/-!
# The copies that are in flight

A job is put in flight when a search finds it and released when nobody will deal with it any more:
after its copy was made or has failed, or when replication ends before that.  In between the feeder
has it, or the queue, or a worker.

* `Replication.openJobs` : the jobs that somebody has;
* `Replication.Move` : what can happen while replication runs, one thing at a time;
* `Replication.Sound.move` : what is in flight stays what somebody has;
* `Replication.accounted_of_history` : **after every history the copies in flight are those of the
  open jobs, no two of which are about the same copy, and none is left at the end.**

`Replication.step?` does some things at once that others can come between; `Replication.Move` has a
move for each part of them, and one for those who have not noticed a cancellation yet.
-/

namespace BlobVault

namespace Replication

variable {r r' : Replication} {v v' : Vault}

/-- The jobs that are still to be sent, in the queue, or held by a worker. -/
def openJobs (r : Replication) : List CopyJob :=
  r.feeder.jobs ++ r.queue ++ r.workers.filterMap Worker.job?

/-! ### Releasing jobs -/

theorem nodup_releaseAll (js : List CopyJob) {inFlight : InFlight} (h : inFlight.Nodup) :
    (inFlight.releaseAll js).Nodup := by
  induction js generalizing inFlight with
  | nil => exact h
  | cons j js ih => exact ih (h.erase _)

/-- Jobs that are released leave the others in flight. -/
theorem perm_releaseAll {js : List CopyJob} {rest : List (Ref × VolumeId)} {inFlight : InFlight}
    (h : inFlight.Perm (js.map CopyJob.pair ++ rest)) : (inFlight.releaseAll js).Perm rest := by
  induction js generalizing inFlight with
  | nil => exact h
  | cons j js ih =>
    refine ih ?_
    have herase := h.erase j.pair
    rwa [List.map_cons, List.cons_append, List.erase_cons_head] at herase

/-- A worker that is about something else lets go of its job and takes another. -/
theorem perm_held_set {workers : List Worker} {i : Nat} {w : Worker} (h : workers[i]? = some w) :
    ∃ others, (workers.filterMap Worker.job?).Perm (w.job?.toList ++ others) ∧
      ∀ w', ((workers.set i w').filterMap Worker.job?).Perm (w'.job?.toList ++ others) := by
  obtain ⟨hi, hw⟩ := List.getElem?_eq_some_iff.1 h
  have hperm : ∀ w', ((workers.take i ++ w' :: workers.drop (i + 1)).filterMap Worker.job?).Perm
      (w'.job?.toList ++ ((workers.take i).filterMap Worker.job? ++
        (workers.drop (i + 1)).filterMap Worker.job?)) := fun w' => by
    have hcons : (w' :: workers.drop (i + 1)).filterMap Worker.job? =
        w'.job?.toList ++ (workers.drop (i + 1)).filterMap Worker.job? := by
      rw [List.filterMap_cons]
      cases w'.job? <;> rfl
    rw [List.filterMap_append, hcons]
    exact List.perm_append_comm_assoc ..
  refine ⟨(workers.take i).filterMap Worker.job? ++ (workers.drop (i + 1)).filterMap Worker.job?,
    ?_, fun w' => ?_⟩
  · have hsplit := hperm w
    rwa [← hw, List.getElem_cons_drop, List.take_append_drop, hw] at hsplit
  · rw [List.set_eq_take_append_cons_drop, if_pos hi]
    exact hperm w'

/-! ### What stays true -/

/-- A copy that is being made is that of the worker's job. -/
def Worker.Matched : Worker → Prop
  | copying job copy _ => copy.ref = job.ref ∧ copy.volume = job.target
  | _ => True

/-- What is in flight are the copies of the open jobs. -/
structure Sound (r : Replication) : Prop where
  perm : r.inFlight.Perm (r.openJobs.map CopyJob.pair)
  nodup : r.inFlight.Nodup
  matched : ∀ w ∈ r.workers, w.Matched
  ended : r.feeder = .ended → r.openJobs = []

/-- Some jobs are released, and all others stay open, whoever has them now. -/
theorem Sound.of_released (h : r.Sound) (js : List CopyJob)
    (hrelease : r'.inFlight = r.inFlight.releaseAll js)
    (hopen : r.openJobs.Perm (js ++ r'.openJobs))
    (hmatched : ∀ w ∈ r'.workers, w ∈ r.workers ∨ w.Matched)
    (hended : r'.feeder = .ended → r.feeder = .ended ∨ r'.openJobs = []) : r'.Sound where
  perm := by
    rw [hrelease]
    refine perm_releaseAll (h.perm.trans ?_)
    rw [← List.map_append]
    exact hopen.map CopyJob.pair
  nodup := by
    rw [hrelease]
    exact nodup_releaseAll js h.nodup
  matched w hw := by
    rcases hmatched w hw with hold | hw
    · exact h.matched w hold
    · exact hw
  ended hr' := by
    rcases hended hr' with hr | hnone
    · rw [h.ended hr] at hopen
      exact (List.append_eq_nil_iff.1 hopen.nil_eq.symm).2
    · exact hnone

theorem sound_start {now : Nat} (h : r.inFlight = []) : (r.start now).Sound := by
  unfold start
  split
  · refine ⟨?_, ?_, fun w hw => ?_, fun hended => by cases hended⟩
    · have hidle : (List.replicate r.settings.workers Worker.idle).filterMap Worker.job? = [] := by
        simp [Worker.job?]
      simp [h, openJobs, Feeder.jobs, hidle]
    · simp [h]
    · obtain rfl := List.eq_of_mem_replicate hw
      trivial
  · refine ⟨?_, ?_, fun w hw => ?_, fun hended => ?_⟩
    · simp [h, openJobs, Feeder.jobs]
    · simp [h]
    · cases hw
    · cases hended

/-! ### The feeder -/

theorem jobs_ofJobs (js : List CopyJob) : (Feeder.ofJobs js).jobs = js := by
  cases js <;> rfl

theorem ofJobs_ne_ended (js : List CopyJob) : Feeder.ofJobs js ≠ .ended := by
  cases js <;> simp [Feeder.ofJobs]

theorem sound_tick {now : Nat} (h : r.Sound) (htick : r.tick? now v = some r') : r'.Sound := by
  unfold tick? at htick
  split at htick
  · rename_i hfeeder
    split at htick
    · cases htick
    · obtain rfl := Option.some.inj htick
      have hperm : (v.discover r.settings.batchSize r.inFlight).2.Perm
          ((v.discover r.settings.batchSize r.inFlight).1.map CopyJob.pair ++ r.inFlight) :=
        v.takeJobs_perm _ _ _
      refine ⟨?_, v.takeJobs_nodup _ _ h.nodup, h.matched, fun hended =>
        absurd hended (ofJobs_ne_ended _)⟩
      have hopen := h.perm
      simp only [openJobs, hfeeder, Feeder.jobs, List.nil_append] at hopen
      simp only [openJobs, jobs_ofJobs, List.append_assoc]
      rw [List.map_append]
      exact hperm.trans (hopen.append_left _)
  · cases htick

theorem sound_send (h : r.Sound) (hsend : r.send? = some r') : r'.Sound := by
  unfold send? at hsend
  split at hsend
  · rename_i job rest hfeeder
    split at hsend
    · cases hsend
    · obtain rfl := Option.some.inj hsend
      refine h.of_released [] rfl ?_ (fun w hw => .inl hw) fun hended =>
        absurd hended (ofJobs_ne_ended _)
      simp only [openJobs, hfeeder, jobs_ofJobs, List.nil_append]
      refine List.Perm.append_right _ ?_
      rw [← List.append_assoc, Feeder.jobs]
      exact (List.perm_append_singleton job (rest ++ r.queue)).symm
  · cases hsend

theorem sound_close (h : r.Sound) (hclose : r.close? = some r') : r'.Sound := by
  unfold close? at hclose
  split at hclose
  · rename_i hfeeder
    split at hclose
    · obtain rfl := Option.some.inj hclose
      refine h.of_released [] rfl ?_ (fun w hw => .inl hw) fun hended => by cases hended
      simp [openJobs, hfeeder, Feeder.jobs]
    · cases hclose
  · rename_i job rest hfeeder
    split at hclose
    · obtain rfl := Option.some.inj hclose
      refine h.of_released (job :: rest) rfl ?_ (fun w hw => .inl hw) fun hended => by cases hended
      simp [openJobs, hfeeder, Feeder.jobs]
    · cases hclose
  · cases hclose

theorem held_of_hasLeft {workers : List Worker} (h : workers.all Worker.hasLeft = true) :
    workers.filterMap Worker.job? = [] := by
  refine List.filterMap_eq_nil_iff.2 fun w hw => ?_
  have hleft := List.all_eq_true.1 h w hw
  cases w <;> first | rfl | cases hleft

theorem sound_conclude (h : r.Sound) (hconclude : r.conclude? = some r') : r'.Sound := by
  unfold conclude? at hconclude
  split at hconclude
  · rename_i hfeeder
    split at hconclude
    · rename_i hleft
      obtain rfl := Option.some.inj hconclude
      have hheld := held_of_hasLeft hleft
      refine h.of_released r.queue rfl ?_ (fun w hw => .inl hw) fun _ => .inr ?_
      · simp [openJobs, hfeeder, Feeder.jobs, hheld]
      · simp [openJobs, Feeder.jobs, hheld]
    · cases hconclude
  · cases hconclude

/-! ### Workers -/

/-- A worker is about something else, but has the same job. -/
theorem Sound.setWorker (h : r.Sound) {i : Nat} {w w' : Worker} (hw : r.workers[i]? = some w)
    (hjob : w'.job? = w.job?) (hmatched : w'.Matched) : (r.setWorker i w').Sound := by
  obtain ⟨others, hold, hnew⟩ := perm_held_set hw
  refine h.of_released [] rfl ?_ (fun w₀ hw₀ => ?_) .inl
  · have hheld : (r.workers.filterMap Worker.job?).Perm
        ((r.workers.set i w').filterMap Worker.job?) :=
      hold.trans (by rw [← hjob]; exact (hnew w').symm)
    exact hheld.append_left _
  · rcases List.mem_or_eq_of_mem_set hw₀ with hmem | rfl
    · exact .inl hmem
    · exact .inr hmatched

/-- A worker has no job any more, and its job is released. -/
theorem Sound.settle (h : r.Sound) {i : Nat} {w w' : Worker} {job : CopyJob}
    (hw : r.workers[i]? = some w) (hjob : w.job? = some job) (hjob' : w'.job? = none) :
    (r.settle i job w').Sound := by
  obtain ⟨others, hold, hnew⟩ := perm_held_set hw
  refine h.of_released [job] rfl ?_ (fun w₀ hw₀ => ?_) .inl
  · have hnew' := hnew w'
    rw [hjob] at hold
    rw [hjob'] at hnew'
    have hheld : (r.workers.filterMap Worker.job?).Perm
        (job :: (r.workers.set i w').filterMap Worker.job?) :=
      hold.trans (hnew'.symm.cons job)
    exact (hheld.append_left _).trans List.perm_middle
  · rcases List.mem_or_eq_of_mem_set hw₀ with hmem | rfl
    · exact .inl hmem
    · refine .inr ?_
      cases w₀ <;> trivial

theorem sound_receive (h : r.Sound) {i : Nat} (hw : r.workers[i]? = some .idle)
    (hreceive : r.receive? i = some r') : r'.Sound := by
  unfold receive? at hreceive
  split at hreceive
  · obtain rfl := Option.some.inj hreceive
    exact h.setWorker hw rfl trivial
  · split at hreceive
    · cases hreceive
    · rename_i job rest hqueue
      obtain rfl := Option.some.inj hreceive
      obtain ⟨others, hold, hnew⟩ := perm_held_set hw
      refine h.of_released [] rfl ?_ (fun w₀ hw₀ => ?_) .inl
      · -- the job goes from the queue to the worker
        have hheld : (job :: r.workers.filterMap Worker.job?).Perm
            ((r.workers.set i (.holding job)).filterMap Worker.job?) :=
          (hold.cons job).trans (hnew (.holding job)).symm
        simp only [openJobs, hqueue, List.nil_append, List.append_assoc, List.cons_append]
        exact (List.perm_middle.symm.append_left _).trans ((hheld.append_left rest).append_left _)
      · rcases List.mem_or_eq_of_mem_set hw₀ with hmem | rfl
        · exact .inl hmem
        · exact .inr trivial

theorem sound_begin (h : r.Sound) {i : Nat} {job : CopyJob}
    (hw : r.workers[i]? = some (.holding job)) (now : Nat) (v : Vault) :
    (r.begin now v i job).Sound := by
  unfold begin
  split
  · exact h.settle hw rfl rfl
  · split
    · exact h.settle hw rfl rfl
    · rename_i copy hcopy
      obtain ⟨-, -, hvolume, href, -⟩ := Vault.beginCopy_eq_ok hcopy
      exact h.setWorker hw rfl ⟨href, hvolume⟩

theorem sound_copyOn (h : r.Sound) {now i : Nat} {job : CopyJob} {copy : Copy} {approach : Approach}
    (hw : r.workers[i]? = some (.copying job copy approach))
    (hcopy : r.copyOn? now v i job copy approach = some (r', v')) : r'.Sound := by
  have hmatched : (Worker.copying job copy approach).Matched :=
    h.matched _ (List.mem_of_getElem? hw)
  unfold copyOn? at hcopy
  split at hcopy
  · -- the backend is asked, and the copy is made or fails
    dsimp only at hcopy
    split at hcopy
    · obtain rfl := congrArg Prod.fst (Option.some.inj hcopy)
      exact h.settle hw rfl rfl
    · obtain rfl := congrArg Prod.fst (Option.some.inj hcopy)
      exact h.settle hw rfl rfl
  · split at hcopy
    · obtain rfl := congrArg Prod.fst (Option.some.inj hcopy)
      exact h.setWorker hw rfl hmatched
    · cases hcopy

/-- The action leaves the vault alone. -/
theorem eq_some_of_map {o : Option Replication} (h : (o.map fun r => (r, v)) = some (r', v')) :
    o = some r' := by
  obtain ⟨r₁, ho, hr₁⟩ := Option.map_eq_some_iff.1 h
  rw [ho]
  exact congrArg (fun x => some x.1) hr₁

theorem sound_work (h : r.Sound) {now i : Nat} (hwork : r.work? now v i = some (r', v')) :
    r'.Sound := by
  unfold work? at hwork
  split at hwork
  · rename_i hw
    exact sound_receive h hw (eq_some_of_map hwork)
  · rename_i job hw
    obtain rfl := congrArg Prod.fst (Option.some.inj hwork)
    exact sound_begin h hw now v
  · rename_i job copy approach hw
    exact sound_copyOn h hw hwork
  · rename_i wake hw
    split at hwork
    · obtain rfl := congrArg Prod.fst (Option.some.inj hwork)
      exact h.setWorker hw rfl trivial
    · split at hwork
      · obtain rfl := congrArg Prod.fst (Option.some.inj hwork)
        exact h.setWorker hw rfl trivial
      · cases hwork
  · cases hwork
  · cases hwork

/-! ### Everything that can happen -/

theorem sound_step {now : Nat} {action : Action} (h : r.Sound)
    (hstep : r.step? now v action = some (r', v')) : r'.Sound := by
  cases action with
  | tick => exact sound_tick h (eq_some_of_map hstep)
  | send => exact sound_send h (eq_some_of_map hstep)
  | close => exact sound_close h (eq_some_of_map hstep)
  | conclude => exact sound_conclude h (eq_some_of_map hstep)
  | work i => exact sound_work h hstep

/-- Whether replication was cancelled is no part of the account. -/
theorem Sound.withCancelled (h : r.Sound) (cancelled : Bool) :
    Sound { r with cancelled := cancelled } :=
  ⟨h.perm, h.nodup, h.matched, h.ended⟩

/-- What can happen while replication runs, one thing at a time. -/
inductive Move : Replication × Vault → Replication × Vault → Prop
  /-- The feeder or a worker does something. -/
  | act {r r' : Replication} {v v' : Vault} (now : Nat) (action : Action)
      (hstep : r.step? now v action = some (r', v')) : Move (r, v) (r', v')
  /-- It does so because it has not noticed a cancellation. -/
  | late {r r' : Replication} {v v' : Vault} (now : Nat) (action : Action)
      (hstep : step? now v { r with cancelled := false } action = some (r', v')) :
      Move (r, v) ({ r' with cancelled := r.cancelled }, v')
  | cancel (r : Replication) (v : Vault) : Move (r, v) (r.cancel, v)
  /-- Someone else works on the vault, or a worker does and has not come to releasing its job. -/
  | other (r : Replication) (v v' : Vault) : Move (r, v) (r, v')
  /-- A worker is through with its copy, and releases the job. -/
  | release {r : Replication} {i : Nat} {job : CopyJob} {copy : Copy} {approach : Approach}
      {w : Worker} (v : Vault) (hw : r.workers[i]? = some (.copying job copy approach))
      (hfree : w.job? = none) : Move (r, v) (r.settle i job w, v)
  /-- The feeder releases one of the jobs that it will not send any more. -/
  | giveUp {r : Replication} {job : CopyJob} {rest : List CopyJob} (v : Vault)
      (hfeeder : r.feeder = .sending job rest) (hcancelled : r.cancelled = true) :
      Move (r, v) ({ r with
        feeder := match rest with
          | [] => .closing
          | job :: rest => .sending job rest
        inFlight := r.inFlight.release job }, v)
  /-- The feeder releases one of the jobs that no worker has taken. -/
  | drain {r : Replication} {job : CopyJob} {rest : List CopyJob} (v : Vault)
      (hfeeder : r.feeder = .closing) (hleft : r.workers.all Worker.hasLeft = true)
      (hqueue : r.queue = job :: rest) :
      Move (r, v) ({ r with queue := rest, inFlight := r.inFlight.release job }, v)

/-- Every move keeps the account. -/
theorem Sound.move {x y : Replication × Vault} (h : x.1.Sound) (hmove : Move x y) : y.1.Sound := by
  cases hmove with
  | act now action hstep => exact sound_step h hstep
  | late now action hstep =>
    exact (sound_step (h.withCancelled false) hstep).withCancelled _
  | cancel r v => exact h.withCancelled true
  | other r v v' => exact h
  | release v hw hfree => exact h.settle hw rfl hfree
  | @giveUp r job rest v hfeeder hcancelled =>
    refine h.of_released [job] rfl ?_ (fun w hw => .inl hw) fun hended => ?_
    · cases rest <;> simp [openJobs, hfeeder, Feeder.jobs]
    · cases rest <;> cases hended
  | @drain r job rest v hfeeder hleft hqueue =>
    refine h.of_released [job] rfl ?_ (fun w hw => .inl hw) .inl
    simp [openJobs, hfeeder, hqueue, Feeder.jobs]

/-- What is in flight, and who has it. -/
structure Accounted (r : Replication) : Prop where
  /-- In flight are the copies of the open jobs. -/
  inFlight : ∀ pair, pair ∈ r.inFlight ↔ ∃ job ∈ r.openJobs, job.pair = pair
  once : r.inFlight.Nodup
  /-- No two open jobs are about the same copy. -/
  distinct : (r.openJobs.map CopyJob.pair).Nodup
  /-- No two workers copy the same blob to the same volume. -/
  apart : ∀ (i i' : Nat) (job job' : CopyJob) (copy copy' : Copy) (approach approach' : Approach),
    i ≠ i' →
    r.workers[i]? = some (.copying job copy approach) →
    r.workers[i']? = some (.copying job' copy' approach') →
    (copy.ref, copy.volume) ≠ (copy'.ref, copy'.volume)
  /-- Nothing is left in flight at the end. -/
  ended : r.feeder = .ended → r.inFlight = []

/-- Two workers hold jobs about different copies. -/
theorem Sound.apart (h : r.Sound) {i i' : Nat} {w w' : Worker} {job job' : CopyJob} (hne : i ≠ i')
    (hw : r.workers[i]? = some w) (hw' : r.workers[i']? = some w') (hjob : w.job? = some job)
    (hjob' : w'.job? = some job') : job.pair ≠ job'.pair := by
  have hopen : (r.openJobs.map CopyJob.pair).Nodup := h.perm.nodup_iff.1 h.nodup
  have hheld : r.workers.Pairwise fun w w' => ∀ job, w.job? = some job → ∀ job',
      w'.job? = some job' → job.pair ≠ job'.pair := by
    rw [openJobs, List.map_append] at hopen
    have hnodup := (List.nodup_append.1 hopen).2.1
    exact List.pairwise_filterMap.1 (List.pairwise_map.1 hnodup)
  obtain ⟨hi, rfl⟩ := List.getElem?_eq_some_iff.1 hw
  obtain ⟨hi', rfl⟩ := List.getElem?_eq_some_iff.1 hw'
  rcases Nat.lt_or_gt_of_ne hne with hlt | hlt
  · exact List.pairwise_iff_getElem.1 hheld i i' hi hi' hlt job hjob job' hjob'
  · exact (List.pairwise_iff_getElem.1 hheld i' i hi' hi hlt job' hjob' job hjob).symm

theorem Sound.accounted (h : r.Sound) : r.Accounted where
  inFlight pair := by
    rw [h.perm.mem_iff, List.mem_map]
  once := h.nodup
  distinct := h.perm.nodup_iff.1 h.nodup
  apart i i' job job' copy copy' approach approach' hne hw hw' := by
    obtain ⟨href, hvolume⟩ := h.matched _ (List.mem_of_getElem? hw)
    obtain ⟨href', hvolume'⟩ := h.matched _ (List.mem_of_getElem? hw')
    rw [href, hvolume, href', hvolume']
    exact h.apart hne hw hw' rfl rfl
  ended hended := by
    have hnone := h.perm
    rw [h.ended hended] at hnone
    exact hnone.eq_nil

/-- **After every history the copies in flight are those of the open jobs**, each of which is about
another copy, and when replication has ended there is none. -/
theorem accounted_of_history {now : Nat} {x : Replication × Vault} (hempty : r.inFlight = [])
    (hhistory : Relation.ReflTransGen Move (r.start now, v) x) : x.1.Accounted := by
  have hsound : x.1.Sound := by
    induction hhistory with
    | refl => exact sound_start hempty
    | tail _ hmove ih => exact ih.move hmove
  exact hsound.accounted

/-! ### Two workers and a cancellation -/

/-- Plays an action, or a cancellation. -/
def play? (x : Replication × Vault) : Option Action → Option (Replication × Vault)
  | some action => x.1.step? 0 x.2 action
  | none => some (x.1.cancel, x.2)

theorem move_of_play? {x y : Replication × Vault} {event : Option Action}
    (h : play? x event = some y) : Move x y := by
  cases event with
  | some action => exact .act 0 action h
  | none =>
    obtain rfl := Option.some.inj h
    exact .cancel x.1 x.2

namespace Sample

open Vault.Backlog (lower higher)

def middle : Ref := ⟨1 :: List.replicate 31 2, rfl⟩

/-- A blob that is stored on the first volume and wanted on the second. -/
def blob (r : Ref) : BlobRecord := { BlobRecord.written r with pending := [2], referenced := true }

def vault : Vault :=
  { Vault.empty 1 with
    catalog := { Catalog.empty with
      records := ((OrderedMap.empty.insert lower (blob lower)).insert middle (blob middle)).insert
        higher (blob higher) }
    mounts := (OrderedMap.empty.insert 1 10).insert 2 20 }

/-- Two workers. -/
def pair : Replication := create ⟨.ofMillis 1000, 3, 2, .ofMillis 1000⟩

/-- Both workers copy, and the last job is still to be sent when replication is cancelled.  The copy
of the first worker fails, and the worker leaves. -/
def events : List (Option Action) :=
  [some .tick, some .send, some (.work 0), some (.work 0), some .send, some (.work 1),
    some (.work 1), none, some .close, some (.work 0), some (.work 0)]

theorem played : ((events.foldlM play? (pair.start 0, vault)).map fun x =>
    (x.1.feeder, x.1.openJobs)) = some (.closing, [⟨middle, 1, 2⟩]) := by
  decide +kernel

end Sample

/-- The second worker still copies, and nothing else is in flight. -/
theorem accounted_of_history_sample :
    Sample.pair.inFlight = [] ∧
      ∃ x, Relation.ReflTransGen Move (Sample.pair.start 0, Sample.vault) x ∧
        x.1.feeder = .closing ∧ x.1.openJobs = [⟨Sample.middle, 1, 2⟩] ∧ x.1.Accounted := by
  obtain ⟨x, hplay, hstate⟩ := Option.map_eq_some_iff.1 Sample.played
  obtain ⟨hfeeder, hopen⟩ := Prod.mk.inj hstate
  have hhistory : Relation.ReflTransGen Move (Sample.pair.start 0, Sample.vault) x := by
    refine reflTransGen_of_foldlM ?_ hplay
    exact fun _ _ _ h => move_of_play? h
  exact ⟨rfl, x, hhistory, hfeeder, hopen, accounted_of_history rfl hhistory⟩

end Replication

end BlobVault
