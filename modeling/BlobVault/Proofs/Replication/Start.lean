import BlobVault.Proofs.Replication.Accounting

/-!
# Replication crashes at its start, or never

Replication that cannot be started with its settings has a feeder that crashed and no workers, so
nothing happens to it any more.  Nothing that the feeder or a worker does is a crash.

* `Replication.Uncrashed` : what an action of the feeder shows, and leaves;
* `Replication.Settled` : whether there was a crash is settled;
* `Replication.Settled.of_step`, `Replication.Settled.move` : it stays so, whatever is done;
* `Replication.crashed_iff_of_history` : **the feeder has crashed exactly if the settings cannot be
  run with.**
-/

namespace BlobVault

namespace Replication

variable {r r' : Replication} {v v' : Vault}

theorem feeder_ofJobs_ne_crashed (js : List CopyJob) : Feeder.ofJobs js ≠ .crashed := by
  cases js <;> simp [Feeder.ofJobs]

theorem feeder_receive {i : Nat} (h : r.receive? i = some r') : r'.feeder = r.feeder := by
  rw [receive?] at h
  split at h
  · obtain rfl := Option.some.inj h
    rfl
  · split at h
    · cases h
    · obtain rfl := Option.some.inj h
      rfl

theorem feeder_begin (now : Nat) (v : Vault) (r : Replication) (i : Nat) (job : CopyJob) :
    (r.begin now v i job).feeder = r.feeder := by
  rw [begin]
  split
  · rfl
  · split <;> rfl

theorem feeder_copyOn {now i : Nat} {job : CopyJob} {copy : Copy} {approach : Approach}
    (h : r.copyOn? now v i job copy approach = some (r', v')) : r'.feeder = r.feeder := by
  rw [copyOn?] at h
  split at h
  · dsimp only at h
    split at h <;> (obtain rfl := congrArg Prod.fst (Option.some.inj h); rfl)
  · split at h
    · obtain rfl := congrArg Prod.fst (Option.some.inj h)
      rfl
    · cases h

/-- Only a worker that is there can do something, and it does nothing to the feeder. -/
theorem feeder_work {now i : Nat} (h : r.work? now v i = some (r', v')) :
    r'.feeder = r.feeder ∧ r.workers ≠ [] := by
  refine ⟨?_, fun hnone => by rw [work?, hnone] at h; cases h⟩
  unfold work? at h
  split at h
  · exact feeder_receive (eq_some_of_map h)
  · obtain rfl := congrArg Prod.fst (Option.some.inj h)
    exact feeder_begin ..
  · exact feeder_copyOn h
  · split at h
    · obtain rfl := congrArg Prod.fst (Option.some.inj h)
      rfl
    · split at h
      · obtain rfl := congrArg Prod.fst (Option.some.inj h)
        rfl
      · cases h
  · cases h
  · cases h

/-! ### What the feeder does is not a crash -/

/-- There was no crash, and there is none now. -/
def Uncrashed (r r' : Replication) : Prop := r.feeder ≠ .crashed ∧ r'.feeder ≠ .crashed

theorem uncrashed_tick {now : Nat} (h : r.tick? now v = some r') : Uncrashed r r' := by
  unfold tick? at h
  split at h
  · rename_i hfeeder
    split at h
    · cases h
    · rw [← Option.some.inj h, Uncrashed, hfeeder]
      exact ⟨by simp, feeder_ofJobs_ne_crashed _⟩
  · cases h

theorem uncrashed_send (h : r.send? = some r') : Uncrashed r r' := by
  unfold send? at h
  split at h
  · rename_i hfeeder
    split at h
    · cases h
    · rw [← Option.some.inj h, Uncrashed, hfeeder]
      exact ⟨by simp, feeder_ofJobs_ne_crashed _⟩
  · cases h

theorem uncrashed_close (h : r.close? = some r') : Uncrashed r r' := by
  unfold close? at h
  split at h <;> rename_i hfeeder
  · split at h
    · rw [← Option.some.inj h, Uncrashed, hfeeder]
      simp
    · cases h
  · split at h
    · rw [← Option.some.inj h, Uncrashed, hfeeder]
      simp
    · cases h
  · cases h

theorem uncrashed_conclude (h : r.conclude? = some r') : Uncrashed r r' := by
  unfold conclude? at h
  split at h
  · rename_i hfeeder
    split at h
    · rw [← Option.some.inj h, Uncrashed, hfeeder]
      simp
    · cases h
  · cases h

/-! ### Whether there was a crash is settled -/

/-- The feeder crashed when it was started, or not at all; nobody works for one that has. -/
structure Settled (r : Replication) (crashed : Prop) : Prop where
  crashed_iff : r.feeder = .crashed ↔ crashed
  idle : crashed → r.workers = []

variable {crashed : Prop}

theorem settled_start (r : Replication) (now : Nat) :
    (r.start now).Settled (r.canStart = false) := by
  rw [start]
  split
  · rename_i h
    exact ⟨by simp [h], fun hnot => by rw [h] at hnot; cases hnot⟩
  · rename_i h
    exact ⟨by simp [h], fun _ => rfl⟩

theorem Settled.of_uncrashed (h : r.Settled crashed) (hnot : Uncrashed r r') :
    r'.Settled crashed := by
  have hfalse : ¬ crashed := fun hc => hnot.1 (h.crashed_iff.2 hc)
  exact ⟨by simp [hnot.2, hfalse], fun hc => absurd hc hfalse⟩

theorem Settled.of_step (h : r.Settled crashed) {now : Nat} {action : Action}
    (hstep : r.step? now v action = some (r', v')) : r'.Settled crashed := by
  -- whatever can be done shows that there was no crash, and makes none
  refine h.of_uncrashed ?_
  cases action with
  | tick => exact uncrashed_tick (eq_some_of_map hstep)
  | send => exact uncrashed_send (eq_some_of_map hstep)
  | close => exact uncrashed_close (eq_some_of_map hstep)
  | conclude => exact uncrashed_conclude (eq_some_of_map hstep)
  | work i =>
    obtain ⟨hfeeder, hworkers⟩ := feeder_work hstep
    have hne : r.feeder ≠ .crashed := fun hc => hworkers (h.idle (h.crashed_iff.1 hc))
    exact ⟨hne, by rwa [hfeeder]⟩

theorem Settled.withCancelled (h : r.Settled crashed) (cancelled : Bool) :
    Settled { r with cancelled := cancelled } crashed := ⟨h.crashed_iff, h.idle⟩

theorem Settled.move {x y : Replication × Vault} (h : x.1.Settled crashed) (hmove : Move x y) :
    y.1.Settled crashed := by
  cases hmove with
  | act now action hstep => exact h.of_step hstep
  | late now action hstep => exact ((h.withCancelled false).of_step hstep).withCancelled _
  | cancel r v => exact h.withCancelled true
  | other r v v' => exact h
  | @release r i job copy approach w v hw hfree =>
    refine ⟨h.crashed_iff, fun hc => ?_⟩
    rw [h.idle hc] at hw
    cases hw
  | @giveUp r job rest v hfeeder hcancelled =>
    have hne : ¬ crashed := fun hc => by
      have hcrashed := h.crashed_iff.2 hc
      rw [hfeeder] at hcrashed
      cases hcrashed
    exact ⟨by cases rest <;> simp [hne], fun hc => absurd hc hne⟩
  | drain v hfeeder hleft hqueue => exact ⟨h.crashed_iff, h.idle⟩

/-- Replication crashes when it is started, or never. -/
theorem crashed_iff_of_history {now : Nat} {x : Replication × Vault}
    (hhistory : Relation.ReflTransGen Move (r.start now, v) x) :
    x.1.feeder = .crashed ↔ r.canStart = false := by
  have hsettled : x.1.Settled (r.canStart = false) := by
    induction hhistory with
    | refl => exact settled_start r now
    | tail _ hmove ih => exact ih.move hmove
  exact hsettled.crashed_iff

end Replication

end BlobVault
