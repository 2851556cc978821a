import BlobVault.Config
import BlobVault.Proofs.Replication.Start
import BlobVault.Proofs.Yaml.Shapes
import BlobVault.Scrub.Controller

/-!
# Starting up with a configuration

Replication needs a time between two searches and a queue that can be made, and so do scrubs need a
queue.  A configuration that is read successfully has positive limits; that is not enough.

* `Duration.ofFloat_eq_zero_iff` : at most half a nanosecond is no time at all;
* `Config.exists_interval_of_holds` : the time between two searches is that of a number of seconds;
* `Config.startup_of_ofText` : **an accepted configuration can be run, unless the time between two
  searches vanishes or a queue is too long to be made.**
-/

namespace BlobVault

/-! ### No time at all -/

theorem Binary64.roundQuotient_eq_zero_iff {num den : Nat} (h : 0 < den) :
    roundQuotient num den = 0 ↔ 2 * num ≤ den := by
  have hsplit := Nat.div_add_mod num den
  have hlt := Nat.mod_lt num h
  constructor
  · intro hzero
    simp only [roundQuotient] at hzero
    split at hzero
    · rw [hzero] at hsplit
      omega
    · split at hzero
      · cases hzero
      · split at hzero
        · rw [hzero] at hsplit
          omega
        · cases hzero
  · intro hle
    have hq : num / den = 0 := Nat.div_eq_of_lt (by omega)
    have hmod : num % den = num := Nat.mod_eq_of_lt (by omega)
    rw [roundQuotient, hq, hmod]
    split
    · rfl
    · rw [if_neg (by omega), if_pos rfl]

theorem Binary64.fraction_den_pos (m : Nat) (e : Int) : 0 < (fraction m e).2 := by
  rw [fraction, scale]
  split
  · exact Nat.one_pos
  · rw [Nat.one_mul]
    exact Nat.pow_pos Nat.two_pos

/-- At most half a nanosecond, of a number of seconds. -/
def Binary64.Vanishes : Binary64 → Prop
  | finite _ m e => 2 * ((fraction m e).1 * Duration.perSecond) ≤ (fraction m e).2
  | _ => False

/-- At most half a nanosecond is no time at all. -/
theorem Duration.ofFloat_eq_zero_iff {x : Binary64} {d : Duration} (h : ofFloat x = .ok d) :
    d.nanos = 0 ↔ x.Vanishes := by
  cases x with
  | nan => cases h
  | infinite negative => cases h
  | finite negative m e =>
    simp only [ofFloat] at h
    split at h
    · cases h
    · split at h
      · obtain rfl := Except.ok.inj h
        exact Binary64.roundQuotient_eq_zero_iff (Binary64.fraction_den_pos m e)
      · cases h

/-! ### What a document can say -/

theorem Duration.ofFloat_five : ofFloat (.ofNat 5) = .ok (.ofSeconds 5) := by decide

theorem duration_of_acceptSeconds {x : Binary64} {d : Datum} (h : acceptSeconds x = .ok d) :
    ∃ t, Duration.ofFloat x = .ok t ∧ d = .duration t := by
  rw [acceptSeconds] at h
  split at h
  · rename_i t ht
    exact ⟨t, ht, (Except.ok.inj h).symm⟩
  · cases h

theorem Plain.duration_of_holds {d : Datum} (h : Plain.seconds.Holds d) :
    ∃ x t, Duration.ofFloat x = .ok t ∧ d = .duration t := by
  obtain ⟨found, haccept⟩ := h
  cases found with
  | unsigned n => exact ⟨_, duration_of_acceptSeconds haccept⟩
  | negative n => exact ⟨_, duration_of_acceptSeconds haccept⟩
  | float x => exact ⟨_, duration_of_acceptSeconds haccept⟩
  | _ => cases haccept

/-- A field for a time holds the duration of a number of seconds. -/
theorem duration_of_secondsField {name : String} {n : Nat}
    (hn : Duration.ofFloat (.ofNat n) = .ok (.ofSeconds n)) {d : Datum}
    (h : (secondsField name n).shape.Holds d ∨ (secondsField name n).missing.inMap? = some d) :
    ∃ x t, Duration.ofFloat x = .ok t ∧ d = .duration t := by
  rcases h with h | h
  · simp only [secondsField, defaulted, Shape.Holds] at h
    exact Plain.duration_of_holds h
  · exact ⟨_, _, hn, (Option.some.inj h).symm⟩

/-- The time between two searches is that of a number of seconds. -/
theorem ReplicationSettings.exists_interval {d : Datum} {r : ReplicationSettings}
    (h : shape.Holds d) (hr : ofDatum? d = some r) :
    ∃ x, Duration.ofFloat x = .ok r.interval := by
  rw [shape, Shape.Holds] at h
  obtain ⟨ds, rfl, hfields⟩ := h
  obtain ⟨interval, rest, rfl, hinterval, hrest⟩ := fieldsHold_cons.1 hfields
  obtain ⟨x, t, hx, rfl⟩ := duration_of_secondsField Duration.ofFloat_five hinterval
  refine ⟨x, ?_⟩
  -- the other fields do not matter, but they are there
  obtain ⟨batchSize, rest, rfl, -, hrest⟩ := fieldsHold_cons.1 hrest
  obtain ⟨workers, rest, rfl, -, hrest⟩ := fieldsHold_cons.1 hrest
  obtain ⟨failurePause, rest, rfl, -, hrest⟩ := fieldsHold_cons.1 hrest
  rw [FieldsHold] at hrest
  subst hrest
  simp only [ofDatum?, Datum.duration?, Option.bind_eq_bind, Option.bind_some,
    Option.bind_eq_some_iff, Option.pure_def, Option.some.injEq] at hr
  obtain ⟨n, -, m, -, pause, -, rfl⟩ := hr
  exact hx

namespace Config

theorem distinct_shape : shape.Distinct := by
  simp [shape, Shape.Distinct, FieldsDistinct, defaulted, required, ReplicationSettings.shape,
    ReplicationSettings.fields, ScrubSettings.shape, ScrubSettings.fields, KeySettings.shape,
    Mount.shape, BackendSetup.shape, secondsField, countField]

variable {text : String} {c : Config}

/-- A configuration that is accepted is the one that was read, and has positive limits. -/
theorem ofText_eq_ok (h : ofText text = .ok c) :
    ∃ d, Yaml.read shape text = .ok d ∧ ofDatum? d = some c ∧
      c.replication.limitsOk = true ∧ c.scrub.limitsOk = true := by
  rw [ofText] at h
  split at h
  · cases h
  · rename_i d hread
    split at h
    · rename_i c' hc'
      rw [check] at h
      split at h
      · cases h
      · rename_i hreplication
        split at h
        · cases h
        · rename_i hscrub
          split at h
          · cases h
          · obtain rfl := Except.ok.inj h
            exact ⟨d, hread, hc', by simpa using hreplication, by simpa using hscrub⟩
    · cases h

theorem exists_interval_of_holds {d : Datum} (h : shape.Holds d) (hc : ofDatum? d = some c) :
    ∃ x, Duration.ofFloat x = .ok c.replication.interval := by
  rw [shape, Shape.Holds] at h
  obtain ⟨ds, rfl, hfields⟩ := h
  obtain ⟨node, rest, rfl, -, hrest⟩ := fieldsHold_cons.1 hfields
  obtain ⟨replication, rest, rfl, hreplication, hrest⟩ := fieldsHold_cons.1 hrest
  obtain ⟨scrub, rest, rfl, -, hrest⟩ := fieldsHold_cons.1 hrest
  obtain ⟨keys, rest, rfl, -, hrest⟩ := fieldsHold_cons.1 hrest
  obtain ⟨mounts, rest, rfl, -, hrest⟩ := fieldsHold_cons.1 hrest
  rw [FieldsHold] at hrest
  subst hrest
  simp only [ofDatum?, Option.bind_eq_bind, Option.bind_eq_some_iff, Option.pure_def,
    Option.some.injEq] at hc
  obtain ⟨ms, -, name, -, r, hr, s, -, k, -, ms', -, rfl⟩ := hc
  rcases hreplication with hholds | hdefault
  · exact ReplicationSettings.exists_interval hholds hr
  · obtain rfl := Option.some.inj hdefault
    obtain rfl := Option.some.inj hr
    exact ⟨.ofNat 5, Duration.ofFloat_five⟩

/-- **An accepted configuration can be run, unless the time between two searches vanishes or a queue
is too long to be made.**  Replication crashes in exactly those cases, and then when it is started;
a controller of scrubs cannot be started in exactly the last. -/
theorem startup_of_ofText (h : ofText text = .ok c) :
    (∃ x, Duration.ofFloat x = .ok c.replication.interval ∧
      ∀ now v y, Relation.ReflTransGen Replication.Move
          ((Replication.create c.replication).start now, v) y →
        (y.1.feeder = .crashed ↔ x.Vanishes ∨ queueLimit < c.replication.batchSize)) ∧
    (Controller.canStart c.scrub = false ↔ queueLimit < c.scrub.commandQueue) := by
  obtain ⟨d, hread, hc, hreplication, hscrub⟩ := ofText_eq_ok h
  obtain ⟨x, hx⟩ := exists_interval_of_holds (Yaml.holds_of_read distinct_shape hread) hc
  refine ⟨⟨x, hx, fun now v y hhistory => ?_⟩, ?_⟩
  · have hpositive : c.replication.batchSize ≠ 0 := by
      simp only [ReplicationSettings.limitsOk, Bool.and_eq_true, bne_iff_ne] at hreplication
      exact hreplication.2
    have hcapacity : (Replication.create c.replication).capacity = c.replication.batchSize :=
      Nat.max_eq_left (Nat.one_le_iff_ne_zero.2 hpositive)
    rw [Replication.crashed_iff_of_history hhistory, ← Duration.ofFloat_eq_zero_iff hx,
      Replication.canStart, hcapacity]
    show _ ↔ c.replication.interval.nanos = 0 ∨ _
    rw [Bool.and_eq_false_iff, bne_eq_false_iff_eq, decide_eq_false_iff_not, Nat.not_le]
    rfl
  · have hpositive : c.scrub.commandQueue ≠ 0 := by
      simp only [ScrubSettings.limitsOk, Bool.and_eq_true, bne_iff_ne] at hscrub
      exact hscrub.2
    rw [Controller.canStart, Nat.max_eq_left (Nat.one_le_iff_ne_zero.2 hpositive),
      decide_eq_false_iff_not, Nat.not_le]

namespace Sample

/-- A configuration without a time between two searches. -/
def restless : String := "replication:\n  interval: 0\n"

def settings : Config :=
  { standard with replication := { ReplicationSettings.standard with interval := ⟨0⟩ } }

theorem ofText_restless : ofText restless = .ok settings := by
  have hread : (ofText restless).toOption = some settings := by decide +kernel
  cases h : ofText restless with
  | error fault =>
    rw [h] at hread
    cases hread
  | ok c =>
    rw [h] at hread
    rw [Option.some.inj hread]

end Sample

theorem startup_of_ofText_sample :
    ofText Sample.restless = .ok Sample.settings ∧
      ((Replication.create Sample.settings.replication).start 0).feeder = .crashed ∧
      Controller.canStart Sample.settings.scrub = true := by
  obtain ⟨⟨x, hx, hcrashed⟩, hscrub⟩ := startup_of_ofText Sample.ofText_restless
  refine ⟨Sample.ofText_restless, (hcrashed 0 (.empty 1) _ .refl).2 (.inl ?_), ?_⟩
  · exact (Duration.ofFloat_eq_zero_iff hx).1 rfl
  · rw [← Bool.not_eq_false, hscrub]
    decide

/-- An accepted configuration may make replication crash. -/
theorem crashed_sample :
    ¬ ∀ text c, ofText text = .ok c →
      (∀ now v y, Relation.ReflTransGen Replication.Move
        ((Replication.create c.replication).start now, v) y → y.1.feeder ≠ .crashed) ∧
      Controller.canStart c.scrub = true := by
  intro hnever
  exact (hnever _ _ Sample.ofText_restless).1 0 (.empty 1) _ .refl rfl

end Config

end BlobVault
