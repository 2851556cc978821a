import BlobVault.Proofs.Scrub.Pass

/-!
# The steps of a scan

All that a step of a scan can do, said once, so that no invariant of a scan has to open its
definition.

* `Scan.Noted` : what becomes of a scan that has dealt with a record;
* `Scan.Stepped` : what one step does, by the phase that the scan is in;
* `Scan.stepped_of_step?` : there is nothing else;
* `Scan.Stepped.unfinished`, `Scan.Stepped.same`, `Scan.Stepped.records` : a scan that takes a step
  has not ended, keeps its job, and leaves the records alone;
* `Scan.Stepped.saves` : it saves its own job, or nothing.
-/

namespace BlobVault

namespace Scan

theorem Phase.outcome?_eq_some {phase : Phase} {outcome : Outcome} :
    phase.outcome? = some outcome ↔ phase = .ended outcome := by
  cases phase <;> simp [Phase.outcome?]

/-- The report is too long once the record has been dealt with. -/
def overflows (s : Scan) (r : Ref) (result? : Option (Except Fault Nat)) : Bool :=
  Report.isOver (s.job.visited r result?).report s.settings.maxReportBytes

/-- What becomes of a scan that has dealt with a record. -/
inductive Noted (s : Scan) (now : Nat) (v : Vault) (r : Ref) (result? : Option (Except Fault Nat))
    (rest : List BlobRecord) : Scan → Vault → Prop
  /-- The report has grown too long. -/
  | full (hover : s.overflows r result? = true) : Noted s now v r result? rest
      { s with
        job := (s.job.visited r result?).cut s.settings.maxReportBytes
        phase := .saving .aborted } v
  /-- It is time to save the progress. -/
  | checkpoint (hroom : s.overflows r result? = false)
      (hdue : s.settings.checkpointInterval.nanos ≤ now - s.lastSave) :
      Noted s now v r result? rest
      { s with job := s.job.visited r result?, lastSave := now, phase := .visiting rest }
      { v with catalog := v.catalog.saveJob (s.job.visited r result?) }
  | next (hroom : s.overflows r result? = false)
      (hearly : now - s.lastSave < s.settings.checkpointInterval.nanos) :
      Noted s now v r result? rest
      { s with job := s.job.visited r result?, phase := .visiting rest } v

/-- What one step of a scan does. -/
inductive Stepped (now : Nat) (v : Vault) (s : Scan) : Bool → Scan → Vault → Prop
  /-- It sees that it is to stop. -/
  | stop (hphase : s.phase = .querying ∨ ∃ b rest, s.phase = .visiting (b :: rest)) :
      Stepped now v s true { s with phase := .saving .stopped } v
  | query (hphase : s.phase = .querying) :
      Stepped now v s false { s with phase := s.query v.catalog } v
  /-- The batch has been dealt with. -/
  | refill {cancelled : Bool} (hphase : s.phase = .visiting []) :
      Stepped now v s cancelled { s with phase := .querying } v
  /-- It sets out to check a blob of its volume. -/
  | begin {b : BlobRecord} {check : Check} {approach : Approach} {rest : List BlobRecord}
      (hphase : s.phase = .visiting (b :: rest)) (hon : b.isOn s.job.volumeId = true) :
      Stepped now v s false { s with phase := .checking b check approach rest } v
  /-- It passes over a record, or learns at once that its blob cannot be checked. -/
  | visit {b : BlobRecord} {result? : Option (Except Fault Nat)} {rest : List BlobRecord}
      {s' : Scan} {v' : Vault} (hphase : s.phase = .visiting (b :: rest))
      (hnoted : Noted s now v b.ref result? rest s' v') : Stepped now v s false s' v'
  /-- The check of a blob comes nearer to its backend. -/
  | approach {cancelled : Bool} {b : BlobRecord} {check : Check} {approach approach' : Approach}
      {rest : List BlobRecord} {st : Storage} (hphase : s.phase = .checking b check approach rest) :
      Stepped now v s cancelled { s with phase := .checking b check approach' rest }
        { v with storage := st }
  /-- The check of a blob is over. -/
  | check {cancelled : Bool} {b : BlobRecord} {check : Check} {approach : Approach}
      {result : Except Fault Nat} {rest : List BlobRecord} {st : Storage} {s' : Scan} {v' : Vault}
      (hphase : s.phase = .checking b check approach rest)
      (hnoted : Noted s now { v with storage := st } b.ref (some result) rest s' v') :
      Stepped now v s cancelled s' v'
  | save {cancelled : Bool} {outcome : Outcome} (hphase : s.phase = .saving outcome) :
      Stepped now v s cancelled { s with job := s.job.ending outcome now, phase := .ended outcome }
        { v with catalog := v.catalog.saveJob (s.job.ending outcome now) }

variable {s s' : Scan} {v v' : Vault} {now : Nat} {cancelled : Bool}

theorem noted_note (s : Scan) (now : Nat) (v : Vault) (r : Ref)
    (result? : Option (Except Fault Nat)) (rest : List BlobRecord) :
    Noted s now v r result? rest (s.note now v r result? rest).1 (s.note now v r result? rest).2 := by
  unfold note
  dsimp only
  split
  · rename_i hover
    exact .full hover
  · rename_i hroom
    have hroom : s.overflows r result? = false := Bool.eq_false_iff.2 hroom
    split
    · rename_i hdue
      exact .checkpoint hroom hdue
    · rename_i hearly
      exact .next hroom (Nat.lt_of_not_le hearly)

theorem stepped_visit {b : BlobRecord} {rest : List BlobRecord}
    (hphase : s.phase = .visiting (b :: rest)) :
    Stepped now v s false (s.visit now v b rest).1 (s.visit now v b rest).2 := by
  unfold visit
  by_cases hon : b.isOn s.job.volumeId = true
  · rw [if_pos hon]
    cases v.beginCheck b.ref s.job.volumeId with
    | error fault => exact .visit hphase (noted_note ..)
    | ok check => exact .begin hphase hon
  · rw [if_neg hon]
    exact .visit hphase (noted_note ..)

/-- A scan does nothing else. -/
theorem stepped_of_step? (h : s.step? now cancelled v = some (s', v')) :
    Stepped now v s cancelled s' v' := by
  unfold step? at h
  cases hp : s.phase with
  | querying =>
    rw [hp] at h
    obtain ⟨rfl, rfl⟩ := Prod.mk.inj (Option.some.inj h)
    cases cancelled with
    | true => exact .stop (.inl hp)
    | false => exact .query hp
  | visiting records =>
    rw [hp] at h
    cases records with
    | nil =>
      obtain ⟨rfl, rfl⟩ := Prod.mk.inj (Option.some.inj h)
      exact .refill hp
    | cons b rest =>
      cases cancelled with
      | true =>
        obtain ⟨rfl, rfl⟩ := Prod.mk.inj (Option.some.inj h)
        exact .stop (.inr ⟨b, rest, hp⟩)
      | false =>
        have hvisit : Stepped now v s false _ _ := stepped_visit hp
        rw [Option.some.inj h] at hvisit
        exact hvisit
  | checking b check approach rest =>
    rw [hp] at h
    cases hpassage : approach.passage with
    | clear =>
      have hnoted := noted_note s now { v with storage := (v.storage.answer approach).2 } b.ref
        (some (check.finish (v.storage.answer approach).1)) rest
      simp only [hpassage, Option.some.injEq] at h
      rw [h] at hnoted
      exact .check hp hnoted
    | _ =>
      simp only [hpassage] at h
      obtain ⟨x, -, hx⟩ := Option.map_eq_some_iff.1 h
      obtain ⟨rfl, rfl⟩ := Prod.mk.inj hx
      exact .approach hp
  | saving outcome =>
    rw [hp] at h
    obtain ⟨rfl, rfl⟩ := Prod.mk.inj (Option.some.inj h)
    exact .save hp
  | ended outcome =>
    rw [hp] at h
    cases h

/-! ### What no step changes -/

theorem ending_same (j : ScrubJob) (outcome : Outcome) (now : Nat) :
    (j.ending outcome now).id = j.id ∧ (j.ending outcome now).volumeId = j.volumeId ∧
      (j.ending outcome now).cursor = j.cursor := by
  unfold ScrubJob.ending
  split <;> exact ⟨rfl, rfl, rfl⟩

theorem Noted.settings {r : Ref} {result? : Option (Except Fault Nat)} {rest : List BlobRecord}
    (h : Noted s now v r result? rest s' v') : s'.settings = s.settings := by
  cases h <;> rfl

/-- The cursor is at the record that was dealt with. -/
theorem Noted.job {r : Ref} {result? : Option (Except Fault Nat)} {rest : List BlobRecord}
    (h : Noted s now v r result? rest s' v') :
    s'.job.id = s.job.id ∧ s'.job.volumeId = s.job.volumeId ∧ s'.job.cursor = some r := by
  cases h <;> exact ScrubJob.visited_same s.job r result?

theorem Noted.records {r : Ref} {result? : Option (Except Fault Nat)} {rest : List BlobRecord}
    (h : Noted s now v r result? rest s' v') : v'.catalog.records = v.catalog.records := by
  cases h <;> rfl

/-- A scan that has cut its report saves it later, on its way out. -/
theorem Noted.saves {r : Ref} {result? : Option (Except Fault Nat)} {rest : List BlobRecord}
    (h : Noted s now v r result? rest s' v') : v'.catalog = v.catalog ∨
      v'.catalog = v.catalog.saveJob s'.job ∧ ∀ outcome, s'.phase ≠ .saving outcome := by
  cases h with
  | full hover => exact .inl rfl
  | checkpoint hroom hdue => exact .inr ⟨rfl, fun _ => nofun⟩
  | next hroom hearly => exact .inl rfl

namespace Stepped

theorem unfinished (h : Stepped now v s cancelled s' v') : s.phase.outcome? = none := by
  cases h with
  | stop hphase =>
    rcases hphase with hphase | ⟨b, rest, hphase⟩ <;>
    · rw [hphase]
      rfl
  | _ hphase =>
    rw [hphase]
    rfl

theorem settings (h : Stepped now v s cancelled s' v') : s'.settings = s.settings := by
  cases h with
  | visit _ hnoted => exact hnoted.settings
  | check _ hnoted => exact hnoted.settings
  | _ => rfl

theorem same (h : Stepped now v s cancelled s' v') :
    s'.job.id = s.job.id ∧ s'.job.volumeId = s.job.volumeId := by
  cases h with
  | visit _ hnoted => exact ⟨hnoted.job.1, hnoted.job.2.1⟩
  | check _ hnoted => exact ⟨hnoted.job.1, hnoted.job.2.1⟩
  | save hphase =>
    obtain ⟨hid, hvolume, -⟩ := ending_same s.job _ now
    exact ⟨hid, hvolume⟩
  | _ => exact ⟨rfl, rfl⟩

theorem records (h : Stepped now v s cancelled s' v') :
    v'.catalog.records = v.catalog.records := by
  cases h with
  | visit _ hnoted => exact hnoted.records
  | check _ hnoted => exact hnoted.records
  | _ => rfl

/-- A step saves nothing but the job as it then is, and nothing when it is about to end. -/
theorem saves (h : Stepped now v s cancelled s' v') : v'.catalog = v.catalog ∨
    v'.catalog = v.catalog.saveJob s'.job ∧ ∀ outcome, s'.phase ≠ .saving outcome := by
  cases h with
  | visit _ hnoted => exact hnoted.saves
  | check _ hnoted => exact hnoted.saves
  | save hphase => exact .inr ⟨rfl, fun _ => nofun⟩
  | _ => exact .inl rfl

end Stepped

end Scan

end BlobVault
