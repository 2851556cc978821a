import BlobVault.Proofs.Scrub.Progress
import BlobVault.Proofs.Scrub.Resumption

/-!
# What a crash can lose

A crash loses what a scan has done since it last saved its job.  The scan looks at the clock after
every record, so that is never more than the work of one interval and of the record at hand.

* `Scan.saves` : a step saves the job, whatever was saved before;
* `Scan.Dealt` : a step deals with a record, and the scan goes on;
* `Scan.exists_saved` : whether a step saves does not depend on the saved jobs, and the scan takes
  down the time of every save;
* `Watch` : a scan at work, and the time at which it last saved its job;
* `Watch.little_lost_of_history` : **after every record the saved job is the one in memory, or less
  than the interval has passed since the last save; and when the scan ends, they are the same.**
-/

namespace BlobVault

/-- The vault with other saved jobs. -/
def Vault.withJobs (v : Vault) (jobs : OrderedMap Uuid ScrubJob) : Vault :=
  { v with catalog := { v.catalog with jobs := jobs } }

namespace Scan

/-- The records that a scan has in hand. -/
def Phase.inHand : Phase → List BlobRecord
  | visiting records => records
  | checking b _ _ rest => b :: rest
  | querying | saving _ | ended _ => []

/-- The first record in hand has been dealt with, and the scan goes on. -/
def Dealt (s s' : Scan) : Prop :=
  ∃ b rest, s.phase.inHand = b :: rest ∧ s'.phase = .visiting rest

/-- The next step saves the job: it would be there afterwards even if no job had been saved. -/
def saves (s : Scan) (now : Nat) (cancelled : Bool) (v : Vault) : Bool :=
  match s.step? now cancelled (v.withJobs .empty) with
  | some (_, v') => v'.catalog.jobs.contains s.job.id
  | none => false

/-- The scan takes down the time when it saves.  It ends with a save, and goes on from a record
without one only if the interval has not passed. -/
structure Stamped (s : Scan) (now : Nat) (s' : Scan) (saved : Bool) : Prop where
  stamped : saved = true → s'.phase.outcome? = none → s'.lastSave = now
  kept : saved = false → s'.lastSave = s.lastSave ∧ s'.phase.outcome? = none
  early : saved = false → s.Dealt s' → now - s.lastSave < s.settings.checkpointInterval.nanos

variable {s s' : Scan} {v v' : Vault} {now : Nat} {cancelled : Bool}

theorem not_dealt_self (s : Scan) : ¬ s.Dealt s := by
  rintro ⟨b, rest, hhand, hphase⟩
  rw [hphase, Phase.inHand] at hhand
  exact List.cons_ne_self b rest hhand.symm

theorem not_dealt (h : ∀ rest, s'.phase ≠ .visiting rest) : ¬ s.Dealt s' := by
  rintro ⟨b, rest, -, hphase⟩
  exact h rest hphase

theorem stamped_saved (h : s'.phase.outcome? = none → s'.lastSave = now) :
    s.Stamped now s' true where
  stamped _ := h
  kept h := by cases h
  early h := by cases h

theorem stamped_unsaved (hsave : s'.lastSave = s.lastSave) (hgoing : s'.phase.outcome? = none)
    (hearly : s.Dealt s' → now - s.lastSave < s.settings.checkpointInterval.nanos) :
    s.Stamped now s' false where
  stamped h := by cases h
  kept _ := ⟨hsave, hgoing⟩
  early _ := hearly

/-- A step that deals with no record may go on without a save. -/
theorem stamped_idle (hsave : s'.lastSave = s.lastSave) (hgoing : s'.phase.outcome? = none)
    (hdealt : ¬ s.Dealt s') : s.Stamped now s' false :=
  stamped_unsaved hsave hgoing fun h => absurd h hdealt

/-- A part of a step does not depend on the saved jobs, and saves the job that it leads to, or
nothing. -/
structure Uniform (s : Scan) (now : Nat) (f : Vault → Scan × Vault) (v : Vault) (saved : Bool) :
    Prop where
  jobs : ∀ jobs, f (v.withJobs jobs) = ((f v).1,
    (f v).2.withJobs (if saved then jobs.insert (f v).1.job.id (f v).1.job else jobs))
  stamped : s.Stamped now (f v).1 saved

theorem uniform_note (s : Scan) (now : Nat) (v : Vault) (r : Ref)
    (result? : Option (Except Fault Nat)) (rest : List BlobRecord) :
    ∃ saved, s.Uniform now (fun v => s.note now v r result? rest) v saved := by
  unfold note
  dsimp only
  by_cases hover : Report.isOver (s.job.visited r result?).report s.settings.maxReportBytes = true
  · refine ⟨false, ?_, ?_⟩
    · simp only [hover, if_true]
      exact fun _ => rfl
    · simp only [hover, if_true]
      exact stamped_idle rfl rfl (not_dealt fun _ hphase => by cases hphase)
  · by_cases hdue : s.settings.checkpointInterval.nanos ≤ now - s.lastSave
    · refine ⟨true, ?_, ?_⟩
      · simp only [hover, hdue, if_true]
        exact fun _ => rfl
      · simp only [hover, hdue, if_true]
        exact stamped_saved fun _ => rfl
    · refine ⟨false, ?_, ?_⟩
      · simp only [hover, hdue, if_false]
        exact fun _ => rfl
      · simp only [hover, hdue, if_false]
        exact stamped_unsaved rfl rfl fun _ => Nat.lt_of_not_le hdue

theorem uniform_visit (s : Scan) (now : Nat) (v : Vault) (b : BlobRecord)
    (rest : List BlobRecord) : ∃ saved, s.Uniform now (fun v => s.visit now v b rest) v saved := by
  unfold visit
  by_cases hon : b.isOn s.job.volumeId = true
  · simp only [if_pos hon]
    cases hbegin : v.beginCheck b.ref s.job.volumeId with
    | error fault =>
      obtain ⟨saved, hjobs, hstamped⟩ := uniform_note s now v b.ref (some (.error fault)) rest
      have hothers (jobs) : (v.withJobs jobs).beginCheck b.ref s.job.volumeId = .error fault :=
        hbegin
      refine ⟨saved, fun jobs => ?_, ?_⟩
      · simp only [hbegin, hothers]
        exact hjobs jobs
      · simp only [hbegin]
        exact hstamped
    | ok check =>
      have hothers (jobs) : (v.withJobs jobs).beginCheck b.ref s.job.volumeId = .ok check := hbegin
      refine ⟨false, fun jobs => ?_, ?_⟩
      · simp only [hbegin, hothers]
        rfl
      · simp only [hbegin]
        exact stamped_idle rfl rfl (not_dealt fun _ hphase => by cases hphase)
  · simp only [if_neg hon]
    exact uniform_note s now v b.ref none rest

/-- Whether a step saves does not depend on the saved jobs. -/
theorem exists_saved (h : s.step? now cancelled v = some (s', v')) : ∃ saved,
    (∀ jobs, s.step? now cancelled (v.withJobs jobs) =
      some (s', v'.withJobs (if saved then jobs.insert s'.job.id s'.job else jobs))) ∧
    s.Stamped now s' saved := by
  unfold step? at h ⊢
  -- a record is dealt with only in the phases that have some in hand
  cases hphase : s.phase with
  | querying =>
    rw [hphase] at h
    obtain ⟨rfl, rfl⟩ := Prod.mk.inj (Option.some.inj h)
    refine ⟨false, fun jobs => rfl, stamped_idle rfl ?_ ?_⟩
    · cases cancelled with
      | true => rfl
      | false => exact outcome?_query s v.catalog
    · rintro ⟨b, rest, hhand, -⟩
      rw [hphase] at hhand
      cases hhand
  | visiting records =>
    rw [hphase] at h
    cases records with
    | nil =>
      obtain ⟨rfl, rfl⟩ := Prod.mk.inj (Option.some.inj h)
      exact ⟨false, fun jobs => rfl, stamped_idle rfl rfl (not_dealt fun _ hto => by cases hto)⟩
    | cons b rest =>
      cases cancelled with
      | true =>
        obtain ⟨rfl, rfl⟩ := Prod.mk.inj (Option.some.inj h)
        exact ⟨false, fun jobs => rfl, stamped_idle rfl rfl (not_dealt fun _ hto => by cases hto)⟩
      | false =>
        have hvisit : s.visit now v b rest = (s', v') := Option.some.inj h
        obtain ⟨saved, hjobs, hstamped⟩ := uniform_visit s now v b rest
        simp only [hvisit] at hjobs hstamped
        exact ⟨saved, fun jobs => congrArg some (hjobs jobs), hstamped⟩
  | checking b check approach rest =>
    rw [hphase] at h
    cases hpassage : approach.passage with
    | clear =>
      simp only [hpassage, Option.some.injEq] at h
      obtain ⟨saved, hjobs, hstamped⟩ := uniform_note s now
        { v with storage := (v.storage.answer approach).2 } b.ref
        (some (check.finish (v.storage.answer approach).1)) rest
      simp only [h] at hjobs hstamped
      refine ⟨saved, fun jobs => ?_, hstamped⟩
      simp only [hpassage]
      exact congrArg some (hjobs jobs)
    | _ =>
      simp only [hpassage] at h
      obtain ⟨x, hadvance, hx⟩ := Option.map_eq_some_iff.1 h
      obtain ⟨rfl, rfl⟩ := Prod.mk.inj hx
      refine ⟨false, fun jobs => ?_, stamped_idle rfl rfl (not_dealt fun _ hto => by cases hto)⟩
      simp only [hpassage]
      exact Option.map_eq_some_iff.2 ⟨x, hadvance, rfl⟩
  | saving outcome =>
    rw [hphase] at h
    obtain ⟨rfl, rfl⟩ := Prod.mk.inj (Option.some.inj h)
    exact ⟨true, fun jobs => rfl, stamped_saved fun hgoing => by cases hgoing⟩
  | ended outcome =>
    rw [hphase] at h
    cases h

theorem saves_of_step? (h : s.step? now cancelled v = some (s', v')) :
    v'.catalog.jobs = (if s.saves now cancelled v then v.catalog.jobs.insert s'.job.id s'.job
      else v.catalog.jobs) ∧ s.Stamped now s' (s.saves now cancelled v) := by
  obtain ⟨saved, hjobs, hstamped⟩ := exists_saved h
  have hsaves : s.saves now cancelled v = saved := by
    have hid : s'.job.id = s.job.id := (stepped_of_step? h).same.1
    unfold saves
    rw [hjobs .empty, ← hid]
    cases saved with
    | true => simp [Vault.withJobs, OrderedMap.contains]
    | false => simp [Vault.withJobs, OrderedMap.contains]
  rw [hsaves]
  refine ⟨?_, hstamped⟩
  -- the jobs that are there are some of those that could be there
  have hown : some (s', v') = some (s', v'.withJobs _) := h.symm.trans (hjobs v.catalog.jobs)
  exact congrArg (fun v : Vault => v.catalog.jobs) (Prod.mk.inj (Option.some.inj hown)).2

end Scan

/-- A scan at work in a vault. -/
structure Watch where
  vault : Vault
  scan : Scan
  /-- The time of the last step. -/
  clock : Nat
  /-- When the job was last saved, or the scan began. -/
  savedAt : Nat

namespace Watch

def start (settings : ScrubSettings) (j : ScrubJob) (v : Vault) (now : Nat) : Watch :=
  ⟨v, .start settings j now, now, now⟩

/-- Time goes on.  The scan takes a step, or the vault changes and the saved job does not. -/
inductive Step : Watch → Watch → Prop
  | act {v v' : Vault} {s s' : Scan} {clock savedAt now : Nat} {cancelled : Bool}
      (hlater : clock ≤ now) (hstep : s.step? now cancelled v = some (s', v')) :
      Step ⟨v, s, clock, savedAt⟩ ⟨v', s', now, if s.saves now cancelled v then now else savedAt⟩
  | other {v v' : Vault} {s : Scan} {clock savedAt now : Nat} (hlater : clock ≤ now)
      (hjob : v'.catalog.findJob s.job.id = v.catalog.findJob s.job.id) :
      Step ⟨v, s, clock, savedAt⟩ ⟨v', s, now, savedAt⟩

/-- The saved job is the one in memory: a crash would lose nothing. -/
def UpToDate (x : Watch) : Prop := x.vault.catalog.findJob x.scan.job.id = .ok x.scan.job

/-- What is true of a scan that began with some settings at some time. -/
structure Sound (settings : ScrubSettings) (began : Nat) (x : Watch) : Prop where
  settings : x.scan.settings = settings
  began : began ≤ x.savedAt
  past : x.savedAt ≤ x.clock
  /-- The scan knows when it saved. -/
  working : x.scan.phase.outcome? = none → x.scan.lastSave = x.savedAt
  ended : ∀ outcome, x.scan.phase = .ended outcome → x.UpToDate

variable {settings : ScrubSettings} {began : Nat} {x y : Watch}

theorem sound_start (settings : ScrubSettings) (j : ScrubJob) (v : Vault) (now : Nat) :
    Sound settings now (start settings j v now) where
  settings := rfl
  began := Nat.le_refl now
  past := Nat.le_refl now
  working _ := rfl
  ended _ hended := by cases hended

/-- A step that saves leaves the saved job up to date. -/
theorem upToDate_of_saves {v v' : Vault} {s s' : Scan} {now : Nat} {cancelled : Bool}
    (hstep : s.step? now cancelled v = some (s', v')) (hsaves : s.saves now cancelled v = true)
    (clock savedAt : Nat) : UpToDate ⟨v', s', clock, savedAt⟩ := by
  have hjobs := (Scan.saves_of_step? hstep).1
  rw [hsaves, if_pos rfl] at hjobs
  rw [UpToDate, Catalog.findJob, hjobs, OrderedMap.get?_insert_self]

theorem Sound.step (h : Sound settings began x) (hstep : Step x y) : Sound settings began y := by
  cases hstep with
  | @act v v' s s' clock savedAt now cancelled hlater hstep =>
    have hstepped := Scan.stepped_of_step? hstep
    have hsave : s.lastSave = savedAt := h.working hstepped.unfinished
    have hstamped := (Scan.saves_of_step? hstep).2
    have hbegan : began ≤ savedAt := h.began
    have hpast : savedAt ≤ clock := h.past
    cases hsaves : s.saves now cancelled v with
    | true =>
      rw [hsaves] at hstamped
      exact ⟨hstepped.settings.trans h.settings, Nat.le_trans hbegan (Nat.le_trans hpast hlater),
        Nat.le_refl now, hstamped.stamped rfl, fun _ _ => upToDate_of_saves hstep hsaves ..⟩
    | false =>
      rw [hsaves] at hstamped
      obtain ⟨hkept, hgoing⟩ := hstamped.kept rfl
      refine ⟨hstepped.settings.trans h.settings, hbegan, Nat.le_trans hpast hlater,
        fun _ => hkept.trans hsave, fun outcome hended => ?_⟩
      rw [Scan.Phase.outcome?_eq_some.2 hended] at hgoing
      cases hgoing
  | other hlater hjob =>
    exact ⟨h.settings, h.began, Nat.le_trans h.past hlater, h.working,
      fun outcome hended => hjob.trans (h.ended outcome hended)⟩

theorem Sound.dealt (h : Sound settings began x) (hstep : Step x y) (hdealt : x.scan.Dealt y.scan) :
    y.UpToDate ∨ y.clock - y.savedAt < settings.checkpointInterval.nanos := by
  cases hstep with
  | @act v v' s s' clock savedAt now cancelled hlater hstep =>
    cases hsaves : s.saves now cancelled v with
    | true => exact .inl (upToDate_of_saves hstep hsaves ..)
    | false =>
      have hearly := (Scan.saves_of_step? hstep).2.early hsaves hdealt
      have hsave : s.lastSave = savedAt := h.working (Scan.stepped_of_step? hstep).unfinished
      rw [hsave, h.settings] at hearly
      exact .inr hearly
  | other hlater hjob => exact absurd hdealt (Scan.not_dealt_self _)

/-- When a record has been dealt with, the saved job is the one in memory, or less than the interval
has passed since the last save, or since the scan began.  Without an interval they are the same
after every record, and when the scan ends they are the same. -/
theorem little_lost_of_history {j : ScrubJob} {v : Vault} {now : Nat}
    (h : Relation.ReflTransGen Step (start settings j v now) x) (hstep : Step x y) :
    (x.scan.Dealt y.scan →
      y.UpToDate ∨ y.clock - y.savedAt < settings.checkpointInterval.nanos) ∧
    (settings.checkpointInterval.nanos = 0 → x.scan.Dealt y.scan → y.UpToDate) ∧
    (∀ outcome, y.scan.phase = .ended outcome → y.UpToDate) ∧
    now ≤ y.savedAt ∧ y.savedAt ≤ y.clock := by
  have hsound : Sound settings now x := by
    clear hstep
    induction h with
    | refl => exact sound_start settings j v now
    | tail _ hstep ih => exact ih.step hstep
  have hnext := hsound.step hstep
  have hdealt := hsound.dealt hstep
  refine ⟨hdealt, fun hzero hd => ?_, hnext.ended, hnext.began, hnext.past⟩
  rcases hdealt hd with hsame | hearly
  · exact hsame
  · omega

/-- What a step at a time leads to, if it is possible. -/
def play? (x : Watch) (now : Nat) : Option Watch :=
  if x.clock ≤ now then
    (x.scan.step? now false x.vault).map fun (s', v') =>
      ⟨v', s', now, if x.scan.saves now false x.vault then now else x.savedAt⟩
  else none

theorem step_of_play? {now : Nat} (h : play? x now = some y) : Step x y := by
  unfold play? at h
  split at h
  · rename_i hlater
    obtain ⟨⟨s', v'⟩, hstep, rfl⟩ := Option.map_eq_some_iff.1 h
    exact .act hlater hstep
  · cases h

namespace Sample

/-- The second step sets out to check the first of two blobs. -/
def watch : Watch :=
  start Scrubbing.Sample.oneByOne Scrubbing.Sample.job Scrubbing.Sample.vault 0

/-- The check ends when more than half of the interval has passed. -/
theorem unsaved : ([0, 100000000].foldlM play? watch).bind (fun x =>
    (play? x 600000000).map fun y => (x.scan.phase.inHand, y.scan.phase matches .visiting [],
      y.scan.job.cursor, (y.vault.catalog.findJob y.scan.job.id).toOption.map (·.cursor))) =
    some ([Scrubbing.Sample.record Scrubbing.Sample.present], true, some Scrubbing.Sample.present,
      some none) := by
  decide +kernel

end Sample

/-- A record has been dealt with, and the saved job does not show it. -/
theorem little_lost_of_history_sample : ∃ x y,
    Relation.ReflTransGen Step Sample.watch x ∧ Step x y ∧ x.scan.Dealt y.scan ∧ ¬ y.UpToDate ∧
    y.clock - y.savedAt < Scrubbing.Sample.oneByOne.checkpointInterval.nanos := by
  obtain ⟨x, hplay, hlast⟩ := Option.bind_eq_some_iff.1 Sample.unsaved
  obtain ⟨y, hy, heq⟩ := Option.map_eq_some_iff.1 hlast
  obtain ⟨hhand, hphase, hcursor, hsaved⟩ :
      _ ∧ _ ∧ y.scan.job.cursor = _ ∧
        (y.vault.catalog.findJob y.scan.job.id).toOption.map (·.cursor) = _ := by
    simpa only [Prod.mk.injEq] using heq
  have hhistory : Relation.ReflTransGen Step Sample.watch x := by
    refine reflTransGen_of_foldlM ?_ hplay
    exact fun x now y hgo => step_of_play? hgo
  have hstep : Step x y := step_of_play? hy
  have hdealt : x.scan.Dealt y.scan := by
    refine ⟨_, _, hhand, ?_⟩
    split at hphase
    · assumption
    · cases hphase
  have hbehind : ¬ y.UpToDate := by
    intro hsame
    rw [hsame] at hsaved
    simp [Except.toOption, hcursor] at hsaved
  have hlost := (little_lost_of_history hhistory hstep).1 hdealt
  exact ⟨x, y, hhistory, hstep, hdealt, hbehind, hlost.resolve_left hbehind⟩

end Watch

end BlobVault
