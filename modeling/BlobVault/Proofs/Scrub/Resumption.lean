import BlobVault.Proofs.History
import BlobVault.Proofs.Scrub.Steps

/-!
# Stopping, resuming and crashing

A scrub job is worked on by one scan after another.  Each of them can be stopped between any two
records, and can crash at any point, which loses all but the progress that was last saved.  None of
this shows in what the job comes to.

* `Scrubbing.Step` : what can happen to a job: a scan begins, goes on, or is gone, and what is not
  about the job happens elsewhere;
* `Scrubbing.Sound` : the progress, in memory and saved, is always that of a pass that goes on to
  the same result;
* `Scrubbing.result_of_history` : **however often it was interrupted, a job that ends has the result
  of one pass.**
-/

namespace BlobVault

/-- A vault and the scan that works on a job, if there is one. -/
structure Scrubbing where
  vault : Vault
  scan? : Option Scan

namespace Scrubbing

/-- What can happen while a job is worked on.  A scan may have any batch size but zero and any
checkpoint interval; all scans have the same limit for the report. -/
inductive Step (id : Uuid) (volume : VolumeId) (cap : Nat) : Scrubbing → Scrubbing → Prop
  /-- A scan takes the job up where it was saved. -/
  | resume {v : Vault} {j : ScrubJob} (settings : ScrubSettings) (now : Nat)
      (hcap : settings.maxReportBytes = cap) (hbatch : 1 ≤ settings.batchSize)
      (hj : v.catalog.findJob id = .ok j) (hopen : j.isCompleted = false) :
      Step id volume cap ⟨v, none⟩ ⟨v, some (.start settings j now)⟩
  /-- The scan goes on, and may see that it is to stop. -/
  | act {v v' : Vault} {s s' : Scan} (now : Nat) (cancelled : Bool)
      (hstep : s.step? now cancelled v = some (s', v')) :
      Step id volume cap ⟨v, some s⟩ ⟨v', some s'⟩
  /-- The scan is gone: it has ended, or crashed. -/
  | leave {v : Vault} {s : Scan} : Step id volume cap ⟨v, some s⟩ ⟨v, none⟩
  /-- Something else happens. -/
  | other {v v' : Vault} {s? : Option Scan} (hstill : v.Still volume v')
      (hjob : v'.catalog.findJob id = v.catalog.findJob id) :
      Step id volume cap ⟨v, s?⟩ ⟨v', s?⟩

variable {v₀ : Vault} {j₀ : ScrubJob} {cap : Nat}

/-- A job that is on its way to the result. -/
def Heading (v₀ : Vault) (j₀ : ScrubJob) (cap : Nat) (j : ScrubJob) : Prop :=
  j.result v₀ cap = j₀.result v₀ cap

/-- A job that has the result. -/
def Ended (v₀ : Vault) (j₀ : ScrubJob) (cap : Nat) (outcome : Scan.Outcome) (j : ScrubJob) : Prop :=
  (j₀.result v₀ cap).1 = outcome ∧ ∃ now, j = (j₀.result v₀ cap).2.ending outcome now

/-- The scan waits for the answer about a record: it will be what a check of the record says. -/
structure Asking (v₀ : Vault) (volume : VolumeId) (b : BlobRecord) (check : Check)
    (approach : Approach) : Prop where
  isOn : b.isOn volume = true
  mounted : v₀.mounts.get? volume = some approach.backend
  answer : check.finish (approach.reply
    ((v₀.storage.backend approach.backend).reads v₀.storage.files approach.ref)) =
      (v₀.scrub b.ref volume).1

/-- What a scan has in hand. -/
def Working (v₀ : Vault) (j₀ : ScrubJob) (cap : Nat) (v : Vault) (j : ScrubJob) :
    Scan.Phase → Prop
  | .querying => Heading v₀ j₀ cap j
  | .visiting records => Heading v₀ j₀ cap j ∧ records <+: j.remaining v₀
  | .checking b check approach rest => Heading v₀ j₀ cap j ∧ b :: rest <+: j.remaining v₀ ∧
      Asking v₀ j₀.volumeId b check approach
  | .saving outcome =>
    if outcome.isFinal then j₀.result v₀ cap = (outcome, j) else Heading v₀ j₀ cap j
  | .ended outcome => outcome.isFinal = true →
      ∃ j, v.catalog.findJob j₀.id = .ok j ∧ Ended v₀ j₀ cap outcome j

/-- A scan that works on the job as it should. -/
structure Fit (v₀ : Vault) (j₀ : ScrubJob) (cap : Nat) (v : Vault) (s : Scan) : Prop where
  limit : s.settings.maxReportBytes = cap
  batch : 1 ≤ s.settings.batchSize
  working : Working v₀ j₀ cap v s.job s.phase

/-- What is true of a job however it was worked on. -/
structure Sound (v₀ : Vault) (j₀ : ScrubJob) (cap : Nat) (x : Scrubbing) : Prop where
  still : v₀.Still j₀.volumeId x.vault
  saved : ∃ j, x.vault.catalog.findJob j₀.id = .ok j ∧
    (Heading v₀ j₀ cap j ∨ ∃ outcome, outcome.isFinal = true ∧ Ended v₀ j₀ cap outcome j)
  fit : ∀ s, x.scan? = some s → Fit v₀ j₀ cap x.vault s

theorem Sound.of_fit {v : Vault} {s : Scan} (hstill : v₀.Still j₀.volumeId v)
    (hsaved : ∃ j, v.catalog.findJob j₀.id = .ok j ∧
      (Heading v₀ j₀ cap j ∨ ∃ outcome, outcome.isFinal = true ∧ Ended v₀ j₀ cap outcome j))
    (hfit : Fit v₀ j₀ cap v s) : Sound v₀ j₀ cap ⟨v, some s⟩ :=
  ⟨hstill, hsaved, fun _ hs => Option.some.inj hs ▸ hfit⟩

theorem Heading.same {j : ScrubJob} (h : Heading v₀ j₀ cap j) :
    j.id = j₀.id ∧ j.volumeId = j₀.volumeId := by
  have hj := ScrubJob.pass_same v₀ cap j (j.remaining v₀)
  have hj₀ := ScrubJob.pass_same v₀ cap j₀ (j₀.remaining v₀)
  rw [← ScrubJob.result, h] at hj
  exact ⟨hj.1.symm.trans hj₀.1, hj.2.symm.trans hj₀.2⟩

/-- A pass that has dealt with one more record goes on to the same result, unless it ends there. -/
theorem Heading.visited (hfiled : v₀.catalog.Filed) {j : ScrubJob} (h : Heading v₀ j₀ cap j)
    {b : BlobRecord} {rest : List BlobRecord} (hrest : b :: rest <+: j.remaining v₀) :
    let job := j.visited b.ref (v₀.finding? j₀.volumeId b)
    if Report.isOver job.report cap then j₀.result v₀ cap = (.aborted, job.cut cap)
    else Heading v₀ j₀ cap job ∧ rest <+: job.remaining v₀ := by
  obtain ⟨more, hmore⟩ := hrest
  rw [List.cons_append] at hmore
  have hremaining := ScrubJob.remaining_visited hfiled hmore.symm (v₀.finding? j₀.volumeId b)
  have hresult := h
  rw [Heading, ScrubJob.result, ← hmore, ScrubJob.pass, h.same.2] at hresult
  intro job
  by_cases hover : Report.isOver job.report cap = true
  · rw [if_pos hover]
    exact hresult.symm.trans (if_pos hover)
  · rw [if_neg hover]
    have hresult := hresult.symm.trans (if_neg hover)
    refine ⟨?_, ?_⟩
    · rw [Heading, ScrubJob.result, hremaining]
      exact hresult.symm
    · rw [hremaining]
      exact List.prefix_append rest more

variable {v v' : Vault} {s : Scan}

/-- Taking note of a record keeps the job sound. -/
theorem sound_note (hfiled : v₀.catalog.Filed) (h : Sound v₀ j₀ cap ⟨v, some s⟩) (now : Nat)
    {b : BlobRecord} {rest : List BlobRecord} (hheading : Heading v₀ j₀ cap s.job)
    (hrest : b :: rest <+: s.job.remaining v₀) {result? : Option (Except Fault Nat)}
    (hresult : result? = v₀.finding? j₀.volumeId b) :
    Sound v₀ j₀ cap ⟨(s.note now v b.ref result? rest).2,
      some (s.note now v b.ref result? rest).1⟩ := by
  have hvisited := hheading.visited hfiled hrest
  rw [← hresult] at hvisited
  obtain ⟨hlimit, hbatch, -⟩ := h.fit s rfl
  unfold Scan.note
  simp only [hlimit]
  split
  · rename_i hover
    rw [if_pos hover] at hvisited
    exact .of_fit h.still h.saved ⟨hlimit, hbatch, hvisited⟩
  · rename_i hover
    rw [if_neg hover] at hvisited
    split
    · -- the progress is saved together with its cursor
      refine .of_fit (h.still.trans (.saveJob _ _ _)) ⟨_, ?_, .inl hvisited.1⟩
        ⟨hlimit, hbatch, hvisited⟩
      rw [← hvisited.1.same.1]
      exact Catalog.findJob_saveJob_self _ _
    · exact .of_fit h.still h.saved ⟨hlimit, hbatch, hvisited⟩

/-- What happens elsewhere does not matter. -/
theorem Sound.other {s? : Option Scan} (h : Sound v₀ j₀ cap ⟨v, s?⟩)
    (hstill : v.Still j₀.volumeId v')
    (hjob : v'.catalog.findJob j₀.id = v.catalog.findJob j₀.id) :
    Sound v₀ j₀ cap ⟨v', s?⟩ where
  still := h.still.trans hstill
  saved := by
    obtain ⟨j, hj, hkind⟩ := h.saved
    exact ⟨j, hjob.trans hj, hkind⟩
  fit s hs := by
    obtain ⟨hlimit, hbatch, hworking⟩ := h.fit s hs
    refine ⟨hlimit, hbatch, ?_⟩
    -- only what an ended scan has in hand speaks of the saved job
    cases hp : s.phase with
    | ended outcome =>
      rw [hp] at hworking
      intro hfinal
      obtain ⟨j, hj, hended⟩ := hworking hfinal
      exact ⟨j, hjob.trans hj, hended⟩
    | _ =>
      rw [hp] at hworking
      exact hworking

theorem working_query {c : Catalog} (hrecords : c.records = v₀.catalog.records)
    (hbatch : 1 ≤ s.settings.batchSize) (h : Heading v₀ j₀ cap s.job) :
    Working v₀ j₀ cap v s.job (s.query c) := by
  have hrecordsAfter : c.recordsAfter s.job.cursor s.settings.batchSize =
      (s.job.remaining v₀).take s.settings.batchSize := by
    rw [Catalog.recordsAfter, hrecords]
    rfl
  unfold Scan.query
  rw [hrecordsAfter]
  cases hremaining : s.job.remaining v₀ with
  | nil =>
    -- nothing remains, so the pass is over
    rw [Heading, ScrubJob.result, hremaining] at h
    rw [List.take_nil]
    exact h.symm
  | cons b rest =>
    obtain ⟨n, hn⟩ : ∃ n, s.settings.batchSize = n + 1 := ⟨_, (Nat.sub_add_cancel hbatch).symm⟩
    rw [hn, List.take_succ_cons]
    refine ⟨h, ?_⟩
    rw [hremaining, ← List.take_succ_cons]
    exact List.take_prefix _ _

theorem sound_visit (hfiled : v₀.catalog.Filed) (h : Sound v₀ j₀ cap ⟨v, some s⟩) (now : Nat)
    {b : BlobRecord} {rest : List BlobRecord} (hheading : Heading v₀ j₀ cap s.job)
    (hrest : b :: rest <+: s.job.remaining v₀) :
    Sound v₀ j₀ cap ⟨(s.visit now v b rest).2, some (s.visit now v b rest).1⟩ := by
  obtain ⟨hlimit, hbatch, -⟩ := h.fit s rfl
  unfold Scan.visit
  rw [hheading.same.2]
  by_cases hon : b.isOn j₀.volumeId = true
  · rw [if_pos hon, h.still.beginCheck]
    have hscrub := Vault.fst_scrub v₀ b.ref j₀.volumeId
    cases hcheck : v₀.beginCheck b.ref j₀.volumeId with
    | error fault =>
      rw [hcheck] at hscrub
      exact sound_note hfiled h now hheading hrest
        (by rw [Vault.finding?, if_pos hon, hscrub])
    | ok check =>
      rw [hcheck] at hscrub
      obtain ⟨hmounted, hcheckRef⟩ := Vault.beginCheck_eq_ok hcheck
      obtain ⟨hbackend, href, hreply⟩ := Storage.approach_eq v.storage check.backend check.ref now
      have hlike := h.still.backend _ hmounted
      refine .of_fit h.still h.saved ⟨hlimit, hbatch, hheading, hrest, hon, ?_, ?_⟩
      · rw [hbackend]
        exact hmounted
      · rw [hbackend, href, hreply, hlike.spoils, hscrub, hcheckRef]
  · rw [if_neg hon]
    exact sound_note hfiled h now hheading hrest (by rw [Vault.finding?, if_neg hon])

theorem sound_advance (h : Sound v₀ j₀ cap ⟨v, some s⟩) {b : BlobRecord} {check : Check}
    {approach approach' : Approach} {rest : List BlobRecord} {st : Storage} {now : Nat}
    (hworking : Working v₀ j₀ cap v s.job (.checking b check approach rest))
    (hadvance : v.storage.advance? now approach = some (approach', st)) :
    Sound v₀ j₀ cap ⟨{ v with storage := st },
      some { s with phase := .checking b check approach' rest }⟩ := by
  obtain ⟨hlimit, hbatch, -⟩ := h.fit s rfl
  obtain ⟨hheading, hrest, hon, hmounted, hanswer⟩ := hworking
  obtain ⟨-, hbackend, href, hreply⟩ := Storage.like_advance hadvance approach.backend
  have hstill : v.Still j₀.volumeId { v with storage := st } :=
    .ofStorage fun b => (Storage.like_advance hadvance b).1
  refine .of_fit (h.still.trans hstill) h.saved ⟨hlimit, hbatch, hheading, hrest, hon, ?_, ?_⟩
  · rw [hbackend]
    exact hmounted
  · rw [hbackend, href, hreply]
    exact hanswer

/-- The last save leaves the result, or the progress so far. -/
theorem sound_saving (h : Sound v₀ j₀ cap ⟨v, some s⟩) {outcome : Scan.Outcome}
    (hworking : Working v₀ j₀ cap v s.job (.saving outcome)) (now : Nat) :
    Sound v₀ j₀ cap ⟨{ v with catalog := v.catalog.saveJob (s.job.ending outcome now) },
      some { s with job := s.job.ending outcome now, phase := .ended outcome }⟩ := by
  obtain ⟨hlimit, hbatch, -⟩ := h.fit s rfl
  have hstill := h.still.trans (.saveJob j₀.volumeId v (s.job.ending outcome now))
  have hfind : ∀ {j : ScrubJob}, j.id = j₀.id →
      (v.catalog.saveJob j).findJob j₀.id = .ok j := fun {j} hid =>
    hid ▸ Catalog.findJob_saveJob_self _ j
  by_cases hfinal : outcome.isFinal = true
  · have hresult : j₀.result v₀ cap = (outcome, s.job) := by
      change if outcome.isFinal = true then _ else _ at hworking
      rwa [if_pos hfinal] at hworking
    have hid : (s.job.ending outcome now).id = j₀.id := by
      have := (ScrubJob.pass_same v₀ cap j₀ (j₀.remaining v₀)).1
      rw [← ScrubJob.result, hresult] at this
      rw [ScrubJob.ending, if_pos hfinal]
      exact this
    have hended : Ended v₀ j₀ cap outcome (s.job.ending outcome now) :=
      ⟨by rw [hresult], now, by rw [hresult]⟩
    exact .of_fit hstill ⟨_, hfind hid, .inr ⟨outcome, hfinal, hended⟩⟩
      ⟨hlimit, hbatch, fun _ => ⟨_, hfind hid, hended⟩⟩
  · have hheading : Heading v₀ j₀ cap s.job := by
      change if outcome.isFinal = true then _ else _ at hworking
      rwa [if_neg hfinal] at hworking
    have hending : s.job.ending outcome now = s.job := if_neg hfinal
    rw [hending] at hstill ⊢
    exact .of_fit hstill ⟨_, hfind hheading.same.1, .inl hheading⟩
      ⟨hlimit, hbatch, fun hf => absurd hf hfinal⟩

/-- An action of a scan keeps its job sound. -/
theorem sound_act (hfiled : v₀.catalog.Filed) (h : Sound v₀ j₀ cap ⟨v, some s⟩) {now : Nat}
    {cancelled : Bool} {s' : Scan} (hstep : s.step? now cancelled v = some (s', v')) :
    Sound v₀ j₀ cap ⟨v', some s'⟩ := by
  obtain ⟨hlimit, hbatch, hworking⟩ := h.fit s rfl
  unfold Scan.step? at hstep
  cases hp : s.phase with
  | querying =>
    rw [hp] at hstep hworking
    obtain ⟨rfl, rfl⟩ := Prod.mk.inj (Option.some.inj hstep)
    refine .of_fit h.still h.saved ⟨hlimit, hbatch, ?_⟩
    cases cancelled with
    | true => exact hworking
    | false => exact working_query h.still.records hbatch hworking
  | visiting records =>
    rw [hp] at hstep hworking
    obtain ⟨hheading, hrest⟩ := hworking
    cases records with
    | nil =>
      obtain ⟨rfl, rfl⟩ := Prod.mk.inj (Option.some.inj hstep)
      exact .of_fit h.still h.saved ⟨hlimit, hbatch, hheading⟩
    | cons b rest =>
      cases cancelled with
      | true =>
        obtain ⟨rfl, rfl⟩ := Prod.mk.inj (Option.some.inj hstep)
        exact .of_fit h.still h.saved ⟨hlimit, hbatch, hheading⟩
      | false =>
        have hvisit := sound_visit hfiled h now hheading hrest
        simp only [Bool.false_eq_true, if_false, Option.some.injEq] at hstep
        rw [hstep] at hvisit
        exact hvisit
  | checking b check approach rest =>
    rw [hp] at hstep hworking
    cases hpassage : approach.passage with
    | clear =>
      obtain ⟨hheading, hrest, hon, hmounted, hanswer⟩ := hworking
      have hlike := h.still.backend _ hmounted
      have hsound : Sound v₀ j₀ cap
          ⟨{ v with storage := (v.storage.answer approach).2 }, some s⟩ :=
        h.other (.ofStorage fun b => Storage.like_answer v.storage approach b) rfl
      have hfst : (v.storage.answer approach).1 = approach.reply
          ((v₀.storage.backend approach.backend).reads v₀.storage.files approach.ref) := by
        rw [← hlike.reads, ← Storage.fst_trueAnswer]
        rfl
      have hfinding : some (check.finish (v.storage.answer approach).1) =
          v₀.finding? j₀.volumeId b := by
        rw [Vault.finding?, if_pos hon, hfst, hanswer]
      have hnote := sound_note hfiled hsound now hheading hrest hfinding
      simp only [hpassage, Option.some.injEq] at hstep
      rw [hstep] at hnote
      exact hnote
    | sleeping wake gated =>
      simp only [hpassage, Option.map_eq_some_iff] at hstep
      obtain ⟨⟨approach', st⟩, hadvance, hnext⟩ := hstep
      obtain ⟨rfl, rfl⟩ := Prod.mk.inj hnext
      exact sound_advance h hworking hadvance
    | queued ticket =>
      simp only [hpassage, Option.map_eq_some_iff] at hstep
      obtain ⟨⟨approach', st⟩, hadvance, hnext⟩ := hstep
      obtain ⟨rfl, rfl⟩ := Prod.mk.inj hnext
      exact sound_advance h hworking hadvance
  | saving outcome =>
    rw [hp] at hstep hworking
    obtain ⟨rfl, rfl⟩ := Prod.mk.inj (Option.some.inj hstep)
    exact sound_saving h hworking now
  | ended outcome =>
    rw [hp] at hstep
    cases hstep

theorem Sound.step (hfiled : v₀.catalog.Filed) {x y : Scrubbing} (h : Sound v₀ j₀ cap x)
    (hstep : Step j₀.id j₀.volumeId cap x y) : Sound v₀ j₀ cap y := by
  cases hstep with
  | resume settings now hcap hbatch hj hopen =>
    refine .of_fit h.still h.saved ⟨hcap, hbatch, ?_⟩
    obtain ⟨j, hsaved, hkind⟩ := h.saved
    obtain rfl := Except.ok.inj (hj.symm.trans hsaved)
    rcases hkind with hheading | ⟨outcome, hfinal, -, now', rfl⟩
    · exact hheading
    · -- a job that has its result is completed
      rw [ScrubJob.ending, if_pos hfinal] at hopen
      cases hopen
  | act now cancelled hstep => exact sound_act hfiled h hstep
  | leave => exact ⟨h.still, h.saved, fun _ hs => by cases hs⟩
  | other hstill hjob => exact h.other hstill hjob

/-- **A job that ends has the result of one pass,** however often it was stopped, crashed and was
resumed on the way. -/
theorem result_of_history (hfiled : v₀.catalog.Filed)
    (hj₀ : v₀.catalog.findJob j₀.id = .ok j₀) {v : Vault} {s : Scan} {outcome : Scan.Outcome}
    (hhistory : Relation.ReflTransGen (Step j₀.id j₀.volumeId cap) ⟨v₀, none⟩ ⟨v, some s⟩)
    (hended : s.phase = .ended outcome) (hfinal : outcome.isFinal = true) :
    ∃ j, v.catalog.findJob j₀.id = .ok j ∧ (j₀.result v₀ cap).1 = outcome ∧
      ∃ now, j = (j₀.result v₀ cap).2.ending outcome now := by
  have hsound : ∀ {x}, Relation.ReflTransGen (Step j₀.id j₀.volumeId cap) ⟨v₀, none⟩ x →
      Sound v₀ j₀ cap x := by
    intro x hx
    induction hx with
    | refl => exact ⟨.refl _ _, ⟨j₀, hj₀, .inl rfl⟩, fun _ hs => by cases hs⟩
    | tail _ hstep ih => exact ih.step hfiled hstep
  have hworking := ((hsound hhistory).fit s rfl).working
  rw [hended] at hworking
  exact hworking hfinal

/-! ### Histories that can be computed -/

/-- What can be done with a job by itself. -/
inductive Event where
  | resume
  | act (cancelled : Bool)
  | leave

/-- What an event leads to, if it is possible. -/
def play? (settings : ScrubSettings) (id : Uuid) (x : Scrubbing) : Event → Option Scrubbing
  | .resume =>
    match x.scan?, x.vault.catalog.findJob id with
    | none, .ok j => if j.isCompleted then none else some ⟨x.vault, some (.start settings j 0)⟩
    | _, _ => none
  | .act cancelled =>
    x.scan?.bind fun s => (s.step? 0 cancelled x.vault).map fun (s, v) => ⟨v, some s⟩
  | .leave => x.scan?.map fun _ => ⟨x.vault, none⟩

def playAll? (settings : ScrubSettings) (id : Uuid) (x : Scrubbing) (events : List Event) :
    Option Scrubbing :=
  events.foldlM (play? settings id) x

variable {settings : ScrubSettings} {id : Uuid} {volume : VolumeId}

theorem step_of_play? (hbatch : 1 ≤ settings.batchSize) {x y : Scrubbing} {event : Event}
    (h : x.play? settings id event = some y) :
    Step id volume settings.maxReportBytes x y := by
  obtain ⟨v, s?⟩ := x
  cases s? with
  | none =>
    cases event with
    | resume =>
      cases hj : v.catalog.findJob id with
      | error fault =>
        simp only [play?, hj] at h
        cases h
      | ok j =>
        simp only [play?, hj] at h
        split at h
        · cases h
        · rename_i hopen
          obtain rfl := Option.some.inj h
          exact .resume settings 0 rfl hbatch hj (by simpa using hopen)
    | act cancelled => cases h
    | leave => cases h
  | some s =>
    cases event with
    | resume => cases h
    | act cancelled =>
      obtain ⟨⟨s', v'⟩, hstep, rfl⟩ := Option.map_eq_some_iff.1 h
      exact .act 0 cancelled hstep
    | leave =>
      obtain rfl := Option.some.inj h
      exact .leave

theorem history_of_playAll? (hbatch : 1 ≤ settings.batchSize) {x y : Scrubbing}
    {events : List Event} (h : x.playAll? settings id events = some y) :
    Relation.ReflTransGen (Step id volume settings.maxReportBytes) x y := by
  rw [playAll?] at h
  refine reflTransGen_of_foldlM ?_ h
  exact fun x event y hplay => step_of_play? hbatch hplay

/-! ### A job that is stopped and crashes -/

namespace Sample

def present : Ref := ⟨List.replicate 32 1, rfl⟩

def absent : Ref := ⟨List.replicate 32 2, rfl⟩

/-- The record of three bytes on the first volume. -/
def record (r : Ref) : BlobRecord :=
  { ref := r, keyId := "key", volumes := [1], pending := [], referenced := false,
    isCompressed := false, size := 3, sizeOnDisk := 3, crc32 := Crc32.ofBytes [1, 2, 3] }

def job : ScrubJob := .fresh ⟨7⟩ 1 (Timestamp.ofNanos 0)

/-- A volume that holds one of two blobs. -/
def vault : Vault where
  ring := .empty 1
  catalog := { Catalog.empty with
    records := (OrderedMap.empty.insert present (record present)).insert absent (record absent)
    jobs := OrderedMap.empty.insert ⟨7⟩ job }
  storage := Storage.empty.setBackend 10
    (.memory ⟨OrderedMap.empty.insert present [1, 2, 3], localCost, []⟩)
  mounts := OrderedMap.empty.insert 1 10

def oneByOne : ScrubSettings := ⟨1, .ofMillis 1000, 1000, 1⟩

/-- A scan that crashes before it has saved anything, one that is stopped after the first record,
and one that goes to the end. -/
def events : List Event :=
  [.resume, .act false, .act false, .act false, .leave,
    .resume, .act false, .act false, .act false, .act true, .act true, .act true, .leave,
    .resume, .act false, .act false, .act false, .act false, .act false, .act false]

theorem filed : vault.catalog.Filed := by
  intro r b hb
  simp only [vault, OrderedMap.get?_insert, Std.LawfulEqCmp.compare_eq_iff_eq] at hb
  split at hb
  · rename_i hr
    rw [← Option.some.inj hb, hr]
    rfl
  · split at hb
    · rename_i hr
      rw [← Option.some.inj hb, hr]
      rfl
    · cases hb

theorem completes : ((playAll? oneByOne ⟨7⟩ ⟨vault, none⟩ events).bind fun x =>
    x.scan?.bind fun s => s.phase.outcome?) = some .completed := by
  decide +kernel

end Sample

/-- A crash and a stop do not show in the result of the third scan. -/
theorem result_of_history_sample :
    ∃ v s, Relation.ReflTransGen (Step ⟨7⟩ 1 1000) ⟨Sample.vault, none⟩ ⟨v, some s⟩ ∧
      s.phase = .ended .completed ∧
      ∃ j, v.catalog.findJob ⟨7⟩ = .ok j ∧ (Sample.job.result Sample.vault 1000).1 = .completed ∧
        ∃ now, j = (Sample.job.result Sample.vault 1000).2.ending .completed now := by
  obtain ⟨⟨v, s?⟩, hplay, hs⟩ := Option.bind_eq_some_iff.1 Sample.completes
  obtain ⟨s, rfl, hphase⟩ := Option.bind_eq_some_iff.1 hs
  have hended : s.phase = .ended .completed := Scan.Phase.outcome?_eq_some.1 hphase
  have hhistory : Relation.ReflTransGen (Step ⟨7⟩ 1 1000) ⟨Sample.vault, none⟩ ⟨v, some s⟩ :=
    history_of_playAll? (by decide) hplay
  have hjob : Sample.vault.catalog.findJob Sample.job.id = .ok Sample.job := rfl
  exact ⟨v, s, hhistory, hended, result_of_history Sample.filed hjob hhistory hended rfl⟩

end Scrubbing

end BlobVault
