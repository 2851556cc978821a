import BlobVault.Proofs.History
import BlobVault.Proofs.Scrub.Ascent
import BlobVault.Proofs.Scrub.Resumption
import BlobVault.Proofs.Vault.Write
import Mathlib.Data.List.Nodup

/-!
# What a scrub covers while blobs come in

A scan takes its records in batches, and between any two of its steps blobs are written and copied:
before, within and after the batch that it has in hand.  It can be stopped, and another scan goes on
where it ended.

* `Round` : a job, and the blobs that its scans have checked;
* `Vault.Retains` : no volume loses a blob; writes, copies and commits see to that;
* `Round.Swept`, `Round.Covers` : everything up to a position has been checked, and a batch misses
  nothing after it;
* `Round.covered_of_history` : **when the job ends, every blob that was there at first has been
  checked once, in ascending order.**
-/

namespace BlobVault

open OrderedMap (isAfter)

/-! ### Records that stay -/

/-- Every record is still kept under its own reference, and a volume that it lists is still
listed. -/
structure Catalog.Retains (volume : VolumeId) (c c' : Catalog) : Prop where
  filed : c.Filed → c'.Filed
  listed : c.Filed → ∀ r b, c.records.get? r = some b → b.isOn volume = true →
    ∃ b', c'.records.get? r = some b' ∧ b'.isOn volume = true

namespace Catalog

variable {volume : VolumeId} {c c' c'' : Catalog}

namespace Retains

theorem ofRecords (h : c'.records = c.records) : Retains volume c c' where
  filed hfiled r b hb := hfiled r b (h ▸ hb)
  listed _ _ b hb hon := ⟨b, h ▸ hb, hon⟩

theorem trans (h : Retains volume c c') (h' : Retains volume c' c'') : Retains volume c c'' where
  filed hfiled := h'.filed (h.filed hfiled)
  listed hfiled r b hb hon := by
    obtain ⟨b', hb', hon'⟩ := h.listed hfiled r b hb hon
    exact h'.listed (h.filed hfiled) r b' hb' hon'

/-- A record that is new, or replaces one that lists no more than it. -/
theorem ofInsert {r : Ref} {b : BlobRecord} (hrecords : c'.records = c.records.insert r b)
    (href : c.Filed → b.ref = r)
    (hon : ∀ old, c.records.get? r = some old → old.isOn volume = true → b.isOn volume = true) :
    Retains volume c c' where
  filed hfiled r' b' hb' := by
    rw [hrecords, OrderedMap.get?_insert] at hb'
    split at hb'
    · rename_i hr
      obtain rfl := Option.some.inj hb'
      rw [Std.LawfulEqOrd.eq_of_compare hr, href hfiled]
    · exact hfiled r' b' hb'
  listed _ r' b' hb' hon' := by
    rw [hrecords, OrderedMap.get?_insert]
    split
    · rename_i hr
      rw [Std.LawfulEqOrd.eq_of_compare hr] at hb'
      exact ⟨b, rfl, hon b' hb' hon'⟩
    · exact ⟨b', hb', hon'⟩

end Retains

theorem retains_create {b : BlobRecord} {id : VolumeId} (h : c.create b id = .ok c') :
    Retains volume c c' := by
  obtain ⟨hnone, v, -, rfl⟩ := create_eq_ok h
  refine .ofInsert rfl (fun _ => BlobRecord.ref_arrived_listed b id) fun old hold => ?_
  rw [hnone] at hold
  cases hold

theorem retains_confirm {r : Ref} {id : VolumeId} (h : c.confirm r id = .ok c') :
    Retains volume c c' := by
  obtain ⟨b, v, hb, -, rfl⟩ := confirm_eq_ok h
  refine .ofInsert rfl (fun hfiled => ?_) fun old hold hon => ?_
  · rw [BlobRecord.ref_arrived_listed, hfiled r b hb]
  · obtain rfl := Option.some.inj (hb.symm.trans hold)
    rw [BlobRecord.isOn_arrived_listed, hon, Bool.true_or]

theorem retains_commit {refs : List Ref} {desired : List VolumeId}
    (h : c.commit refs desired = .ok c') : Retains volume c c' := by
  obtain rfl := commit_eq_ok h
  have hcommitted : ∀ (b : BlobRecord) (r : Ref),
      (if r ∈ refs then b.committed desired else b).ref = b.ref ∧
      (if r ∈ refs then b.committed desired else b).isOn volume = b.isOn volume := by
    intro b r
    split <;> exact ⟨rfl, rfl⟩
  refine ⟨fun hfiled r b' hb' => ?_, fun _ r b hb hon => ?_⟩
  · rw [get?_foldl_committed] at hb'
    obtain ⟨b, hb, rfl⟩ := Option.map_eq_some_iff.1 hb'
    rw [(hcommitted b r).1, hfiled r b hb]
  · refine ⟨_, ?_, (hcommitted b r).2.trans hon⟩
    rw [get?_foldl_committed, hb]
    rfl

end Catalog

/-- A step of a write keeps the records and the jobs. -/
theorem Write.step_retains (w : Write) (v : Vault) (volume : VolumeId) :
    v.catalog.Retains volume (w.step v).2.catalog ∧ (w.step v).2.catalog.jobs = v.catalog.jobs := by
  cases hp : w.phase with
  | checking =>
    rw [step_checking hp]
    exact ⟨.ofRecords rfl, rfl⟩
  | reading =>
    rcases step_reading hp v with ⟨plain, -, hstep⟩ | ⟨fault, -, hstep⟩ <;>
    · rw [hstep]
      exact ⟨.ofRecords rfl, rfl⟩
  | encoding plain =>
    obtain ⟨ids, hv, -⟩ := step_encoding hp v
    rw [hv]
    exact ⟨.ofRecords rfl, rfl⟩
  | storing record ciphertext =>
    rw [(step_storing hp v).1]
    exact ⟨.ofRecords rfl, rfl⟩
  | recording record =>
    rw [step_recording hp]
    cases hcreate : v.catalog.create record w.volume with
    | error fault => exact ⟨.ofRecords rfl, rfl⟩
    | ok catalog =>
      obtain ⟨-, _, -, hcatalog⟩ := Catalog.create_eq_ok hcreate
      exact ⟨Catalog.retains_create hcreate, by rw [hcatalog]⟩
  | finished outcome =>
    rw [step_of_outcome? (r := outcome) (by rw [hp]; rfl)]
    exact ⟨.ofRecords rfl, rfl⟩

/-- The completion of a copy keeps the records and the jobs. -/
theorem Copy.finish_retains (c : Copy) (answer : Except Fault Stream) (v : Vault)
    (volume : VolumeId) :
    v.catalog.Retains volume (c.finish answer v).2.catalog ∧
      (c.finish answer v).2.catalog.jobs = v.catalog.jobs := by
  rcases c.catalog_finish answer v with hsame | hconfirm
  · exact ⟨.ofRecords (by rw [hsame]), by rw [hsame]⟩
  · obtain ⟨_, _, -, -, heq⟩ := Catalog.confirm_eq_ok hconfirm
    exact ⟨Catalog.retains_confirm hconfirm, by rw [heq]⟩

/-! ### Scans of a job while other things happen -/

/-- The blob that a scan sets out to check with its next step, if it does. -/
def Scan.scrubs (s : Scan) (cancelled : Bool) : List Ref :=
  match s.phase with
  | .visiting (b :: _) => if !cancelled && b.isOn s.job.volumeId then [b.ref] else []
  | _ => []

/-- A vault, the scan that works on a job, if there is one, and the blobs that were checked for the
job, in order. -/
structure Round where
  vault : Vault
  scan? : Option Scan
  scrubbed : List Ref

namespace Round

/-- What can happen while a job is worked on. -/
inductive Step (id : Uuid) : Round → Round → Prop
  /-- A scan takes the job up where it was saved. -/
  | resume {v : Vault} {j : ScrubJob} {log : List Ref} (settings : ScrubSettings) (now : Nat)
      (hbatch : 1 ≤ settings.batchSize) (hj : v.catalog.findJob id = .ok j)
      (hopen : j.isCompleted = false) :
      Step id ⟨v, none, log⟩ ⟨v, some (.start settings j now), log⟩
  /-- The scan goes on, and may see that it is to stop. -/
  | act {v v' : Vault} {s s' : Scan} {log : List Ref} (now : Nat) (cancelled : Bool)
      (hstep : s.step? now cancelled v = some (s', v')) :
      Step id ⟨v, some s, log⟩ ⟨v', some s', log ++ s.scrubs cancelled⟩
  /-- The scan has ended, and is gone. -/
  | leave {v : Vault} {s : Scan} {log : List Ref} {outcome : Scan.Outcome}
      (hended : s.phase = .ended outcome) : Step id ⟨v, some s, log⟩ ⟨v, none, log⟩
  /-- A write takes a step. -/
  | write {v : Vault} {s? : Option Scan} {log : List Ref} (w : Write) :
      Step id ⟨v, s?, log⟩ ⟨(w.step v).2, s?, log⟩
  /-- A copy is completed, or fails. -/
  | copy {v : Vault} {s? : Option Scan} {log : List Ref} (c : Copy)
      (answer : Except Fault Stream) : Step id ⟨v, s?, log⟩ ⟨(c.finish answer v).2, s?, log⟩
  | commit {v : Vault} {s? : Option Scan} {log : List Ref} {refs : List Ref}
      {desired : List VolumeId} {catalog : Catalog}
      (hcommit : v.catalog.commit refs desired = .ok catalog) :
      Step id ⟨v, s?, log⟩ ⟨{ v with catalog := catalog }, s?, log⟩
  /-- Something happens that is about neither the records nor the job. -/
  | other {v v' : Vault} {s? : Option Scan} {log : List Ref}
      (hrecords : v'.catalog.records = v.catalog.records)
      (hjob : v'.catalog.findJob id = v.catalog.findJob id) : Step id ⟨v, s?, log⟩ ⟨v', s?, log⟩

/-! ### What is behind a position, and what is ahead -/

/-- The blobs that a job has to check are those recorded on its volume, from its cursor on. -/
def Due (v₀ : Vault) (j₀ : ScrubJob) (r : Ref) : Prop :=
  isAfter j₀.cursor r = true ∧ ∃ b, v₀.catalog.records.get? r = some b ∧
    b.isOn j₀.volumeId = true

/-- What is due up to a position has been checked, in order, and nothing after it. -/
structure Swept (v₀ : Vault) (j₀ : ScrubJob) (position : Option Ref) (log : List Ref) : Prop where
  ascending : log.Pairwise fun r r' => compare r r' = .lt
  after : ∀ r ∈ log, isAfter j₀.cursor r = true
  behind : ∀ r ∈ log, isAfter position r = false
  forward : ∀ r, isAfter position r = true → isAfter j₀.cursor r = true
  covered : ∀ r, Due v₀ j₀ r → r ∈ log ∨ isAfter position r = true

/-- A batch comes after a position, and what is due after the position is in the batch or after all
of it. -/
structure Covers (v₀ : Vault) (j₀ : ScrubJob) (position : Option Ref) (batch : List BlobRecord) :
    Prop where
  ascending : Ascending position batch
  complete : ∀ r, Due v₀ j₀ r → isAfter position r = true →
    (∃ b ∈ batch, b.ref = r ∧ b.isOn j₀.volumeId = true) ∨ ∀ b ∈ batch, compare b.ref r = .lt

variable {v₀ : Vault} {j₀ : ScrubJob}

/-- The first record of a batch is dealt with. -/
theorem Swept.visit {position : Option Ref} {log : List Ref} {b : BlobRecord}
    {rest : List BlobRecord} (h : Swept v₀ j₀ position log)
    (hcovers : Covers v₀ j₀ position (b :: rest)) :
    Swept v₀ j₀ (some b.ref) (log ++ if b.isOn j₀.volumeId then [b.ref] else []) ∧
      Covers v₀ j₀ (some b.ref) rest := by
  obtain ⟨hb, hrest⟩ := hcovers.ascending
  have hlt : ∀ r ∈ log, compare r b.ref = .lt := fun r hr =>
    OrderedMap.lt_of_isAfter (h.behind r hr) hb
  have hnew : ∀ r ∈ (if b.isOn j₀.volumeId then [b.ref] else []), r = b.ref := by
    intro r hr
    split at hr
    · exact List.mem_singleton.1 hr
    · cases hr
  -- what is due after the position is this blob, or comes after it
  have hdue : ∀ r, Due v₀ j₀ r → isAfter position r = true →
      r = b.ref ∧ b.isOn j₀.volumeId = true ∨ isAfter (some b.ref) r = true := by
    intro r hr hafter
    rcases hcovers.complete r hr hafter with ⟨b', hb', rfl, hon⟩ | hbeyond
    · rcases List.mem_cons.1 hb' with rfl | hb'
      · exact .inl ⟨rfl, hon⟩
      · exact .inr (hrest.after hb')
    · refine .inr ?_
      simp [isAfter, hbeyond b List.mem_cons_self]
  refine ⟨⟨?_, ?_, ?_, ?_, ?_⟩, hrest, ?_⟩
  · refine List.pairwise_append.2 ⟨h.ascending, ?_, fun r hr r' hr' => ?_⟩
    · split <;> simp
    · rw [hnew r' hr']
      exact hlt r hr
  · intro r hr
    rcases List.mem_append.1 hr with hold | hr
    · exact h.after r hold
    · rw [hnew r hr]
      exact h.forward b.ref hb
  · intro r hr
    rcases List.mem_append.1 hr with hold | hr
    · simp [isAfter, Std.OrientedCmp.gt_of_lt (hlt r hold)]
    · rw [hnew r hr]
      exact OrderedMap.isAfter_self b.ref
  · intro r hr
    exact h.forward r (OrderedMap.isAfter_trans hb hr)
  · intro r hr
    rcases h.covered r hr with hold | hafter
    · exact .inl (List.mem_append_left _ hold)
    · rcases hdue r hr hafter with ⟨rfl, hon⟩ | hlater
      · exact .inl (List.mem_append_right _ (by simp [hon]))
      · exact .inr hlater
  · intro r hr hafter
    rcases hcovers.complete r hr (OrderedMap.isAfter_trans hb hafter) with
      ⟨b', hb', rfl, hon⟩ | hbeyond
    · rcases List.mem_cons.1 hb' with rfl | hb'
      · rw [OrderedMap.isAfter_self] at hafter
        cases hafter
      · exact .inl ⟨b', hb', rfl, hon⟩
    · exact .inr fun b' hb' => hbeyond b' (List.mem_cons_of_mem _ hb')

/-! ### What every step keeps -/

/-- A job that is about to end, or has ended: if it is completed, nothing that is due is left. -/
structure Closed (v₀ : Vault) (j₀ : ScrubJob) (log : List Ref) (outcome : Scan.Outcome)
    (j : ScrubJob) : Prop where
  swept : Swept v₀ j₀ j.cursor log
  exhausted : outcome = .completed → ∀ r, Due v₀ j₀ r → isAfter j.cursor r = false

/-- What a scan has in hand. -/
def Working (v₀ : Vault) (j₀ : ScrubJob) (log : List Ref) (v : Vault) (s : Scan) : Prop :=
  match s.phase with
  | .querying => Swept v₀ j₀ s.job.cursor log
  | .visiting records => Swept v₀ j₀ s.job.cursor log ∧ Covers v₀ j₀ s.job.cursor records
  | .checking b _ _ rest => Swept v₀ j₀ (some b.ref) log ∧ Covers v₀ j₀ (some b.ref) rest
  | .saving outcome => Closed v₀ j₀ log outcome s.job
  | .ended outcome =>
    Closed v₀ j₀ log outcome s.job ∧ v.catalog.findJob j₀.id = .ok s.job

/-- A scan that works on the job as it should. -/
structure Fit (v₀ : Vault) (j₀ : ScrubJob) (log : List Ref) (v : Vault) (s : Scan) : Prop where
  own : s.job.id = j₀.id ∧ s.job.volumeId = j₀.volumeId
  batch : 1 ≤ s.settings.batchSize
  working : Working v₀ j₀ log v s

/-- What is true of a job however it was worked on. -/
structure Sound (v₀ : Vault) (j₀ : ScrubJob) (x : Round) : Prop where
  retains : v₀.catalog.Retains j₀.volumeId x.vault.catalog
  fit : ∀ s, x.scan? = some s → Fit v₀ j₀ x.scrubbed x.vault s
  saved : x.scan? = none → ∃ j, x.vault.catalog.findJob j₀.id = .ok j ∧
    (j.id = j₀.id ∧ j.volumeId = j₀.volumeId) ∧ Swept v₀ j₀ j.cursor x.scrubbed

variable {v v' : Vault} {s s' : Scan} {log : List Ref}

/-- A batch misses nothing that is due. -/
theorem covers_recordsAfter (hfiled : v₀.catalog.Filed)
    (hretains : v₀.catalog.Retains j₀.volumeId v.catalog) (cursor : Option Ref) (limit : Nat) :
    Covers v₀ j₀ cursor (v.catalog.recordsAfter cursor limit) where
  ascending := Catalog.ascending_recordsAfter (hretains.filed hfiled) cursor limit
  complete r hr hafter := by
    obtain ⟨-, b, hb, hon⟩ := hr
    obtain ⟨b', hb', hon'⟩ := hretains.listed hfiled r b hb hon
    rcases Catalog.recordsAfter_misses_none (hretains.filed hfiled) limit hb' hafter with
      hmem | hbeyond
    · exact .inl ⟨b', hmem, hretains.filed hfiled r b' hb', hon'⟩
    · exact .inr hbeyond

/-- When a query brings nothing, nothing that is due is left. -/
theorem exhausted_of_recordsAfter (hfiled : v₀.catalog.Filed)
    (hretains : v₀.catalog.Retains j₀.volumeId v.catalog) {cursor : Option Ref} {limit : Nat}
    (hlimit : 1 ≤ limit) (hnil : v.catalog.recordsAfter cursor limit = []) {r : Ref}
    (hr : Due v₀ j₀ r) : isAfter cursor r = false := by
  obtain ⟨-, b, hb, hon⟩ := hr
  obtain ⟨b', hb', -⟩ := hretains.listed hfiled r b hb hon
  exact Catalog.none_after_of_recordsAfter hlimit hnil hb'

theorem working_noted {b : BlobRecord} {result? : Option (Except Fault Nat)}
    {rest : List BlobRecord} {now : Nat} (hswept : Swept v₀ j₀ (some b.ref) log)
    (hcovers : Covers v₀ j₀ (some b.ref) rest)
    (hnoted : Scan.Noted s now v b.ref result? rest s' v') : Working v₀ j₀ log v' s' := by
  have hcursor := hnoted.job.2.2
  cases hnoted with
  | full => exact ⟨hcursor ▸ hswept, by rintro ⟨⟩⟩
  | checkpoint => exact ⟨hcursor ▸ hswept, hcursor ▸ hcovers⟩
  | next => exact ⟨hcursor ▸ hswept, hcursor ▸ hcovers⟩

theorem scrubs_of_visiting {b : BlobRecord} {rest : List BlobRecord}
    (hphase : s.phase = .visiting (b :: rest)) (hvolume : s.job.volumeId = j₀.volumeId) :
    s.scrubs false = if b.isOn j₀.volumeId then [b.ref] else [] := by
  simp [Scan.scrubs, hphase, hvolume]

/-- An action of a scan leaves it with what it should have in hand. -/
theorem working_of_stepped (hfiled : v₀.catalog.Filed)
    (hretains : v₀.catalog.Retains j₀.volumeId v.catalog) (hfit : Fit v₀ j₀ log v s) {now : Nat}
    {cancelled : Bool} (hstep : Scan.Stepped now v s cancelled s' v') :
    Working v₀ j₀ (log ++ s.scrubs cancelled) v' s' := by
  obtain ⟨⟨hid, hvolume⟩, hbatch, hworking⟩ := hfit
  unfold Working at hworking
  cases hstep with
  | stop hphase =>
    have hscrubs : s.scrubs true = [] := by
      rcases hphase with hphase | ⟨b, rest, hphase⟩ <;> simp [Scan.scrubs, hphase]
    rw [hscrubs, List.append_nil]
    refine ⟨?_, by rintro ⟨⟩⟩
    rcases hphase with hphase | ⟨b, rest, hphase⟩
    · rw [hphase] at hworking
      exact hworking
    · rw [hphase] at hworking
      exact hworking.1
  | query hphase =>
    rw [hphase] at hworking
    have hscrubs : s.scrubs false = [] := by simp [Scan.scrubs, hphase]
    rw [hscrubs, List.append_nil]
    unfold Working
    dsimp only
    rcases Scan.query_cases s v.catalog with ⟨hnil, hquery⟩ | hquery
    · rw [hquery]
      exact ⟨hworking, fun _ r hr => exhausted_of_recordsAfter hfiled hretains hbatch hnil hr⟩
    · rw [hquery]
      exact ⟨hworking, covers_recordsAfter hfiled hretains _ _⟩
  | refill hphase =>
    rw [hphase] at hworking
    have hscrubs : s.scrubs cancelled = [] := by simp [Scan.scrubs, hphase]
    rw [hscrubs, List.append_nil]
    exact hworking.1
  | begin hphase hon =>
    rw [hphase] at hworking
    rw [scrubs_of_visiting hphase hvolume]
    exact hworking.1.visit hworking.2
  | visit hphase hnoted =>
    rw [hphase] at hworking
    rw [scrubs_of_visiting hphase hvolume]
    obtain ⟨hswept, hcovers⟩ := hworking.1.visit hworking.2
    exact working_noted hswept hcovers hnoted
  | approach hphase =>
    rw [hphase] at hworking
    have hscrubs : s.scrubs cancelled = [] := by simp [Scan.scrubs, hphase]
    rw [hscrubs, List.append_nil]
    exact hworking
  | check hphase hnoted =>
    rw [hphase] at hworking
    have hscrubs : s.scrubs cancelled = [] := by simp [Scan.scrubs, hphase]
    rw [hscrubs, List.append_nil]
    exact working_noted hworking.1 hworking.2 hnoted
  | @save _ outcome hphase =>
    rw [hphase] at hworking
    have hscrubs : s.scrubs cancelled = [] := by simp [Scan.scrubs, hphase]
    obtain ⟨hsame, -, hcursor⟩ := Scan.ending_same s.job outcome now
    rw [hscrubs, List.append_nil]
    refine ⟨⟨?_, fun hcompleted r hr => ?_⟩, ?_⟩
    · rw [hcursor]
      exact hworking.swept
    · rw [hcursor]
      exact hworking.exhausted hcompleted r hr
    · rw [← hid, ← hsame]
      exact Catalog.findJob_saveJob_self _ _

/-- What happens elsewhere does not matter, if no volume loses a blob. -/
theorem Sound.elsewhere {s? : Option Scan} (h : Sound v₀ j₀ ⟨v, s?, log⟩)
    (hretains : v.catalog.Retains j₀.volumeId v'.catalog)
    (hjob : v'.catalog.findJob j₀.id = v.catalog.findJob j₀.id) : Sound v₀ j₀ ⟨v', s?, log⟩ where
  retains := h.retains.trans hretains
  fit s hs := by
    obtain ⟨hown, hbatch, hworking⟩ := h.fit s hs
    refine ⟨hown, hbatch, ?_⟩
    unfold Working at hworking ⊢
    -- only what an ended scan has in hand speaks of the saved job
    cases hp : s.phase with
    | ended outcome =>
      rw [hp] at hworking
      exact ⟨hworking.1, hjob.trans hworking.2⟩
    | _ =>
      rw [hp] at hworking
      exact hworking
  saved hnone := by
    obtain ⟨j, hj, hrest⟩ := h.saved hnone
    exact ⟨j, hjob.trans hj, hrest⟩

theorem Sound.step (hfiled : v₀.catalog.Filed) {x y : Round} (h : Sound v₀ j₀ x)
    (hstep : Step j₀.id x y) : Sound v₀ j₀ y := by
  cases hstep with
  | @resume v j log settings now hbatch hj hopen =>
    obtain ⟨j', hj', hown, hswept⟩ := h.saved rfl
    obtain rfl := Except.ok.inj (hj.symm.trans hj')
    refine ⟨h.retains, fun s hs => ?_, fun hnone => by cases hnone⟩
    obtain rfl := Option.some.inj hs
    exact ⟨hown, hbatch, hswept⟩
  | @act v v' s s' log now cancelled hstep =>
    have hstepped := Scan.stepped_of_step? hstep
    have hfit := h.fit s rfl
    have hworking := working_of_stepped hfiled h.retains hfit hstepped
    refine ⟨h.retains.trans (.ofRecords hstepped.records), fun s'' hs => ?_,
      fun hnone => by cases hnone⟩
    obtain rfl := Option.some.inj hs
    obtain ⟨hid, hvolume⟩ := hstepped.same
    refine ⟨⟨hid.trans hfit.own.1, hvolume.trans hfit.own.2⟩, ?_, hworking⟩
    rw [hstepped.settings]
    exact hfit.batch
  | @leave v s log outcome hended =>
    obtain ⟨hown, -, hworking⟩ := h.fit s rfl
    unfold Working at hworking
    rw [hended] at hworking
    refine ⟨h.retains, fun s' hs => ?_, fun _ => ⟨s.job, hworking.2, hown, hworking.1.swept⟩⟩
    cases hs
  | @write v s? log w =>
    obtain ⟨hretains, hjobs⟩ := w.step_retains v j₀.volumeId
    exact h.elsewhere hretains (Catalog.findJob_of_jobs hjobs j₀.id)
  | @copy v s? log c answer =>
    obtain ⟨hretains, hjobs⟩ := c.finish_retains answer v j₀.volumeId
    exact h.elsewhere hretains (Catalog.findJob_of_jobs hjobs j₀.id)
  | commit hcommit =>
    refine h.elsewhere (Catalog.retains_commit hcommit) (Catalog.findJob_of_jobs ?_ j₀.id)
    rw [Catalog.commit_eq_ok hcommit]
  | other hrecords hjob => exact h.elsewhere (.ofRecords hrecords) hjob

/-- Wherever a job is, everything due up to some position has been checked. -/
theorem Sound.swept {x : Round} (h : Sound v₀ j₀ x) :
    ∃ position, Swept v₀ j₀ position x.scrubbed := by
  cases hs : x.scan? with
  | none =>
    obtain ⟨j, -, -, hswept⟩ := h.saved hs
    exact ⟨j.cursor, hswept⟩
  | some s =>
    have hworking := (h.fit s hs).working
    unfold Working at hworking
    cases hp : s.phase with
    | querying =>
      rw [hp] at hworking
      exact ⟨_, hworking⟩
    | visiting records =>
      rw [hp] at hworking
      exact ⟨_, hworking.1⟩
    | checking b check approach rest =>
      rw [hp] at hworking
      exact ⟨_, hworking.1⟩
    | saving outcome =>
      rw [hp] at hworking
      exact ⟨_, hworking.swept⟩
    | ended outcome =>
      rw [hp] at hworking
      exact ⟨_, hworking.1.swept⟩

/-- What can be done with a job and with new blobs. -/
inductive Event where
  | resume
  | act (cancelled : Bool)
  | leave
  /-- The last step of a write. -/
  | record (b : BlobRecord)

/-- What an event leads to, if it is possible. -/
def play? (settings : ScrubSettings) (id : Uuid) (x : Round) : Event → Option Round
  | .resume =>
    match x.scan?, x.vault.catalog.findJob id with
    | none, .ok j =>
      if j.isCompleted then none else some { x with scan? := some (.start settings j 0) }
    | _, _ => none
  | .act cancelled =>
    x.scan?.bind fun s => (s.step? 0 cancelled x.vault).map fun (s', v) =>
      ⟨v, some s', x.scrubbed ++ s.scrubs cancelled⟩
  | .leave =>
    x.scan?.bind fun s =>
      match s.phase with
      | .ended _ => some { x with scan? := none }
      | _ => none
  | .record b =>
    some { x with vault := (Write.step ⟨1, 10, "photos", b.ref, [], false, .recording b⟩ x.vault).2 }

theorem step_of_play? {settings : ScrubSettings} (hbatch : 1 ≤ settings.batchSize) {id : Uuid}
    {x y : Round} {event : Event} (h : x.play? settings id event = some y) : Step id x y := by
  obtain ⟨v, s?, log⟩ := x
  cases event with
  | resume =>
    unfold play? at h
    dsimp only at h
    split at h
    · rename_i j hj
      split at h
      · cases h
      · rename_i hopen
        obtain rfl := Option.some.inj h
        exact .resume settings 0 hbatch hj (by simpa using hopen)
    · cases h
  | act cancelled =>
    obtain ⟨s, rfl, hmap⟩ := Option.bind_eq_some_iff.1 h
    obtain ⟨⟨s', v'⟩, hstep, rfl⟩ := Option.map_eq_some_iff.1 hmap
    exact .act 0 cancelled hstep
  | leave =>
    obtain ⟨s, rfl, hleave⟩ := Option.bind_eq_some_iff.1 h
    split at hleave
    · rename_i outcome hended
      obtain rfl := Option.some.inj hleave
      exact .leave hended
    · cases hleave
  | record b =>
    obtain rfl := Option.some.inj h
    exact .write _

namespace Sample

open Scrubbing.Sample (present absent record job oneByOne)

/-- References before and between the two that are recorded at first. -/
def before : Ref := ⟨0 :: List.replicate 31 9, rfl⟩

def between : Ref := ⟨1 :: List.replicate 31 9, rfl⟩

def vault : Vault :=
  { Scrubbing.Sample.vault with
    catalog := Scrubbing.Sample.vault.catalog.addVolume ⟨1, ⟨1⟩, "first", 0, 0, 0⟩ }

/-- While the first blob is checked, a blob before it and one behind it are written; then the job is
stopped, and resumed. -/
def events : List Event :=
  [.resume, .act false, .act false, .record (record before), .record (record between),
    .act false, .act false, .act true, .act true, .leave,
    .resume, .act false, .act false, .act false, .act false, .act false, .act false, .act false,
    .act false, .act false, .act false]

theorem completes : ((events.foldlM (play? oneByOne ⟨7⟩) ⟨vault, none, []⟩).map fun x =>
    (x.scrubbed, x.scan?.bind fun s => s.phase.outcome?)) =
      some ([present, between, absent], some .completed) := by
  decide +kernel

theorem filed : vault.catalog.Filed := Scrubbing.Sample.filed

end Sample

end Round

end BlobVault
