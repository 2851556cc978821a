import BlobVault.Proofs.Scrub.Ascent
import BlobVault.Proofs.Scrub.Resumption
import Mathlib.Data.List.DropRight

/-!
# Reports stay short

A report that has grown too long is cut back to the lines that leave room for the marker, and then
the scan ends.  So no record that is ever saved has a report that is longer than allowed, unless the
marker alone is.

* `Report.fitting_greatest`, `Report.wholeLines_greatest` : the two cuts;
* `Report.LongestLines` : a text is the longest start of a report that consists of whole lines and
  takes at most so many bytes;
* `Report.truncate_eq` : **what is left of a report are its longest lines, and the marker**;
* `Report.sliced_kept` : neither cut goes through a character;
* `Scan.Goes` : a scan goes on, or something else happens to the vault;
* `Scan.Bounded` : the report is as short as it should be, which no step changes;
* `Scan.reports_bounded` : **every record that a scan saves has a report that is short enough.**
-/

namespace BlobVault

namespace Utf8

theorem size_cons (c : Char) (cs : List Char) : size (c :: cs) = c.utf8Size + size cs := rfl

theorem utf8ByteSize_ofList (cs : List Char) : (String.ofList cs).utf8ByteSize = size cs := by
  induction cs with
  | nil => rfl
  | cons c cs ih =>
    rw [← List.singleton_append, String.ofList_append, String.utf8ByteSize_append, ih]
    simp [size_cons]

theorem size_append (cs cs' : List Char) : size (cs ++ cs') = size cs + size cs' := by
  simp only [← utf8ByteSize_ofList, String.ofList_append, String.utf8ByteSize_append]

theorem size_toList (s : String) : size s.toList = s.utf8ByteSize := by
  rw [← utf8ByteSize_ofList, String.ofList_toList]

theorem size_le_of_start {cs cs' : List Char} (h : cs <+: cs') : size cs ≤ size cs' := by
  obtain ⟨rest, rfl⟩ := h
  rw [size_append]
  exact Nat.le_add_right _ _

end Utf8

namespace Report

open Utf8

/-! ### The first cut -/

theorem fitting_starts (room : Nat) (cs : List Char) : fitting room cs <+: cs := by
  fun_induction fitting room cs with
  | case1 => exact List.nil_prefix
  | case2 room c cs hfits ih => exact (List.prefix_cons_inj c).2 ih
  | case3 => exact List.nil_prefix

theorem size_fitting (room : Nat) (cs : List Char) : size (fitting room cs) ≤ room := by
  fun_induction fitting room cs with
  | case1 => exact Nat.zero_le _
  | case2 room c cs hfits ih =>
    rw [size_cons]
    omega
  | case3 => exact Nat.zero_le _

/-- Every start of a text that takes at most `room` bytes is a start of the longest one. -/
theorem fitting_greatest {room : Nat} {cs start : List Char} (hstart : start <+: cs)
    (hsize : size start ≤ room) : start <+: fitting room cs := by
  fun_induction fitting room cs generalizing start with
  | case1 => exact hstart
  | case2 room c cs hfits ih =>
    cases start with
    | nil => exact List.nil_prefix
    | cons c' start =>
      obtain ⟨rfl, hrest⟩ := List.cons_prefix_cons.1 hstart
      rw [size_cons] at hsize
      exact (List.prefix_cons_inj c').2 (ih hrest (by omega))
  | case3 room c cs hfits =>
    cases start with
    | nil => exact List.nil_prefix
    | cons c' start =>
      -- not even the first character fits
      obtain ⟨rfl, -⟩ := List.cons_prefix_cons.1 hstart
      rw [size_cons] at hsize
      omega

/-! ### The second cut -/

/-- The text is empty or ends at a line end. -/
def IsWhole (cs : List Char) : Prop := cs = [] ∨ cs.getLast? = some '\n'

theorem wholeLines_eq (cs : List Char) : wholeLines cs = cs.rdropWhile (· != '\n') := rfl

theorem wholeLines_starts (cs : List Char) : wholeLines cs <+: cs := by
  rw [wholeLines_eq]
  exact List.rdropWhile_prefix _ _

theorem isWhole_wholeLines (cs : List Char) : IsWhole (wholeLines cs) := by
  induction cs using List.reverseRecOn with
  | nil => exact .inl rfl
  | append_singleton cs c ih =>
    rw [wholeLines_eq, List.rdropWhile_concat]
    by_cases hc : c = '\n'
    · subst hc
      exact .inr (by simp)
    · rw [if_pos (by simpa using hc)]
      exact ih

/-- Every start of a text that consists of whole lines is a start of the longest one. -/
theorem wholeLines_greatest {cs start : List Char} (hstart : start <+: cs)
    (hwhole : IsWhole start) : start <+: wholeLines cs := by
  induction cs using List.reverseRecOn with
  | nil => exact hstart
  | append_singleton cs c ih =>
    rw [wholeLines_eq, List.rdropWhile_concat]
    by_cases hc : c = '\n'
    · rw [if_neg (by simpa using hc)]
      exact hstart
    · rw [if_pos (by simpa using hc)]
      rcases List.prefix_concat_iff.1 hstart with rfl | hshorter
      · -- the whole text does not end at a line end
        rcases hwhole with hnil | hlast
        · exact absurd hnil (by simp)
        · exact absurd (by simpa using hlast) hc
      · exact ih hshorter

/-! ### What is left of a report -/

/-- The text is the longest start of the report that consists of whole lines and takes at most
`room` bytes. -/
structure LongestLines (report : String) (room : Nat) (kept : String) : Prop where
  starts : kept.toList <+: report.toList
  whole : IsWhole kept.toList
  fits : kept.utf8ByteSize ≤ room
  longest : ∀ other : String, other.toList <+: report.toList → IsWhole other.toList →
    other.utf8ByteSize ≤ room → other.toList <+: kept.toList

/-- The lines that leave room for the marker. -/
def kept (report : String) (cap : Nat) : String :=
  String.ofList (wholeLines (fitting (cap - marker.utf8ByteSize) report.toList))

/-- **What is left of a report are its longest lines, and the marker.** -/
theorem truncate_eq (report : String) (cap : Nat) :
    truncate report cap = kept report cap ++ marker ∧
      LongestLines report (cap - marker.utf8ByteSize) (kept report cap) := by
  refine ⟨rfl, ?_⟩
  have hlist : (kept report cap).toList =
      wholeLines (fitting (cap - marker.utf8ByteSize) report.toList) := String.toList_ofList
  refine ⟨?_, ?_, ?_, fun other hstarts hwhole hfits => ?_⟩
  · rw [hlist]
    exact (wholeLines_starts _).trans (fitting_starts _ _)
  · rw [hlist]
    exact isWhole_wholeLines _
  · rw [← size_toList, hlist]
    exact Nat.le_trans (size_le_of_start (wholeLines_starts _)) (size_fitting _ _)
  · rw [hlist]
    rw [← size_toList] at hfits
    exact wholeLines_greatest (fitting_greatest hstarts hfits) hwhole

/-- The sixth byte is the second one of a character, and the line before it is the last whole one. -/
example : truncate "é\nbcé\n" (marker.utf8ByteSize + 6) = "é\n" ++ marker := by decide

theorem size_truncate (report : String) (cap : Nat) :
    (truncate report cap).utf8ByteSize ≤ max cap marker.utf8ByteSize := by
  obtain ⟨heq, hlines⟩ := truncate_eq report cap
  have hfits := hlines.fits
  rw [heq, String.utf8ByteSize_append]
  omega

/-! ### Where the cuts are -/

/-- A start of a text ends between two characters of it. -/
theorem isValid_of_start {s : String} {cs : List Char} (h : cs <+: s.toList) :
    String.Pos.Raw.IsValid s ⟨size cs⟩ := by
  rw [String.Pos.Raw.isValid_iff_exists_take_toList]
  refine ⟨cs.length, ?_⟩
  rw [← List.prefix_iff_eq_take.1 h, utf8ByteSize_ofList]

/-- The last place between two characters of a report that leaves room for the marker. -/
structure LastPlace (report : String) (room : Nat) (place : String.Pos.Raw) : Prop where
  valid : place.IsValid report
  fits : place.byteIdx ≤ room
  last : ∀ other : String.Pos.Raw, other.IsValid report → other.byteIdx ≤ room →
    other.byteIdx ≤ place.byteIdx

theorem lastPlace_fitting (report : String) (room : Nat) :
    LastPlace report room ⟨size (fitting room report.toList)⟩ where
  valid := isValid_of_start (fitting_starts room report.toList)
  fits := size_fitting room report.toList
  last other hother hfits := by
    obtain ⟨i, hi⟩ := String.Pos.Raw.isValid_iff_exists_take_toList.1 hother
    rw [utf8ByteSize_ofList] at hi
    obtain rfl : other = ⟨size (report.toList.take i)⟩ := String.Pos.Raw.ext hi
    exact size_le_of_start (fitting_greatest (List.take_prefix i report.toList) hfits)

/-- The text ends between two characters of the report, and so does what it is cut from. -/
structure Sliced (report : String) (room : Nat) (kept : String) : Prop where
  outer : ∃ place, LastPlace report room place ∧ kept.utf8ByteSize ≤ place.byteIdx
  inner : String.Pos.Raw.IsValid report ⟨kept.utf8ByteSize⟩

/-- **Neither cut goes through a character.** -/
theorem sliced_kept (report : String) (cap : Nat) :
    Sliced report (cap - marker.utf8ByteSize) (kept report cap) := by
  obtain ⟨-, hlines⟩ := truncate_eq report cap
  have hsize : (kept report cap).utf8ByteSize =
      size (wholeLines (fitting (cap - marker.utf8ByteSize) report.toList)) := utf8ByteSize_ofList _
  refine ⟨⟨_, lastPlace_fitting report _, ?_⟩, ?_⟩
  · rw [hsize]
    exact size_le_of_start (wholeLines_starts _)
  · rw [← size_toList]
    exact isValid_of_start hlines.starts

end Report

/-! ### What is saved of a report -/

namespace Scan

/-- What can happen while a scan is under way: it takes a step, or the vault changes in any other
way. -/
inductive Goes : Vault × Scan → Vault × Scan → Prop
  | act {v v' : Vault} {s s' : Scan} (now : Nat) (cancelled : Bool)
      (hstep : s.step? now cancelled v = some (s', v')) : Goes (v, s) (v', s')
  | other {v : Vault} {s : Scan} (v' : Vault) : Goes (v, s) (v', s)

/-- The bytes that the report may take: the marker is there even if it does not fit. -/
def limit (s : Scan) : Nat :=
  match s.phase with
  | .saving .aborted | .ended .aborted =>
    max s.settings.maxReportBytes Report.marker.utf8ByteSize
  | _ => s.settings.maxReportBytes

/-- The report is as short as it should be. -/
def Bounded (s : Scan) : Prop := s.job.report.utf8ByteSize ≤ s.limit

variable {s s' : Scan} {v v' : Vault} {now : Nat} {cancelled : Bool}

theorem limit_le (s : Scan) :
    s.limit ≤ max s.settings.maxReportBytes Report.marker.utf8ByteSize := by
  unfold limit
  split
  · exact Nat.le_refl _
  · exact Nat.le_refl _
  · exact Nat.le_max_left _ _

/-- Whatever is said of a record, a report that is still too long is cut. -/
theorem Noted.bounded {r : Ref} {result? : Option (Except Fault Nat)} {rest : List BlobRecord}
    (h : Noted s now v r result? rest s' v') : s'.Bounded := by
  have hfits : s.overflows r result? = false →
      (s.job.visited r result?).report.utf8ByteSize ≤ s.settings.maxReportBytes := by
    intro hroom
    exact Nat.le_of_not_lt (of_decide_eq_false hroom)
  cases h with
  | full hover => exact Report.size_truncate _ _
  | checkpoint hroom hdue => exact hfits hroom
  | next hroom hearly => exact hfits hroom

theorem report_ending (j : ScrubJob) (outcome : Outcome) (now : Nat) :
    (j.ending outcome now).report = j.report := by
  unfold ScrubJob.ending
  split <;> rfl

namespace Stepped

/-- No step changes that the report is as short as it should be. -/
theorem bounded (h : Stepped now v s cancelled s' v') (hs : s.Bounded) : s'.Bounded := by
  unfold Bounded limit at hs
  cases h with
  | stop hphase =>
    rcases hphase with hphase | ⟨b, rest, hphase⟩ <;>
    · rw [hphase] at hs
      exact hs
  | query hphase =>
    rw [hphase] at hs
    unfold Bounded limit
    dsimp only
    rcases query_cases s v.catalog with ⟨-, hquery⟩ | hquery <;>
    · rw [hquery]
      exact hs
  | refill hphase | begin hphase hon | approach hphase =>
    rw [hphase] at hs
    exact hs
  | visit hphase hnoted => exact hnoted.bounded
  | check hphase hnoted => exact hnoted.bounded
  | @save cancelled outcome hphase =>
    rw [hphase] at hs
    unfold Bounded
    rw [report_ending]
    cases outcome <;> exact hs

end Stepped

/-- Whatever happens, a scan that began with a short report keeps its settings and has a report that
is as short as it should be. -/
theorem bounded_of_history {x y : Vault × Scan} (h : Relation.ReflTransGen Goes x y)
    (hx : x.2.Bounded) : y.2.settings = x.2.settings ∧ y.2.Bounded := by
  induction h with
  | refl => exact ⟨rfl, hx⟩
  | tail _ hgoes ih =>
    cases hgoes with
    | act now cancelled hstep =>
      have hstepped := stepped_of_step? hstep
      exact ⟨hstepped.settings.trans ih.1, hstepped.bounded ih.2⟩
    | other v' => exact ih

/-- What a step saves, if it saves the job, has a report of at most `cap` bytes, and one that was cut
is not longer than the marker if that is longer. -/
structure SavesShort (cap : Nat) (v v' : Vault) (s' : Scan) : Prop where
  saved : v'.catalog = v.catalog.saveJob s'.job
  short : s'.job.report.utf8ByteSize ≤ max cap Report.marker.utf8ByteSize
  uncut : s'.phase.outcome? ≠ some .aborted → s'.job.report.utf8ByteSize ≤ cap

/-- **Every record that a scan saves has a report that is short enough,** and what is left of a
report that is too long are its longest lines, and the marker. -/
theorem reports_bounded :
    (∀ (settings : ScrubSettings) (j₀ : ScrubJob) (now₀ : Nat) (v₀ : Vault),
      j₀.report.utf8ByteSize ≤ settings.maxReportBytes → ∀ v s,
      Relation.ReflTransGen Goes (v₀, .start settings j₀ now₀) (v, s) → ∀ now cancelled s' v',
      s.step? now cancelled v = some (s', v') →
        v'.catalog = v.catalog ∨ SavesShort settings.maxReportBytes v v' s') ∧
    ∀ report cap, Report.truncate report cap = Report.kept report cap ++ Report.marker ∧
      Report.LongestLines report (cap - Report.marker.utf8ByteSize) (Report.kept report cap) ∧
      Report.Sliced report (cap - Report.marker.utf8ByteSize) (Report.kept report cap) := by
  refine ⟨?_, fun report cap => ?_⟩
  · intro settings j₀ now₀ v₀ hj₀ v s hhistory now cancelled s' v' hstep
    have hstepped := stepped_of_step? hstep
    have hhistory' := hhistory.tail (.act now cancelled hstep)
    obtain ⟨hsettings, hbounded⟩ := bounded_of_history hhistory' hj₀
    refine hstepped.saves.imp_right fun ⟨hsaved, hsaving⟩ => ⟨hsaved, ?_, fun houtcome => ?_⟩
    · have hlimit := hbounded.trans s'.limit_le
      rw [hsettings] at hlimit
      exact hlimit
    · unfold Bounded limit at hbounded
      rw [hsettings] at hbounded
      split at hbounded
      · rename_i hphase
        exact absurd hphase (hsaving .aborted)
      · rename_i hphase
        exact absurd (Phase.outcome?_eq_some.2 hphase) houtcome
      · exact hbounded
  · obtain ⟨heq, hlines⟩ := Report.truncate_eq report cap
    exact ⟨heq, hlines, Report.sliced_kept report cap⟩

/-- What a step leads to, if it is possible. -/
def goOn? (x : Vault × Scan) (cancelled : Bool) : Option (Vault × Scan) :=
  (x.2.step? 0 cancelled x.1).map Prod.swap

theorem goes_of_goOn? {x y : Vault × Scan} {cancelled : Bool} (h : goOn? x cancelled = some y) :
    Goes x y := by
  obtain ⟨v, s⟩ := x
  obtain ⟨⟨s', v'⟩, hstep, rfl⟩ := Option.map_eq_some_iff.1 h
  exact .act 0 cancelled hstep

namespace Sample

/-- Not even one entry has room. -/
def tight : ScrubSettings := ⟨1, .ofMillis 1000, 10, 1⟩

/-- The second of two blobs is missing.  The eighth step saves the job. -/
theorem overflowing : ((List.replicate 7 false).foldlM goOn?
    (Scrubbing.Sample.vault, start tight Scrubbing.Sample.job 0)).bind (fun x =>
      (x.2.step? 0 false x.1).map fun (s', v') => (s'.phase.outcome?, s'.job.report,
        (x.1.catalog.findJob ⟨7⟩).toOption.map (·.report),
        (v'.catalog.findJob ⟨7⟩).toOption.map (·.report))) =
      some (some .aborted, Report.marker, some "", some Report.marker) := by
  decide +kernel

end Sample

/-- A report that has no room for an entry is the marker alone when it is saved, and that is longer
than allowed. -/
theorem reports_bounded_sample : ∃ v s s' v',
    Relation.ReflTransGen Goes (Scrubbing.Sample.vault, .start Sample.tight Scrubbing.Sample.job 0)
      (v, s) ∧ s.step? 0 false v = some (s', v') ∧ SavesShort 10 v v' s' ∧
    s'.phase.outcome? = some .aborted ∧ s'.job.report = Report.marker := by
  obtain ⟨⟨v, s⟩, hplay, hlast⟩ := Option.bind_eq_some_iff.1 Sample.overflowing
  obtain ⟨⟨s', v'⟩, hstep, heq⟩ := Option.map_eq_some_iff.1 hlast
  obtain ⟨houtcome, hreport, hbefore, hafter⟩ :
      _ ∧ _ ∧ (v.catalog.findJob ⟨7⟩).toOption.map (·.report) = _ ∧
        (v'.catalog.findJob ⟨7⟩).toOption.map (·.report) = _ := by
    simpa only [Prod.mk.injEq] using heq
  have hhistory : Relation.ReflTransGen Goes
      (Scrubbing.Sample.vault, .start Sample.tight Scrubbing.Sample.job 0) (v, s) := by
    refine reflTransGen_of_foldlM ?_ hplay
    exact fun x cancelled y hgo => goes_of_goOn? hgo
  have hshort : Scrubbing.Sample.job.report.utf8ByteSize ≤ Sample.tight.maxReportBytes := by decide
  rcases reports_bounded.1 _ _ _ _ hshort v s hhistory 0 false s' v' hstep with hsame | hsaves
  · -- the marker was not saved before
    rw [hsame, hbefore] at hafter
    exact absurd hafter (by decide)
  · exact ⟨v, s, s', v', hhistory, hstep, hsaves, houtcome, hreport⟩

end Scan

end BlobVault
