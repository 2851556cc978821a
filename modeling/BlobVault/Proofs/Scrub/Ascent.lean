import BlobVault.Proofs.Scrub.Steps

/-!
# Scans go upwards

A batch holds the first records after a cursor, in ascending order, and misses none of them; so a
scan deals with one record after another, each of them after its cursor.

* `Ascending` : records that come one after another after a cursor;
* `Catalog.ascending_recordsAfter`, `Catalog.recordsAfter_misses_none`,
  `Catalog.none_after_of_recordsAfter` : what a batch holds, and what it leaves for the next one;
* `Scan.Ascends` : what a scan has in hand comes after its cursor, in order;
* `Scan.Stepped.ascends` : no step changes that.
-/

namespace BlobVault

namespace OrderedMap

variable {κ : Type} [Ord κ]

theorem isAfter_self [Std.LawfulEqOrd κ] (k : κ) : isAfter (some k) k = false := by
  simp [isAfter]

variable [Std.TransOrd κ]

theorem isAfter_trans {cursor? : Option κ} {k k' : κ} (h : isAfter cursor? k = true)
    (h' : isAfter (some k) k' = true) : isAfter cursor? k' = true := by
  cases cursor? with
  | none => rfl
  | some c =>
    simp only [isAfter, beq_iff_eq] at h h' ⊢
    exact Std.TransCmp.lt_trans h h'

/-- What is not after a cursor comes before what is. -/
theorem lt_of_isAfter {cursor? : Option κ} {k k' : κ} (h : isAfter cursor? k = false)
    (h' : isAfter cursor? k' = true) : compare k k' = .lt := by
  cases cursor? with
  | none => cases h
  | some c =>
    simp only [isAfter, beq_iff_eq] at h'
    have hle : (compare k c).isLE = true := by
      cases hc : compare c k with
      | lt => simp [isAfter, hc] at h
      | eq => rw [Std.OrientedCmp.eq_comm.1 hc]; rfl
      | gt => rw [Std.OrientedCmp.lt_of_gt hc]; rfl
    exact Std.TransCmp.lt_of_isLE_of_lt hle h'

end OrderedMap

open OrderedMap (isAfter)

/-- The records come one after another, all of them after the cursor. -/
def Ascending : Option Ref → List BlobRecord → Prop
  | _, [] => True
  | cursor, b :: rest => isAfter cursor b.ref = true ∧ Ascending (some b.ref) rest

theorem Ascending.after {cursor : Option Ref} {records : List BlobRecord}
    (h : Ascending cursor records) {b : BlobRecord} (hb : b ∈ records) :
    isAfter cursor b.ref = true := by
  induction records generalizing cursor with
  | nil => cases hb
  | cons b' rest ih =>
    rcases List.mem_cons.1 hb with rfl | hb
    · exact h.1
    · exact OrderedMap.isAfter_trans h.1 (ih h.2 hb)

theorem Ascending.take {cursor : Option Ref} {records : List BlobRecord}
    (h : Ascending cursor records) (n : Nat) : Ascending cursor (records.take n) := by
  induction records generalizing cursor n with
  | nil => rw [List.take_nil]; trivial
  | cons b rest ih =>
    cases n with
    | zero => trivial
    | succ n => exact ⟨h.1, ih h.2 n⟩

namespace Catalog

variable {c : Catalog} {cursor : Option Ref} {r : Ref} {b : BlobRecord}

theorem mem_after (hfiled : c.Filed) {p : Ref × BlobRecord} (hp : p ∈ c.records.after cursor) :
    c.records.get? p.1 = some p.2 ∧ isAfter cursor p.1 = true ∧ p.2.ref = p.1 := by
  rw [OrderedMap.after_eq_filter, List.mem_filter] at hp
  have hget := OrderedMap.mem_entries.1 hp.1
  exact ⟨hget, hp.2, hfiled p.1 p.2 hget⟩

theorem ascending_after (hfiled : c.Filed) (cursor : Option Ref) :
    Ascending cursor ((c.records.after cursor).map (·.2)) := by
  have hsorted : (c.records.after cursor).Pairwise fun p q => compare p.1 q.1 = .lt := by
    rw [OrderedMap.after_eq_filter]
    exact OrderedMap.pairwise_filter _ c.records.sorted
  have hmem : ∀ p ∈ c.records.after cursor, isAfter cursor p.1 = true ∧ p.2.ref = p.1 :=
    fun p hp => (mem_after hfiled hp).2
  generalize c.records.after cursor = entries at hsorted hmem
  induction entries generalizing cursor with
  | nil => trivial
  | cons p rest ih =>
    obtain ⟨hfirst, hrest⟩ := List.pairwise_cons.1 hsorted
    obtain ⟨hafter, href⟩ := hmem p List.mem_cons_self
    refine ⟨by rw [href]; exact hafter, ih _ hrest fun q hq => ?_⟩
    rw [href]
    exact ⟨by simp [isAfter, hfirst q hq], (hmem q (List.mem_cons_of_mem _ hq)).2⟩

/-- A batch holds records in ascending order, all of them after the cursor. -/
theorem ascending_recordsAfter (hfiled : c.Filed) (cursor : Option Ref) (limit : Nat) :
    Ascending cursor (c.recordsAfter cursor limit) :=
  (ascending_after hfiled cursor).take limit

/-- A record after the cursor is in the batch, or comes after all of the batch. -/
theorem recordsAfter_misses_none (hfiled : c.Filed) (limit : Nat)
    (hr : c.records.get? r = some b) (hafter : isAfter cursor r = true) :
    b ∈ c.recordsAfter cursor limit ∨
      ∀ b' ∈ c.recordsAfter cursor limit, compare b'.ref r = .lt := by
  have hmem : (r, b) ∈ c.records.after cursor := by
    rw [OrderedMap.after_eq_filter, List.mem_filter]
    exact ⟨OrderedMap.mem_entries.2 hr, hafter⟩
  rw [recordsAfter, ← List.map_take]
  obtain ⟨i, hi, hget⟩ := List.mem_iff_getElem.1 hmem
  have hsorted : (c.records.after cursor).Pairwise fun p q => compare p.1 q.1 = .lt := by
    rw [OrderedMap.after_eq_filter]
    exact OrderedMap.pairwise_filter _ c.records.sorted
  by_cases hlt : i < limit
  · refine .inl (List.mem_map.2 ⟨(r, b), ?_, rfl⟩)
    exact List.mem_take_iff_getElem.2 ⟨i, by omega, hget⟩
  · refine .inr fun b' hb' => ?_
    obtain ⟨p, hp, rfl⟩ := List.mem_map.1 hb'
    obtain ⟨j, hj, hjp⟩ := List.mem_take_iff_getElem.1 hp
    have hcompare := List.pairwise_iff_getElem.1 hsorted j i (by omega) hi (by omega)
    rw [hget, hjp] at hcompare
    rw [(mem_after hfiled (List.mem_of_mem_take hp)).2.2]
    exact hcompare

/-- If a batch is empty, no record comes after the cursor. -/
theorem none_after_of_recordsAfter {limit : Nat} (hlimit : 1 ≤ limit)
    (h : c.recordsAfter cursor limit = []) (hr : c.records.get? r = some b) :
    isAfter cursor r = false := by
  rw [recordsAfter, List.take_eq_nil_iff, List.map_eq_nil_iff] at h
  rcases h with hzero | hnil
  · omega
  · refine Bool.eq_false_iff.2 fun hafter => ?_
    have hmem : (r, b) ∈ c.records.after cursor := by
      rw [OrderedMap.after_eq_filter, List.mem_filter]
      exact ⟨OrderedMap.mem_entries.2 hr, hafter⟩
    rw [hnil] at hmem
    cases hmem

end Catalog

namespace Scan

/-- What a scan has in hand comes after its cursor, in order. -/
def Ascends (s : Scan) : Prop :=
  match s.phase with
  | .visiting records => Ascending s.job.cursor records
  | .checking b _ _ rest => Ascending s.job.cursor (b :: rest)
  | _ => True

variable {s s' : Scan} {v v' : Vault} {now : Nat} {cancelled : Bool}

theorem ascends_start (settings : ScrubSettings) (j : ScrubJob) (now : Nat) :
    (start settings j now).Ascends := trivial

/-- A query brings a batch, or nothing is left. -/
theorem query_cases (s : Scan) (c : Catalog) :
    c.recordsAfter s.job.cursor s.settings.batchSize = [] ∧ s.query c = .saving .completed ∨
      s.query c = .visiting (c.recordsAfter s.job.cursor s.settings.batchSize) := by
  unfold query
  cases c.recordsAfter s.job.cursor s.settings.batchSize with
  | nil => exact .inl ⟨rfl, rfl⟩
  | cons b rest => exact .inr rfl

theorem Noted.ascends {b : BlobRecord} {result? : Option (Except Fault Nat)}
    {rest : List BlobRecord} (h : Noted s now v b.ref result? rest s' v')
    (hrest : Ascending (some b.ref) rest) : s'.Ascends := by
  have hcursor := h.job.2.2
  cases h with
  | full => trivial
  | checkpoint | next =>
    unfold Ascends
    dsimp only at hcursor ⊢
    rw [hcursor]
    exact hrest

/-- No step changes that a scan goes upwards. -/
theorem Stepped.ascends (h : Stepped now v s cancelled s' v') (hfiled : v.catalog.Filed)
    (hs : s.Ascends) : s'.Ascends := by
  unfold Ascends at hs
  cases h with
  | stop hphase => trivial
  | query hphase =>
    unfold Ascends
    dsimp only
    rcases query_cases s v.catalog with ⟨-, hquery⟩ | hquery
    · rw [hquery]
      trivial
    · rw [hquery]
      exact Catalog.ascending_recordsAfter hfiled s.job.cursor s.settings.batchSize
  | refill hphase => trivial
  | begin hphase hon =>
    rw [hphase] at hs
    exact hs
  | visit hphase hnoted =>
    rw [hphase] at hs
    exact hnoted.ascends hs.2
  | approach hphase =>
    rw [hphase] at hs
    exact hs
  | check hphase hnoted =>
    rw [hphase] at hs
    exact hnoted.ascends hs.2
  | save hphase => trivial

end Scan

end BlobVault
