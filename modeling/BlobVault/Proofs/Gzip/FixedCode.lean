import BlobVault.Gzip.Member
import Mathlib.Data.List.Sort

/-!
# The fixed codes

Most short data is written with codes that need no description.  A decoder lists the symbols of a
code in the order of its words, which is a sorting of their lengths; here it is shown to be sorting
by insertion as well, and the decoders of the fixed codes are given in that form.

* `mergeSort_eq_insertionSort` : sorting by merging is sorting by insertion;
* `Gzip.readBlock_one` : a block of the first type is read with the fixed codes;
* `Gzip.inflate_of_fixed` : what data of one such block expands to.
-/

namespace BlobVault

/-- An element is inserted before the first one that it may precede. -/
theorem orderedInsert_append {α : Type} {le : α → α → Bool} {a : α} {before after : List α}
    (hbefore : ∀ b ∈ before, le a b = false) (hafter : ∀ b ∈ after, le a b = true) :
    (before ++ after).orderedInsert (le · · = true) a = before ++ a :: after := by
  induction before with
  | nil =>
    cases after with
    | nil => rfl
    | cons b after => exact List.orderedInsert_cons_of_le _ _ (hafter b List.mem_cons_self)
  | cons b before ih =>
    have hb : ¬ le a b = true := by simp [hbefore b List.mem_cons_self]
    rw [List.cons_append, List.orderedInsert_cons, if_neg hb,
      ih fun b' hb' => hbefore b' (List.mem_cons_of_mem _ hb')]
    rfl

/-- Sorting by merging is sorting by insertion. -/
theorem mergeSort_eq_insertionSort {α : Type} {le : α → α → Bool}
    (htrans : ∀ a b c, le a b = true → le b c = true → le a c = true)
    (htotal : ∀ a b, (le a b || le b a) = true) (as : List α) :
    as.mergeSort le = as.insertionSort (le · · = true) := by
  induction as with
  | nil => exact List.mergeSort_nil
  | cons a as ih =>
    obtain ⟨before, after, hcons, has, hbefore⟩ := List.mergeSort_cons htrans htotal a as
    have hsorted := List.pairwise_mergeSort htrans htotal (a :: as)
    rw [hcons] at hsorted
    have hafter := (List.pairwise_cons.1 (List.pairwise_append.1 hsorted).2.1).1
    rw [List.insertionSort_cons, ← ih, has, hcons,
      orderedInsert_append (by simpa using hbefore) hafter]

namespace Gzip

theorem mergeSort_lengths (used : List (Nat × Nat)) :
    used.mergeSort (fun p q => p.1 ≤ q.1) =
      used.insertionSort fun p q => decide (p.1 ≤ q.1) = true := by
  refine mergeSort_eq_insertionSort (fun a b c => ?_) (fun a b => ?_) used
  · simpa using Nat.le_trans
  · simpa using Nat.le_total a.1 b.1

namespace Decoder

/-- How many words there are of each length. -/
def counts (lengths : List Nat) : List Nat :=
  (List.range 15).map fun i => lengths.countP (· = i + 1)

/-- The symbols that have a word, in the order of the words. -/
def symbols (lengths : List Nat) : List Nat :=
  ((lengths.zipIdx.filter (·.1 ≠ 0)).insertionSort
    fun p q => decide (p.1 ≤ q.1) = true).map (·.2)

/-- The decoder of words that fill the code space. -/
def sorted (lengths : List Nat) : Decoder := .full (counts lengths) (symbols lengths).toArray

theorem ofLengths?_eq_sorted {lengths : List Nat} (hused : 1 < (symbols lengths).length)
    (hspace : codeSpace (counts lengths) = Nat.pow 2 14 * 2) :
    ofLengths? lengths = some (sorted lengths) := by
  simp only [symbols, List.length_map, List.length_insertionSort] at hused
  simp only [ofLengths?, sorted, symbols, mergeSort_lengths]
  split
  · rename_i hnone
    rw [hnone] at hused
    exact absurd hused (Nat.not_lt_zero 1)
  · rename_i hlone
    rw [hlone] at hused
    exact absurd hused (Nat.lt_irrefl 1)
  · exact if_pos hspace

end Decoder

/-- A block of the first type is read with the fixed codes. -/
theorem readBlock_one (r : BitReader) (out : Array UInt8) :
    readBlock 1 r out =
      readTokens (.sorted fixedLiteralLengths) (.sorted fixedDistanceLengths)
        (8 * r.data.size + 1) r out := by
  have hliterals : Decoder.ofLengths? fixedLiteralLengths = some (.sorted fixedLiteralLengths) :=
    Decoder.ofLengths?_eq_sorted (by decide +kernel) (by decide +kernel)
  have hdistances : Decoder.ofLengths? fixedDistanceLengths = some (.sorted fixedDistanceLengths) :=
    Decoder.ofLengths?_eq_sorted (by decide +kernel) (by decide +kernel)
  simp only [readBlock, decoderOf, hliterals, hdistances]
  rfl

/-- A single block with the fixed codes is all that is expanded. -/
theorem inflate_of_fixed {data : Array UInt8} {start : Nat} {r r' : BitReader}
    (hlast : BitReader.bit ⟨data, 8 * start⟩ = .ok (1, r)) (hkind : r.bits 2 = .ok (1, r')) :
    inflate data start =
      (readTokens (.sorted fixedLiteralLengths) (.sorted fixedDistanceLengths)
        (8 * r'.data.size + 1) r' #[]).map fun p => (p.1, p.2.align.pos / 8) := by
  unfold inflate
  rw [readBlocks, hlast]
  simp only [bind, Except.bind]
  rw [hkind]
  simp only [readBlock_one]
  cases readTokens _ _ _ r' #[] <;> rfl

end Gzip

end BlobVault
