import BlobVault.Proofs.Catalog.Records

/-!
# Commits

A commit marks all the blobs that it names, or none.  What it leaves depends neither on the order of
the names nor on how often a blob is named, and nothing is left of an earlier commit of the same
blobs.

* `Catalog.commit_eq_error` : which fault a commit answers;
* `Catalog.Committed` : what a commit of known blobs leaves;
* `Catalog.commit_congr`, `Catalog.commit_after_commit` : it depends on the set of the names, and
  the last commit of some blobs counts;
* `Catalog.commit_all_or_nothing` : **a commit names the first unknown blob and changes nothing, or
  changes exactly the records that it names.**
-/

namespace BlobVault.Catalog

variable {c c' : Catalog} {refs refs' : List Ref} {desired : List VolumeId}

/-- Some blob is unknown, and the first such one is named. -/
theorem commit_eq_error {fault : CatalogFault} : c.commit refs desired = .error fault ↔
    ∃ before r after, refs = before ++ r :: after ∧ (∀ r' ∈ before, c.hasRecord r' = true) ∧
      c.hasRecord r = false ∧ fault = .notFound (.blob r) := by
  unfold commit
  split
  · rename_i r hfind
    obtain ⟨hunknown, before, after, hrefs, hbefore⟩ := List.find?_eq_some_iff_append.1 hfind
    have hunknown : c.hasRecord r = false := by simpa using hunknown
    constructor
    · intro hfault
      exact ⟨before, r, after, hrefs, fun r' hr' => by simpa using hbefore r' hr', hunknown,
        (Except.error.inj hfault).symm⟩
    · rintro ⟨before', r', after', hrefs', hbefore', hunknown', rfl⟩
      have hfind' : refs.find? (fun r => !c.hasRecord r) = some r' := by
        refine List.find?_eq_some_iff_append.2
          ⟨by simpa using hunknown', before', after', hrefs', fun r hr => ?_⟩
        simpa using hbefore' r hr
      rw [Option.some.inj (hfind.symm.trans hfind')]
  · rename_i hfind
    refine ⟨nofun, ?_⟩
    rintro ⟨before, r, after, rfl, -, hunknown, -⟩
    have hknown := List.find?_eq_none.1 hfind r (by simp)
    simp [hunknown] at hknown

theorem known_of_commit (h : c.commit refs desired = .ok c') :
    ∀ r ∈ refs, c.hasRecord r = true := by
  intro r hr
  unfold commit at h
  split at h
  · cases h
  · rename_i hfind
    simpa using List.find?_eq_none.1 hfind r hr

theorem commit_of_known (h : ∀ r ∈ refs, c.hasRecord r = true) :
    c.commit refs desired = .ok { c with
      records := refs.foldl (fun records r => records.modify r (·.committed desired))
        c.records } := by
  cases hc : c.commit refs desired with
  | ok c' => rw [commit_eq_ok hc]
  | error fault =>
    obtain ⟨before, r, after, rfl, -, hunknown, -⟩ := commit_eq_error.1 hc
    rw [h r (by simp)] at hunknown
    cases hunknown

/-- What a commit of known blobs leaves: their records say that they are referred to, and which of
the desired volumes do not hold them. -/
structure Committed (c : Catalog) (refs : List Ref) (desired : List VolumeId) (c' : Catalog) :
    Prop where
  named : ∀ r ∈ refs, ∃ b, c.records.get? r = some b ∧ c'.records.get? r =
    some { b with
      referenced := true
      pending := desired.filter fun id => !b.volumes.contains id }
  unnamed : ∀ r, r ∉ refs → c'.records.get? r = c.records.get? r
  /-- Volumes, collections, envelopes and jobs are what they were. -/
  rest : c' = { c with records := c'.records }

theorem committed_of_commit (h : c.commit refs desired = .ok c') :
    c.Committed refs desired c' := by
  have hknown := known_of_commit h
  rw [commit_eq_ok h]
  refine ⟨fun r hr => ?_, fun r hr => ?_, rfl⟩
  · obtain ⟨b, hb⟩ := Option.isSome_iff_exists.1 (hknown r hr)
    refine ⟨b, hb, ?_⟩
    rw [get?_foldl_committed, hb, Option.map_some, if_pos hr]
    rfl
  · rw [get?_foldl_committed]
    simp [hr]

/-- A commit depends on which blobs it names, not on their order or on how often it names them. -/
theorem commit_congr (hsame : ∀ r, r ∈ refs' ↔ r ∈ refs)
    (hknown : ∀ r ∈ refs, c.hasRecord r = true) :
    c.commit refs' desired = c.commit refs desired := by
  have hrecords : refs'.foldl (fun records r => records.modify r (·.committed desired)) c.records =
      refs.foldl (fun records r => records.modify r (·.committed desired)) c.records := by
    refine OrderedMap.ext_get? fun r => ?_
    rw [get?_foldl_committed, get?_foldl_committed]
    simp only [hsame]
  rw [commit_of_known hknown, commit_of_known fun r hr => hknown r ((hsame r).1 hr), hrecords]

/-- Nothing is left of an earlier commit of the same blobs. -/
theorem commit_after_commit (h : c.commit refs desired = .ok c') (desired' : List VolumeId) :
    c'.commit refs desired' = c.commit refs desired' := by
  have hknown := known_of_commit h
  obtain rfl := commit_eq_ok h
  have hknown' : ∀ r ∈ refs, hasRecord { c with
      records := refs.foldl (fun records r => records.modify r (·.committed desired))
        c.records } r = true := fun r hr => by
    rw [hasRecord, OrderedMap.contains_eq_isSome, get?_foldl_committed, Option.isSome_map]
    exact hknown r hr
  rw [commit_of_known hknown, commit_of_known hknown']
  congr 2
  refine OrderedMap.ext_get? fun r => ?_
  rw [get?_foldl_committed, get?_foldl_committed, get?_foldl_committed, Option.map_map]
  refine congrArg (fun f => (c.records.get? r).map f) (funext fun b => ?_)
  by_cases hr : r ∈ refs <;> simp [hr, BlobRecord.committed_committed]

/-- **A commit changes all the records that it names, or nothing.**  If a blob is unknown, the first
such one is named and nothing changes.  Otherwise exactly the named records change, whatever the
order and the repetitions of the names, and a later commit of the same blobs leaves nothing of
it. -/
theorem commit_all_or_nothing (c : Catalog) (refs : List Ref) (desired : List VolumeId) :
    ((∃ r ∈ refs, c.hasRecord r = false) → ∃ before r after, refs = before ++ r :: after ∧
      (∀ r' ∈ before, c.hasRecord r' = true) ∧ c.hasRecord r = false ∧
      c.commit refs desired = .error (.notFound (.blob r)) ∧
      c.after (c.commit refs desired) = c) ∧
    ((∀ r ∈ refs, c.hasRecord r = true) → ∃ c', c.commit refs desired = .ok c' ∧
      c.after (c.commit refs desired) = c' ∧ c.Committed refs desired c' ∧
      (∀ refs', (∀ r, r ∈ refs' ↔ r ∈ refs) → c.commit refs' desired = .ok c') ∧
      c'.commit refs desired = .ok c' ∧
      ∀ desired', c'.commit refs desired' = c.commit refs desired') := by
  constructor
  · rintro ⟨r, hr, hunknown⟩
    cases hc : c.commit refs desired with
    | ok c' =>
      rw [known_of_commit hc r hr] at hunknown
      cases hunknown
    | error fault =>
      obtain ⟨before, r, after, hrefs, hbefore, hunknown, rfl⟩ := commit_eq_error.1 hc
      exact ⟨before, r, after, hrefs, hbefore, hunknown, rfl, rfl⟩
  · intro hknown
    have hc : c.commit refs desired = .ok _ := commit_of_known hknown
    refine ⟨_, hc, by rw [hc]; rfl, committed_of_commit hc, fun refs' hsame => ?_, ?_,
      commit_after_commit hc⟩
    · rw [commit_congr hsame hknown, hc]
    · rw [commit_after_commit hc, hc]

namespace Marking

def first : Ref := .repeated 1

def second : Ref := .repeated 2

def unknown : Ref := .repeated 3

/-- Two blobs that were written to the first volume.  The second one is wanted on another. -/
def catalog : Catalog :=
  { Catalog.empty with
    records := (OrderedMap.empty.insert first (.written first)).insert second
      { BlobRecord.written second with pending := [9], referenced := true } }

/-- The second blob after a commit. -/
def marked : BlobRecord := { BlobRecord.written second with pending := [2, 2], referenced := true }

end Marking

/-- The second blob is named twice, and the commit before is forgotten.  Where an unknown blob is
named after a known one, the known one is not marked either. -/
theorem commit_all_or_nothing_sample :
    (∀ r ∈ [Marking.second, Marking.second], Marking.catalog.hasRecord r = true) ∧
      (∃ c, Marking.catalog.commit [Marking.second, Marking.second] [2, 1, 2] = .ok c ∧
        c.records.get? Marking.second = some Marking.marked ∧
        Marking.catalog.commit [Marking.second] [2, 1, 2] = .ok c) ∧
      Marking.catalog.hasRecord Marking.unknown = false ∧
      Marking.catalog.after
        (Marking.catalog.commit [Marking.first, Marking.unknown] [2]) = Marking.catalog := by
  have hknown : ∀ r ∈ [Marking.second, Marking.second], Marking.catalog.hasRecord r = true := by
    decide
  have hunknown : Marking.catalog.hasRecord Marking.unknown = false := by decide
  obtain ⟨c, hc, -, hcommitted, hcongr, -⟩ :=
    (commit_all_or_nothing Marking.catalog _ [2, 1, 2]).2 hknown
  obtain ⟨b, hb, hmarked⟩ := hcommitted.named Marking.second (by simp)
  obtain rfl : _ = b := Option.some.inj hb
  refine ⟨hknown, ⟨c, hc, hmarked, hcongr [Marking.second] (by simp)⟩, hunknown, ?_⟩
  obtain ⟨-, -, -, -, -, -, -, hsame⟩ :=
    (commit_all_or_nothing Marking.catalog [Marking.first, Marking.unknown] [2]).1
      ⟨Marking.unknown, by simp, hunknown⟩
  exact hsame

end BlobVault.Catalog
