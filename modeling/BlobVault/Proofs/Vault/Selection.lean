import BlobVault.Proofs.Replication.Batch
import Mathlib.Logic.Relation

/-!
# The volume to read from

Of some candidates the cheapest one that is mounted is read from, and of equally cheap ones the one
that comes first.  What is not mounted does not matter, and neither does what is named again.

* `Vault.IsCheapest` : no mounted candidate costs less, and none that comes first costs as little;
* `Vault.IsCheapest.unique`, `Vault.bestVolume_eq_ok` : there is one such candidate at most, and it
  is the answer;
* `Vault.bestVolume_eq_error` : there is no answer if nothing is mounted;
* `Vault.Padding` : a candidate is put in that is not mounted, or was named before;
* `Vault.InOrder` : the mounted candidates of two lists, and the order in which they come first, are
  the same, which is all that the answer depends on;
* `Vault.bestVolume_selects` : **the cheapest mounted candidate is selected, with whatever the list
  is padded.**
-/

namespace BlobVault.Vault

variable {v : Vault} {candidates candidates' : List VolumeId} {id id' : VolumeId}

/-- The candidate is mounted, no mounted candidate costs less, and every other one that comes first
costs more. -/
structure IsCheapest (v : Vault) (candidates : List VolumeId) (id : VolumeId) : Prop where
  mem : id ∈ candidates
  mounted : v.isMounted id = true
  least : ∀ cost, v.costOf? id = some cost → ∀ id' ∈ candidates, ∀ cost',
    v.costOf? id' = some cost' →
      cost ≤ cost' ∧ (candidates.idxOf id' < candidates.idxOf id → cost < cost')

theorem exists_costOf? (h : v.isMounted id = true) : ∃ cost, v.costOf? id = some cost := by
  obtain ⟨b, hb⟩ := Option.isSome_iff_exists.1 h
  exact ⟨_, by rw [costOf?, hb]; rfl⟩

/-- What comes before a candidate in the list costs more, so the candidate is not there. -/
theorem IsBest.isCheapest (h : v.IsBest candidates id) : v.IsCheapest candidates id := by
  obtain ⟨hmem, hmounted, cost, before, after, hcost, rfl, hbefore, hafter⟩ := h
  have hfirst : id ∉ before := fun hid => Nat.lt_irrefl _ (hbefore id hid cost hcost)
  refine ⟨hmem, hmounted, fun c hc id' hid' cost' hcost' => ?_⟩
  obtain rfl := Option.some.inj (hcost.symm.trans hc)
  by_cases hid : id' ∈ before
  · have hlt := hbefore id' hid cost' hcost'
    exact ⟨Nat.le_of_lt hlt, fun _ => hlt⟩
  · refine ⟨?_, fun hlt => ?_⟩
    · rcases List.mem_cons.1 ((List.mem_append.1 hid').resolve_left hid) with rfl | hid'
      · exact Nat.le_of_eq (Option.some.inj (hcost.symm.trans hcost'))
      · exact hafter id' hid' cost' hcost'
    · -- nothing that is not before the candidate comes first
      rw [List.idxOf_append_of_notMem hid, List.idxOf_append_of_notMem hfirst,
        List.idxOf_cons_self] at hlt
      omega

/-- Of two cheapest candidates neither comes first. -/
theorem IsCheapest.unique (h : v.IsCheapest candidates id) (h' : v.IsCheapest candidates id') :
    id = id' := by
  obtain ⟨cost, hcost⟩ := exists_costOf? h.mounted
  obtain ⟨cost', hcost'⟩ := exists_costOf? h'.mounted
  obtain ⟨hle, hlt⟩ := h.least cost hcost id' h'.mem cost' hcost'
  obtain ⟨hle', hlt'⟩ := h'.least cost' hcost' id h.mem cost hcost
  by_contra hne
  have hplaces : candidates.idxOf id ≠ candidates.idxOf id' := fun heq =>
    hne ((List.idxOf_inj h.mem).1 heq)
  rcases Nat.lt_or_gt_of_ne hplaces with hbefore | hafter
  · exact absurd (hlt' hbefore) (Nat.not_lt.2 hle)
  · exact absurd (hlt hafter) (Nat.not_lt.2 hle')

theorem bestVolume_eq_ok : v.bestVolume candidates = .ok id ↔ v.IsCheapest candidates id := by
  constructor
  · exact fun h => (isBest_of_bestVolume h).isCheapest
  · intro h
    obtain ⟨source, hsource⟩ := bestVolume_isOk_iff.2 ⟨id, h.mem, h.mounted⟩
    rw [hsource, h.unique (isBest_of_bestVolume hsource).isCheapest]

/-- The fault names the candidates as they were given. -/
theorem bestVolume_eq_error {fault : Fault} : v.bestVolume candidates = .error fault ↔
    fault = .capability (.noneMounted candidates) ∧
      ∀ id ∈ candidates, v.isMounted id = false := by
  have hnone : (∀ id ∈ candidates, v.isMounted id = false) ↔
      ¬ ∃ source, v.bestVolume candidates = .ok source := by
    simp only [bestVolume_isOk_iff, not_exists, not_and, Bool.not_eq_true]
  rw [hnone]
  unfold bestVolume
  split
  · simp
  · simp [eq_comm]

/-! ### Candidates that do not matter -/

/-- A candidate is put in that is not mounted or was named before. -/
inductive Padding (v : Vault) : List VolumeId → List VolumeId → Prop
  | insert (before after : List VolumeId) {id : VolumeId}
      (h : v.isMounted id = false ∨ id ∈ before) :
      Padding v (before ++ after) (before ++ id :: after)

/-- The same candidates are mounted, and they come first in the same order. -/
structure InOrder (v : Vault) (candidates candidates' : List VolumeId) : Prop where
  mem : ∀ id, v.isMounted id = true → (id ∈ candidates ↔ id ∈ candidates')
  order : ∀ id id', v.isMounted id = true → v.isMounted id' = true →
    (candidates.idxOf id < candidates.idxOf id' ↔ candidates'.idxOf id < candidates'.idxOf id')

namespace InOrder

theorem refl (v : Vault) (candidates : List VolumeId) : v.InOrder candidates candidates :=
  ⟨fun _ _ => .rfl, fun _ _ _ _ => .rfl⟩

theorem symm (h : v.InOrder candidates candidates') : v.InOrder candidates' candidates :=
  ⟨fun id hid => (h.mem id hid).symm, fun id id' hid hid' => (h.order id id' hid hid').symm⟩

theorem trans {candidates'' : List VolumeId} (h : v.InOrder candidates candidates')
    (h' : v.InOrder candidates' candidates'') : v.InOrder candidates candidates'' :=
  ⟨fun id hid => (h.mem id hid).trans (h'.mem id hid),
    fun id id' hid hid' => (h.order id id' hid hid').trans (h'.order id id' hid hid')⟩

theorem isCheapest (h : v.InOrder candidates candidates') (hid : v.IsCheapest candidates id) :
    v.IsCheapest candidates' id := by
  refine ⟨(h.mem id hid.mounted).1 hid.mem, hid.mounted, fun cost hcost id' hid' cost' hcost' => ?_⟩
  have hmounted := isMounted_of_costOf? hcost'
  obtain ⟨hle, hlt⟩ := hid.least cost hcost id' ((h.mem id' hmounted).2 hid') cost' hcost'
  exact ⟨hle, fun hfirst => hlt ((h.order id' id hmounted hid.mounted).2 hfirst)⟩

/-- The answer is the same, if there is one. -/
theorem bestVolume_eq (h : v.InOrder candidates candidates') :
    (v.bestVolume candidates').toOption = (v.bestVolume candidates).toOption := by
  have hsome : ∀ {cs : List VolumeId} {id : VolumeId},
      (v.bestVolume cs).toOption = some id ↔ v.IsCheapest cs id := fun {cs id} => by
    rw [← bestVolume_eq_ok]
    cases v.bestVolume cs <;> simp [Except.toOption]
  ext id
  rw [hsome, hsome]
  exact ⟨h.symm.isCheapest, h.isCheapest⟩

end InOrder

/-- Where a candidate comes first that was there before another one was put in. -/
theorem idxOf_insert {before after : List VolumeId} (h : id' = id → id ∈ before) :
    (before ++ id :: after).idxOf id' =
      if id' ∈ before then before.idxOf id' else after.idxOf id' + 1 + before.length := by
  rw [List.idxOf_append]
  by_cases hid' : id' ∈ before
  · rw [if_pos hid', if_pos hid']
  · have hne : id ≠ id' := fun heq => hid' (heq ▸ h heq.symm)
    rw [if_neg hid', if_neg hid', List.idxOf_cons_ne _ hne]

/-- What is put in moves the others, but not past each other. -/
theorem Padding.inOrder (h : v.Padding candidates candidates') :
    v.InOrder candidates candidates' := by
  obtain ⟨before, after, h⟩ := h
  rename_i id
  have hold : ∀ {id'}, v.isMounted id' = true → id' = id → id ∈ before := fun hid' heq => by
    subst heq
    exact h.resolve_left (by simp [hid'])
  refine ⟨fun id' hid' => ?_, fun id' id'' hid' hid'' => ?_⟩
  · simp only [List.mem_append, List.mem_cons]
    constructor
    · rintro (hmem | hmem)
      · exact .inl hmem
      · exact .inr (.inr hmem)
    · rintro (hmem | heq | hmem)
      · exact .inl hmem
      · exact .inl (heq ▸ hold hid' heq)
      · exact .inr hmem
  · rw [idxOf_insert (hold hid'), idxOf_insert (hold hid''), List.idxOf_append, List.idxOf_append]
    by_cases hmem : id' ∈ before
    · have hlt := List.idxOf_lt_length_iff.2 hmem
      by_cases hmem' : id'' ∈ before
      · simp only [if_pos hmem, if_pos hmem']
      · simp only [if_pos hmem, if_neg hmem']
        omega
    · by_cases hmem' : id'' ∈ before
      · have hlt := List.idxOf_lt_length_iff.2 hmem'
        simp only [if_neg hmem, if_pos hmem']
        omega
      · simp only [if_neg hmem, if_neg hmem']
        omega

/-- **The cheapest mounted candidate is selected.**  If none is mounted there is a fault.  The list
may be padded with candidates that are not mounted or were named before, and padding may be taken
away, anywhere and as often as one likes. -/
theorem bestVolume_selects (v : Vault) :
    (∀ candidates fault, v.bestVolume candidates = .error fault ↔
      fault = .capability (.noneMounted candidates) ∧
        ∀ id ∈ candidates, v.isMounted id = false) ∧
    (∀ candidates id, v.bestVolume candidates = .ok id ↔ v.IsCheapest candidates id) ∧
    ∀ candidates candidates', Relation.EqvGen v.Padding candidates candidates' →
      (v.bestVolume candidates').toOption = (v.bestVolume candidates).toOption := by
  refine ⟨fun _ _ => bestVolume_eq_error, fun _ _ => bestVolume_eq_ok, fun _ _ h => ?_⟩
  refine InOrder.bestVolume_eq ?_
  induction h with
  | rel _ _ h => exact h.inOrder
  | refl cs => exact .refl v cs
  | symm _ _ _ ih => exact ih.symm
  | trans _ _ _ _ _ ih ih' => exact ih.trans ih'

namespace Sources

/-- The first of three volumes costs more than the others. -/
def vault : Vault :=
  { Vault.empty 1 with
    storage := (Storage.empty.setBackend 10 (.memory (.empty 30))).setBackend 20
      (.memory (.empty 5))
    mounts := ((OrderedMap.empty.insert 1 10).insert 2 20).insert 3 20 }

/-- A volume that is not mounted is put in, and two that were named before. -/
theorem padded : Relation.EqvGen vault.Padding [1, 3, 2] [1, 9, 3, 1, 2, 3] := by
  have hfirst : vault.Padding [1, 3, 2] [1, 9, 3, 2] := .insert [1] [3, 2] (.inl (by decide))
  have hsecond : vault.Padding [1, 9, 3, 2] [1, 9, 3, 1, 2] :=
    .insert [1, 9, 3] [2] (.inr (by decide))
  have hthird : vault.Padding [1, 9, 3, 1, 2] [1, 9, 3, 1, 2, 3] :=
    .insert [1, 9, 3, 1, 2] [] (.inr (by decide))
  exact .trans _ _ _ (.rel _ _ hfirst) (.trans _ _ _ (.rel _ _ hsecond) (.rel _ _ hthird))

end Sources

/-- Two of three candidates are equally cheap, and the one that comes first is selected. -/
theorem bestVolume_selects_sample :
    Sources.vault.IsCheapest [1, 3, 2] 3 ∧
      Relation.EqvGen Sources.vault.Padding [1, 3, 2] [1, 9, 3, 1, 2, 3] ∧
      (Sources.vault.bestVolume [1, 9, 3, 1, 2, 3]).toOption = some 3 ∧
      ∀ id ∈ [9, 8], Sources.vault.isMounted id = false := by
  obtain ⟨herror, hok, hpadded⟩ := bestVolume_selects Sources.vault
  have hselected : Sources.vault.bestVolume [1, 3, 2] = .ok 3 := by rfl
  refine ⟨(hok _ _).1 hselected, Sources.padded, ?_, ?_⟩
  · rw [hpadded _ _ Sources.padded, hselected]
    rfl
  · exact ((herror [9, 8] _).1 (by rfl)).2

end BlobVault.Vault
