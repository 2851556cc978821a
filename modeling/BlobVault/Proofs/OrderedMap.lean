import BlobVault.OrderedMap

/-!
# Look-up laws of finite maps

What each operation on an `OrderedMap` does to its look-ups, so that nothing else has to open the
list of entries.

* `get?_insert`, `get?_erase`, `get?_modify`, `get?_mapVal` : the operations, through `get?`;
* `perm_values_insert`, `map_filter_values_modify` : the values after an operation;
* `mem_entries`, `mem_keys`, `mem_values` : the listings, through `get?`;
* `ext_get?` : a map is determined by its look-ups;
* `after_of_append` : what comes after a key, cut at one of its entries.
-/

namespace BlobVault.OrderedMap

variable {κ α β : Type} [Ord κ]

theorem contains_eq_isSome (m : OrderedMap κ α) (k : κ) : m.contains k = (m.get? k).isSome := rfl

theorem contains_of_get? {m : OrderedMap κ α} {k : κ} {a : α} (h : m.get? k = some a) :
    m.contains k = true := by
  rw [contains_eq_isSome, h]
  rfl

theorem contains_eq_false {m : OrderedMap κ α} {k : κ} :
    m.contains k = false ↔ m.get? k = none := by
  rw [contains_eq_isSome, Option.isSome_eq_false_iff, Option.isNone_iff_eq_none]

theorem pairwise_keys (m : OrderedMap κ α) : m.keys.Pairwise fun k k' => compare k k' = .lt := by
  rw [keys, List.pairwise_map]
  exact m.sorted

theorem ext_entries {m m' : OrderedMap κ α} (h : m.entries = m'.entries) : m = m' := by
  cases m; cases m'; cases h; rfl

/-- The key is after the cursor; everything is after no cursor. -/
def isAfter (cursor? : Option κ) (k : κ) : Bool :=
  match cursor? with
  | none => true
  | some c => compare c k == .lt

theorem after_eq_filter (m : OrderedMap κ α) (cursor? : Option κ) :
    m.after cursor? = m.entries.filter fun p => isAfter cursor? p.1 := by
  cases cursor? with
  | none => exact (List.filter_eq_self.2 fun _ _ => rfl).symm
  | some k => rfl

variable [Std.LawfulEqOrd κ]

theorem ne_of_lt {k k' : κ} (h : compare k k' = .lt) : k ≠ k' := by
  rintro rfl
  simp at h

/-! ### Entries -/

theorem find_eq_some {k : κ} {a : α} {ps : List (κ × α)}
    (h : ps.Pairwise fun p q => compare p.1 q.1 = .lt) : find k ps = some a ↔ (k, a) ∈ ps := by
  induction ps with
  | nil => simp [find]
  | cons p ps ih =>
    obtain ⟨hp, hps⟩ := List.pairwise_cons.1 h
    by_cases hk : compare k p.1 = .eq
    · obtain ⟨k', b⟩ := p
      obtain rfl : k = k' := Std.LawfulEqOrd.eq_of_compare hk
      simp only [find, hk, if_true, Option.some.injEq, List.mem_cons]
      constructor
      · rintro rfl
        exact .inl rfl
      · rintro (heq | hmem)
        · exact (congrArg Prod.snd heq).symm
        · exact absurd rfl (ne_of_lt (hp (k, a) hmem))
    · simp only [find, hk, if_false, ih hps, List.mem_cons]
      constructor
      · exact .inr
      · rintro (rfl | hmem)
        · exact absurd Std.ReflCmp.compare_self hk
        · exact hmem

theorem mem_entries {m : OrderedMap κ α} {k : κ} {a : α} :
    (k, a) ∈ m.entries ↔ m.get? k = some a :=
  (find_eq_some m.sorted).symm

theorem nodup_entries (m : OrderedMap κ α) : m.entries.Nodup :=
  m.sorted.imp fun hlt heq => ne_of_lt hlt (congrArg Prod.fst heq)

theorem mem_values {m : OrderedMap κ α} {a : α} : a ∈ m.values ↔ ∃ k, m.get? k = some a := by
  constructor
  · intro h
    obtain ⟨⟨k, b⟩, hp, rfl⟩ := List.mem_map.1 h
    exact ⟨k, mem_entries.1 hp⟩
  · rintro ⟨k, h⟩
    exact List.mem_map.2 ⟨(k, a), mem_entries.2 h, rfl⟩

theorem mem_keys {m : OrderedMap κ α} {k : κ} : k ∈ m.keys ↔ m.contains k = true := by
  rw [contains_eq_isSome, Option.isSome_iff_exists]
  constructor
  · intro h
    obtain ⟨⟨k', a⟩, hp, rfl⟩ := List.mem_map.1 h
    exact ⟨a, mem_entries.1 hp⟩
  · rintro ⟨a, h⟩
    exact List.mem_map.2 ⟨(k, a), mem_entries.2 h, rfl⟩

/-- A map whose keys are the numbers below a bound has that size. -/
theorem size_eq_of_contains {m : OrderedMap Nat α} {n : Nat}
    (h : ∀ k, m.contains k = true ↔ k < n) : m.size = n := by
  have hnodup : m.keys.Nodup := m.pairwise_keys.imp ne_of_lt
  have hperm : m.keys.Perm (List.range n) :=
    (List.perm_ext_iff_of_nodup hnodup List.nodup_range).2 fun k => by
      rw [mem_keys, h, List.mem_range]
  have hlength := hperm.length_eq
  rwa [keys, List.length_map, List.length_range] at hlength

/-! ### Operations -/

theorem get?_erase (m : OrderedMap κ α) (k k' : κ) :
    (m.erase k).get? k' = if compare k' k = .eq then none else m.get? k' := by
  ext a
  rw [← mem_entries]
  by_cases h : k' = k
  · subst h
    simp [erase]
  · simp [erase, h, mem_entries, Ne.symm h]

theorem get?_erase_eq_some {m : OrderedMap κ α} {k k' : κ} {a : α} :
    (m.erase k).get? k' = some a ↔ k' ≠ k ∧ m.get? k' = some a := by
  rw [get?_erase]
  by_cases h : k' = k <;> simp [h]

theorem get?_mapVal (f : κ → α → β) (m : OrderedMap κ α) (k : κ) :
    (m.mapVal f).get? k = (m.get? k).map (f k) := by
  ext b
  rw [← mem_entries]
  constructor
  · intro h
    obtain ⟨⟨k', a⟩, hp, he⟩ := List.mem_map.1 h
    obtain ⟨rfl, rfl⟩ := Prod.mk.inj he
    rw [mem_entries.1 hp]
    rfl
  · intro h
    obtain ⟨a, ha, rfl⟩ := Option.map_eq_some_iff.1 h
    exact List.mem_map.2 ⟨(k, a), mem_entries.2 ha, rfl⟩

theorem get?_modify (m : OrderedMap κ α) (k k' : κ) (f : α → α) :
    (m.modify k f).get? k' = if compare k' k = .eq then (m.get? k').map f else m.get? k' := by
  rw [modify, get?_mapVal]
  by_cases h : k' = k
  · subst h
    simp
  · simp [h, Ne.symm h]

variable [Std.TransOrd κ]

/-- A map is determined by its look-ups. -/
theorem ext_get? {m m' : OrderedMap κ α} (h : ∀ k, m.get? k = m'.get? k) : m = m' := by
  have hmem : ∀ p, p ∈ m.entries ↔ p ∈ m'.entries := fun ⟨k, a⟩ => by
    rw [mem_entries, mem_entries, h]
  refine ext_entries (List.Perm.eq_of_pairwise ?_ m.sorted m'.sorted ?_)
  · intro p q _ _ hpq hqp
    simp [Std.OrientedCmp.gt_of_lt hpq] at hqp
  · exact (List.perm_ext_iff_of_nodup (nodup_entries m) (nodup_entries m')).2 hmem

theorem contains_insert (m : OrderedMap κ α) (k k' : κ) (a : α) :
    (m.insert k a).contains k' = true ↔ k' = k ∨ m.contains k' = true := by
  rw [contains_eq_isSome, contains_eq_isSome, get?_insert]
  by_cases h : k' = k <;> simp [h]

theorem insert_insert (m : OrderedMap κ α) (k : κ) (a b : α) :
    (m.insert k a).insert k b = m.insert k b := by
  refine ext_get? fun k' => ?_
  simp only [get?_insert]
  split <;> rfl

theorem insert_of_get? {m : OrderedMap κ α} {k : κ} {a : α} (h : m.get? k = some a) :
    m.insert k a = m := by
  refine ext_get? fun k' => ?_
  rw [get?_insert]
  split
  · rename_i hk
    rw [Std.LawfulEqOrd.eq_of_compare hk, h]
  · rfl

/-- What is gone was not there. -/
theorem erase_of_get?_eq_none {m : OrderedMap κ α} {k : κ} (h : m.get? k = none) :
    m.erase k = m := by
  refine ext_get? fun k' => ?_
  rw [get?_erase]
  split
  · rename_i hk
    rw [Std.LawfulEqOrd.eq_of_compare hk, h]
  · rfl

/-- A new value takes the place of the old one, whatever comes before and after it. -/
theorem perm_values_insert (m : OrderedMap κ α) (k : κ) (a : α) :
    (m.insert k a).values.Perm (a :: (m.erase k).values) := by
  have hentries : (m.insert k a).entries.Perm ((k, a) :: (m.erase k).entries) := by
    have hnew : (k, a) ∉ (m.erase k).entries := by
      rw [mem_entries, get?_erase]
      simp
    refine (List.perm_ext_iff_of_nodup (nodup_entries _)
      (List.nodup_cons.2 ⟨hnew, nodup_entries _⟩)).2 fun p => ?_
    obtain ⟨k', a'⟩ := p
    rw [List.mem_cons, mem_entries, mem_entries, get?_insert, get?_erase]
    by_cases h : k' = k
    · simp [h, eq_comm]
    · simp [h]
  exact hentries.map Prod.snd

omit [Std.LawfulEqOrd κ] [Std.TransOrd κ] in
/-- A change of one value that a selection of values does not see. -/
theorem map_filter_values_modify (m : OrderedMap κ α) (k : κ) {f : α → α} {p : α → Bool}
    {g : α → β} (hp : ∀ a, p (f a) = p a) (hg : ∀ a, g (f a) = g a) :
    ((m.modify k f).values.filter p).map g = (m.values.filter p).map g := by
  simp only [modify, mapVal, values, List.map_map]
  induction m.entries with
  | nil => rfl
  | cons e es ih =>
    have hpe : p (if compare k e.1 = .eq then f e.2 else e.2) = p e.2 := by
      split
      · exact hp e.2
      · rfl
    have hge : g (if compare k e.1 = .eq then f e.2 else e.2) = g e.2 := by
      split
      · exact hg e.2
      · rfl
    simp only [List.map_cons, Function.comp_apply, List.filter_cons, hpe]
    split
    · simp only [List.map_cons, hge]
      exact congrArg _ ih
    · exact ih

/-! ### What comes after a key -/

/-- After an entry of a sorted list come exactly the entries behind it. -/
theorem filter_isAfter_append {ps qs : List (κ × α)} {p : κ × α}
    (h : (ps ++ p :: qs).Pairwise fun p q => compare p.1 q.1 = .lt) :
    (ps ++ p :: qs).filter (fun q => isAfter (some p.1) q.1) = qs := by
  obtain ⟨-, hqs, hps⟩ := List.pairwise_append.1 h
  have before : ∀ q ∈ ps, ¬ compare p.1 q.1 = .lt := fun q hq hlt => by
    have := hps q hq p List.mem_cons_self
    simp [Std.OrientedCmp.gt_of_lt this] at hlt
  have behind : ∀ q ∈ qs, compare p.1 q.1 = .lt := (List.pairwise_cons.1 hqs).1
  rw [List.filter_append, List.filter_cons]
  simp only [isAfter, beq_iff_eq, Std.ReflCmp.compare_self, reduceCtorEq, if_false]
  rw [List.filter_eq_nil_iff.2 (by simpa using before), List.nil_append]
  exact List.filter_eq_self.2 (by simpa using behind)

/-- What comes after a key is cut at any of its entries by the key of that entry. -/
theorem after_of_append {m : OrderedMap κ α} {cursor? : Option κ} {ps qs : List (κ × α)}
    {p : κ × α} (h : m.after cursor? = ps ++ p :: qs) : m.after (some p.1) = qs := by
  have hsorted := pairwise_filter (fun q => isAfter cursor? q.1) m.sorted
  rw [after_eq_filter] at h
  rw [h] at hsorted
  rw [after_eq_filter, ← filter_isAfter_append hsorted, ← h, List.filter_filter]
  refine List.filter_congr fun q _ => ?_
  -- what comes after an entry after the cursor comes after the cursor
  have hp : isAfter cursor? p.1 = true := by
    have : p ∈ m.entries.filter fun q => isAfter cursor? q.1 := by simp [h]
    exact (List.mem_filter.1 this).2
  cases cursor? with
  | none => simp [isAfter]
  | some c =>
    simp only [isAfter, beq_iff_eq] at hp
    by_cases hq : compare p.1 q.1 = .lt
    · have := Std.TransCmp.lt_trans hp hq
      simp [isAfter, hq, this]
    · simp [isAfter, hq]

end BlobVault.OrderedMap
