import BlobVault.Proofs.OrderedMap
import BlobVault.Proofs.Storage.Objects
import Mathlib.Logic.Basic

/-!
# Descriptors among the objects

The descriptor of a backend is an object under a reference of its own.  What is stored under other
references does not touch it, nor does a first descriptor touch that of another backend, even where
two backends share a folder.

* `Storage.object?_of_not_apart` : backends in one folder have the same objects;
* `Storage.object?_store_of_other` : a store changes no other object, on any backend;
* `Storage.keeps_fetch`, `Storage.keeps_store` : fetching and storing keep every descriptor;
* `Storage.Numbered` : a backend that is added is a new one.
-/

namespace BlobVault

namespace Storage

variable {st st' : Storage} {b b' : BackendId} {r r' : Ref}

/-! ### Backends in one place -/

/-- Two backends in one folder have the same objects. -/
theorem object?_of_not_apart (h : ¬ st.Apart b b') (r : Ref) :
    st.object? b' r = st.object? b r := by
  simp only [Apart, ne_eq, not_forall, not_not] at h
  obtain ⟨root, hb, hb'⟩ := h
  unfold object?
  cases hbackend : st.backend b with
  | folder root₁ cost =>
    cases hbackend' : st.backend b' with
    | folder root₂ cost' =>
      rw [hbackend] at hb
      rw [hbackend'] at hb'
      obtain rfl : root₁ = root := Option.some.inj hb
      obtain rfl : root₂ = root₁ := Option.some.inj hb'
      rfl
    | memory shelf => rw [hbackend'] at hb'; cases hb'
    | rigged shelf rig => rw [hbackend'] at hb'; cases hb'
  | memory shelf => rw [hbackend] at hb; cases hb
  | rigged shelf rig => rw [hbackend] at hb; cases hb

/-- A store changes no object under another reference or in another place. -/
theorem object?_store_of_other (content : Stream) (h : r' = r → b' ≠ b ∧ st.Apart b b') :
    (st.store b r content).2.object? b' r' = st.object? b' r' := by
  have hstore := object?_store st b r content
  have hsame : ∀ b', (b' = b ∧ r' ≠ r) ∨ (st.Apart b b' ∧ ¬ (b' = b ∧ r' = r)) →
      (st.store b r content).2.object? b' r' = st.object? b' r' := by
    intro b' hb'
    have hplace : b' = b ∨ st.Apart b b' := hb'.imp And.left And.left
    have hother : ¬ (b' = b ∧ r' = r) := hb'.elim (fun h hne => h.2 hne.2) And.right
    cases ha : (st.store b r content).1 with
    | error fault =>
      rw [ha] at hstore
      exact hstore b' r'
    | ok u =>
      rw [ha] at hstore
      obtain ⟨bs, -, hstored⟩ := hstore
      rw [hstored b' r' hplace, if_neg hother]
  by_cases hr : r' = r
  · exact hsame b' (.inr ⟨(h hr).2, fun heq => (h hr).1 heq.1⟩)
  · by_cases hap : st.Apart b b'
    · exact hsame b' (.inr ⟨hap, fun heq => hr heq.2⟩)
    · -- it shares the objects of the backend, before and after
      have hap' : ¬ (st.store b r content).2.Apart b b' := fun h => hap fun root hroot => by
        rw [← (sameLayout_store st b r content).place] at hroot ⊢
        exact h root hroot
      rw [object?_of_not_apart hap', object?_of_not_apart hap, hsame b (.inl ⟨rfl, hr⟩)]

/-- A store leaves alone whatever has an object under the reference, if its own backend has none. -/
theorem object?_store_of_empty (hnone : st.object? b r = none) (content : Stream) {bs : Bytes}
    (hsome : st.object? b' r = some bs) : (st.store b r content).2.object? b' r = some bs := by
  rw [← hsome]
  refine object?_store_of_other content fun _ => ⟨?_, ?_⟩
  · rintro rfl
    rw [hnone] at hsome
    cases hsome
  · refine Classical.byContradiction fun hap => ?_
    rw [object?_of_not_apart hap, hnone] at hsome
    cases hsome

/-! ### Descriptors -/

/-- The same backends are there, and their descriptors are what they were. -/
structure Keeps (st st' : Storage) : Prop where
  contains : ∀ b, st'.backends.contains b = st.backends.contains b
  layout : SameLayout st st'
  descriptors : ∀ b bs, st.object? b .descriptor = some bs → st'.object? b .descriptor = some bs

theorem contains_setBackend (hb : st.backends.contains b = true) (backend : Backend)
    (b' : BackendId) :
    (st.setBackend b backend).backends.contains b' = st.backends.contains b' := by
  rw [setBackend, Bool.eq_iff_iff, OrderedMap.contains_insert]
  refine or_iff_right_of_imp ?_
  rintro rfl
  exact hb

theorem keeps_fetch (hb : st.backends.contains b = true) (r : Ref) :
    Keeps st (st.fetch b r).2 where
  contains b' := by
    rw [fetch_snd, trueAnswer]
    cases st.backend b with
    | folder root cost => rfl
    | memory shelf => exact contains_setBackend hb _ b'
    | rigged shelf rig => exact contains_setBackend hb _ b'
  layout := sameLayout_fetch st b r
  descriptors b' bs h := by rw [object?_fetch, h]

/-- A store keeps the descriptors if it is about something else, or there was none. -/
theorem keeps_store (hb : st.backends.contains b = true)
    (hr : r ≠ .descriptor ∨ st.object? b .descriptor = none) (content : Stream) :
    Keeps st (st.store b r content).2 where
  contains b' := by
    rw [store]
    cases st.backend b with
    | folder root cost => rfl
    | memory shelf => exact contains_setBackend hb _ b'
    | rigged shelf rig =>
      cases hf : rig.storeFault? with
      | some fault => simp only [hf]
      | none =>
        simp only [hf]
        exact contains_setBackend hb _ b'
  layout := sameLayout_store st b r content
  descriptors b' bs h := by
    by_cases hdescriptor : r = .descriptor
    · subst hdescriptor
      exact object?_store_of_empty (hr.resolve_left (by simp)) content h
    · rw [object?_store_of_other content fun heq => absurd heq.symm hdescriptor, h]

/-! ### More backends -/

/-- Backends are numbered from zero. -/
def Numbered (st : Storage) : Prop :=
  ∀ b, st.backends.contains b = true ↔ b < st.backends.size

theorem Numbered.of_keeps (h : st.Numbered) (hk : Keeps st st') : st'.Numbered := by
  have hbelow : ∀ b, st'.backends.contains b = true ↔ b < st.backends.size := fun b => by
    rw [hk.contains, h]
  intro b
  rw [hbelow, OrderedMap.size_eq_of_contains hbelow]

/-- A backend that is added is a new one. -/
theorem Numbered.not_contains (h : st.Numbered) :
    st.backends.contains st.backends.size = false := by
  rw [← Bool.not_eq_true, h]
  exact Nat.lt_irrefl _

theorem contains_addBackend (st : Storage) (backend : Backend) (b : BackendId) :
    (st.addBackend backend).2.backends.contains b = true ↔
      b = st.backends.size ∨ st.backends.contains b = true := by
  rw [addBackend, setBackend, OrderedMap.contains_insert]

theorem Numbered.contains_addBackend_iff (h : st.Numbered) (backend : Backend) (b : BackendId) :
    (st.addBackend backend).2.backends.contains b = true ↔ b < st.backends.size + 1 := by
  rw [contains_addBackend, h, or_comm]
  exact Nat.lt_succ_iff_lt_or_eq.symm

theorem Numbered.size_addBackend (h : st.Numbered) (backend : Backend) :
    (st.addBackend backend).2.backends.size = st.backends.size + 1 :=
  OrderedMap.size_eq_of_contains (h.contains_addBackend_iff backend)

theorem Numbered.addBackend (h : st.Numbered) (backend : Backend) :
    (st.addBackend backend).2.Numbered := by
  intro b
  rw [h.contains_addBackend_iff, h.size_addBackend]

/-- A backend that is added leaves the others as they were. -/
theorem Numbered.backend_addBackend (h : st.Numbered) (backend : Backend)
    (hb : st.backends.contains b = true) :
    (st.addBackend backend).2.backend b = st.backend b := by
  rw [Storage.addBackend, backend_setBackend, if_neg]
  rintro rfl
  rw [h.not_contains] at hb
  cases hb

/-- What was never set up holds nothing. -/
theorem contains_of_object? {bs : Bytes} (h : st.object? b r = some bs) :
    st.backends.contains b = true := by
  refine Classical.byContradiction fun hb => ?_
  rw [Bool.not_eq_true, OrderedMap.contains_eq_false] at hb
  rw [object?, backend, hb] at h
  cases h

theorem Numbered.object?_addBackend (h : st.Numbered) (backend : Backend) {bs : Bytes}
    (hobject : st.object? b r = some bs) : (st.addBackend backend).2.object? b r = some bs := by
  rw [← hobject, object?, h.backend_addBackend backend (contains_of_object? hobject)]
  rfl

end Storage

end BlobVault
