import BlobVault.Proofs.Storage.Descriptors
import BlobVault.Vault.Transfer

/-!
# What copies can change

A copy asks its source and stores on its target.  Whatever copies are made, backends that none of
them reads from or writes to stay as they are, and on the others an object changes only if one of
the copies is about it.

* `Storage.Touched` : what copies can change;
* `Storage.touched_answer`, `Storage.touched_advance`, `Storage.touched_store` : what the parts of a
  copy change.
-/

namespace BlobVault

namespace Storage

variable {st st' st'' : Storage} {b b' : BackendId} {r r' : Ref}

/-! ### Other backends -/

theorem backend_store_of_ne (content : Stream) (h : b' ≠ b) :
    (st.store b r content).2.backend b' = st.backend b' := by
  unfold store
  cases hb : st.backend b with
  | folder root cost => rfl
  | memory shelf => exact (backend_setBackend ..).trans (if_neg h)
  | rigged shelf rig =>
    cases hf : rig.storeFault? with
    | some fault => simp [hf]
    | none => simp only [hf]; exact (backend_setBackend ..).trans (if_neg h)

theorem backend_trueAnswer_of_ne (h : b' ≠ b) :
    (st.trueAnswer b r).2.backend b' = st.backend b' := by
  unfold trueAnswer
  cases hb : st.backend b with
  | folder root cost => rfl
  | memory shelf => exact (backend_setBackend ..).trans (if_neg h)
  | rigged shelf rig => exact (backend_setBackend ..).trans (if_neg h)

theorem backend_approach (st : Storage) (b : BackendId) (r : Ref) (now : Nat) :
    (st.approach b r now).backend = b := by
  unfold approach
  split
  · split <;> rfl
  · rfl

/-- A fetch that goes on changes the gate of its backend at most. -/
theorem advance?_eq_some {now : Nat} {a a' : Approach} (h : st.advance? now a = some (a', st')) :
    a'.backend = a.backend ∧ (st' = st ∨ ∃ gate, st' = st.setGate a.backend gate) := by
  unfold advance? at h
  split at h
  · split at h
    · cases h
    · split at h
      · split at h <;>
          (obtain ⟨rfl, rfl⟩ := Prod.mk.inj (Option.some.inj h); exact ⟨rfl, .inr ⟨_, rfl⟩⟩)
      · obtain ⟨rfl, rfl⟩ := Prod.mk.inj (Option.some.inj h)
        exact ⟨rfl, .inl rfl⟩
  · split at h
    · split at h
      · cases h
      · obtain ⟨rfl, rfl⟩ := Prod.mk.inj (Option.some.inj h)
        exact ⟨rfl, .inl rfl⟩
    · obtain ⟨rfl, rfl⟩ := Prod.mk.inj (Option.some.inj h)
      exact ⟨rfl, .inl rfl⟩
  · cases h

theorem object?_setGate (st : Storage) (b : BackendId) (gate : Gate) (b' : BackendId) (r : Ref) :
    (st.setGate b gate).object? b' r = st.object? b' r := by
  by_cases hb : b' = b
  · subst hb
    unfold setGate object?
    rw [backend_setBackend, if_pos rfl]
    cases st.backend b' <;> rfl
  · exact object?_setBackend_of_ne hb r

theorem sameLayout_setGate (st : Storage) (b : BackendId) (gate : Gate) :
    SameLayout st (st.setGate b gate) := by
  apply sameLayout_setBackend <;> cases st.backend b <;> rfl

/-! ### Copies -/

/-- What copies can change. -/
structure Touched (making : Copy → Prop) (st st' : Storage) : Prop where
  layout : SameLayout st st'
  /-- A backend that no copy reads from or writes to stays as it is. -/
  backend : ∀ b, (∀ c, making c → b ≠ c.source ∧ b ≠ c.target) → st'.backend b = st.backend b
  /-- An object that no copy is about stays as it is. -/
  object : ∀ b r, (∀ c, making c → r = c.ref → b ≠ c.target ∧ st.Apart c.target b) →
    st'.object? b r = st.object? b r

namespace Touched

variable {making : Copy → Prop}

theorem refl (st : Storage) : Touched making st st := ⟨.refl st, fun _ _ => rfl, fun _ _ _ => rfl⟩

theorem trans (h : Touched making st st') (h' : Touched making st' st'') :
    Touched making st st'' where
  layout := h.layout.trans h'.layout
  backend b hb := (h'.backend b hb).trans (h.backend b hb)
  object b r hr := by
    refine (h'.object b r fun c hc href => ?_).trans (h.object b r hr)
    exact ⟨(hr c hc href).1, h.layout.apart (hr c hc href).2⟩

/-- What some copies can change, more copies can. -/
theorem mono {making' : Copy → Prop} (h : Touched making st st')
    (hmaking : ∀ c, making c → making' c) : Touched making' st st' where
  layout := h.layout
  backend b hb := h.backend b fun c hc => hb c (hmaking c hc)
  object b r hr := h.object b r fun c hc => hr c (hmaking c hc)

end Touched

variable {making : Copy → Prop} {c : Copy}

theorem touched_answer (hc : making c) {a : Approach} (ha : a.backend = c.source) :
    Touched making st (st.answer a).2 where
  layout := sameLayout_trueAnswer st a.backend a.ref
  backend _ hb := backend_trueAnswer_of_ne (ha ▸ (hb c hc).1)
  object b r _ := object?_trueAnswer st a.backend a.ref b r

theorem touched_advance (hc : making c) {now : Nat} {a a' : Approach} (ha : a.backend = c.source)
    (h : st.advance? now a = some (a', st')) : Touched making st st' := by
  obtain ⟨-, rfl | ⟨gate, rfl⟩⟩ := advance?_eq_some h
  · exact .refl _
  · refine ⟨sameLayout_setGate .., fun b hb => ?_, fun b r _ => object?_setGate ..⟩
    exact (backend_setBackend ..).trans (if_neg (ha ▸ (hb c hc).1))

theorem touched_store (hc : making c) (content : Stream) :
    Touched making st (st.store c.target c.ref content).2 where
  layout := sameLayout_store st c.target c.ref content
  backend _ hb := backend_store_of_ne content (hb c hc).2
  object _ _ hr := object?_store_of_other content fun href => hr c hc href

end Storage

end BlobVault
