import BlobVault.Proofs.Storage.Objects
import Mathlib.Logic.Relation

/-!
# Backends in working order

A backend in working order gives what it holds, says of everything else that it is not there, and
keeps whatever arrives.

* `Storage.Answers` : a backend is in working order now;
* `Storage.Serves` : it is so whatever is asked of the storage;
* `Storage.Answers.fetch` : **a fetch takes no backend out of order**;
* `Storage.serves_memory` : memory always serves.
-/

namespace BlobVault

namespace Storage

/-- The backend is in working order. -/
structure Answers (st : Storage) (b : BackendId) : Prop where
  plain : (st.backend b).isPlain = true
  absent : ∀ r, st.object? b r = none → (st.fetch b r).1 = .error (.notFound (.blob r))
  stores : ∀ r content bs, content.content = .ok bs → (st.store b r content).1 = .ok ()

/-- Something is asked of one of the backends. -/
inductive Asked (st : Storage) : Storage → Prop
  | fetch (b : BackendId) (r : Ref) : Asked st (st.fetch b r).2
  | store (b : BackendId) (r : Ref) (content : Stream) : Asked st (st.store b r content).2

/-- The backend is in working order, whatever is asked of the storage. -/
def Serves (st : Storage) (b : BackendId) : Prop :=
  ∀ st', Relation.ReflTransGen Asked st st' → st'.Answers b

variable {st : Storage} {b : BackendId}

theorem Serves.answers (h : st.Serves b) : st.Answers b := h st .refl

theorem Serves.of_asked {st' : Storage} (h : st.Serves b) (ha : Asked st st') : st'.Serves b :=
  fun st'' hrest => h st'' (.head ha hrest)

theorem Serves.fetch (h : st.Serves b) (b' : BackendId) (r : Ref) :
    (st.fetch b' r).2.Serves b := h.of_asked (.fetch b' r)

theorem Serves.store (h : st.Serves b) (b' : BackendId) (r : Ref) (content : Stream) :
    (st.store b' r content).2.Serves b := h.of_asked (.store b' r content)

theorem fst_trueAnswer_setBackend_of_ne {b' : BackendId} (h : b' ≠ b) (backend : Backend)
    (r : Ref) : ((st.setBackend b backend).trueAnswer b' r).1 = (st.trueAnswer b' r).1 := by
  rw [trueAnswer, trueAnswer, backend_setBackend, if_neg h]
  cases st.backend b' <;> rfl

/-- That something was asked for makes no difference to the answers of a plain backend. -/
theorem fst_fetch_fetch (h : (st.backend b).isPlain = true) (b' : BackendId) (r r' : Ref) :
    ((st.fetch b' r').2.fetch b r).1 = (st.fetch b r).1 := by
  have hplain : ((st.fetch b' r').2.backend b).isPlain = true := by
    rw [(sameLayout_fetch st b' r').plain, h]
  rw [fetch_fst_of_plain hplain, fetch_fst_of_plain h, fetch_snd]
  cases hb' : st.backend b' with
  | folder root cost =>
    have hnext : (st.trueAnswer b' r').2 = st := by rw [trueAnswer, hb']
    rw [hnext]
  | memory shelf =>
    have hnext : (st.trueAnswer b' r').2 = st.setBackend b' (.memory (shelf.fetch r').2) := by
      rw [trueAnswer, hb']
    rw [hnext]
    by_cases hb : b = b'
    · rw [trueAnswer, trueAnswer, hb, backend_setBackend, if_pos rfl, hb']
      rfl
    · exact fst_trueAnswer_setBackend_of_ne hb _ r
  | rigged shelf rig =>
    have hnext : (st.trueAnswer b' r').2 = st.setBackend b' (.rigged (shelf.fetch r').2 rig) := by
      rw [trueAnswer, hb']
    rw [hnext]
    refine fst_trueAnswer_setBackend_of_ne (fun hb => ?_) _ r
    rw [hb, hb'] at h
    cases h

theorem Answers.fetch (h : st.Answers b) (b' : BackendId) (r : Ref) :
    (st.fetch b' r).2.Answers b where
  plain := by rw [(sameLayout_fetch st b' r).plain, h.plain]
  absent r' hnone := by
    rw [object?_fetch] at hnone
    rw [fst_fetch_fetch h.plain, h.absent r' hnone]
  stores r' content bs hbs := by rw [fst_store_fetch, h.stores r' content bs hbs]

/-! ### Memory -/

theorem answers_memory {shelf : Shelf} (h : st.backend b = .memory shelf) : st.Answers b where
  plain := by rw [h]; rfl
  absent r hnone := by
    rw [object?_memory h] at hnone
    rw [fetch_fst_of_plain (by rw [h]; rfl), trueAnswer, h]
    simp only [Shelf.fetch, hnone]
  stores r content bs hbs := by simp only [Storage.store, h, Shelf.store, hbs]

theorem sameLayout_of_asked {st st' : Storage} (h : Relation.ReflTransGen Asked st st') :
    SameLayout st st' := by
  induction h with
  | refl => exact .refl st
  | tail _ ha ih =>
    cases ha with
    | fetch b r => exact ih.trans (sameLayout_fetch _ b r)
    | store b r content => exact ih.trans (sameLayout_store _ b r content)

/-- Memory always serves. -/
theorem serves_memory {shelf : Shelf} (h : st.backend b = .memory shelf) : st.Serves b := by
  intro st' hasked
  have hlayout := sameLayout_of_asked hasked
  have hplain : (st'.backend b).isPlain = true := by rw [hlayout.plain, h]; rfl
  have hplace : (st'.backend b).place? = none := by rw [hlayout.place, h]; rfl
  cases hb : st'.backend b with
  | memory shelf' => exact answers_memory hb
  | folder root cost =>
    rw [hb] at hplace
    cases hplace
  | rigged shelf' rig =>
    rw [hb] at hplain
    cases hplain

end Storage

end BlobVault
