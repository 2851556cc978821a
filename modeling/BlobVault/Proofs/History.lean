import Mathlib.Logic.Relation

/-!
# Histories

A history is a chain of steps of a relation, `Relation.ReflTransGen`.  Where the steps are those of
a function that plays events, a history is made by playing a list of them.
-/

namespace BlobVault

/-- Events that can be played one after another make up a history. -/
theorem reflTransGen_of_foldlM {σ ε : Type} {r : σ → σ → Prop} {play? : σ → ε → Option σ}
    (hplay : ∀ x e y, play? x e = some y → r x y) {events : List ε} {x y : σ}
    (h : events.foldlM play? x = some y) : Relation.ReflTransGen r x y := by
  induction events generalizing x with
  | nil =>
    obtain rfl := Option.some.inj h
    exact .refl
  | cons event events ih =>
    rw [List.foldlM_cons] at h
    obtain ⟨z, hz, hrest⟩ := Option.bind_eq_some_iff.1 h
    exact .head (hplay x event z hz) (ih hrest)

end BlobVault
