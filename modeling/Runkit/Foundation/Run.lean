/-
  Foundation/Run.lean --- invariants of whole runs.

  A run is a chain of steps, `Relation.ReflTransGen`.  Invariants are proved about
  one step, and `run_preserves` carries them over to a run.

  Where a state holds any number of components, a step changes one of them;
  `update_eq_some` tells the one that changed from the others.  Where it holds a history,
  a step appends to it; `getElem?_concat_eq_some` tells the new entry from the others.
-/
import Mathlib.Logic.Function.Basic
import Mathlib.Logic.Relation

set_option autoImplicit false

namespace Runkit.Foundation

variable {σ : Type} {Step : σ → σ → Prop}

/-- What one step preserves, a run preserves. -/
theorem run_preserves {inv : σ → Prop} (hstep : ∀ s s', inv s → Step s s' → inv s')
    {s s' : σ} (hrun : Relation.ReflTransGen Step s s') (hs : inv s) : inv s' := by
  induction hrun with
  | refl => exact hs
  | tail _ hlast ih => exact hstep _ _ ih hlast

/-- A component of an updated state is the updated one or was there before. -/
theorem update_eq_some {ι β : Type} [DecidableEq ι] {f : ι → Option β} {i j : ι} {v : Option β}
    {b : β} (h : Function.update f i v j = some b) :
    (j = i ∧ v = some b) ∨ (j ≠ i ∧ f j = some b) := by
  by_cases heq : j = i
  · subst heq
    exact Or.inl ⟨rfl, by simpa using h⟩
  · exact Or.inr ⟨heq, by rwa [Function.update_of_ne heq] at h⟩

/-- An entry of a history that has grown by one is the new one or was there before. -/
theorem getElem?_concat_eq_some {α : Type} {history : List α} {last a : α} {k : Nat}
    (h : (history ++ [last])[k]? = some a) :
    (k < history.length ∧ history[k]? = some a) ∨ (k = history.length ∧ a = last) := by
  rcases Nat.lt_trichotomy k history.length with hlt | heq | hgt
  · rw [List.getElem?_append_left hlt] at h
    exact Or.inl ⟨hlt, h⟩
  · subst heq
    rw [List.getElem?_concat_length] at h
    exact Or.inr ⟨rfl, (Option.some.inj h).symm⟩
  · have hlength : (history ++ [last]).length ≤ k := by
      rw [List.length_append]
      exact hgt
    rw [List.getElem?_eq_none hlength] at h
    cases h

end Runkit.Foundation
