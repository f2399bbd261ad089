/-
  Foundation/Count.lean --- how many there are of something.

  A counter that is kept by hand is described by the finite set of what it counts,
  which may be drawn from any type.
-/
import Mathlib.Data.Finset.Card

set_option autoImplicit false

namespace Runkit.Foundation

variable {α : Type} {n : Nat} {P Q : α → Prop} {i : α}

/-- There are exactly `n` of those that satisfy `P`. -/
def Numbers (n : Nat) (P : α → Prop) : Prop :=
  ∃ members : Finset α, members.card = n ∧ ∀ i, i ∈ members ↔ P i

theorem Numbers.zero (hnone : ∀ i, ¬ P i) : Numbers 0 P :=
  ⟨∅, Finset.card_empty, fun i => ⟨fun hi => absurd hi (Finset.notMem_empty i),
    fun hi => absurd hi (hnone i)⟩⟩

theorem Numbers.none (h : Numbers 0 P) (i : α) : ¬ P i := by
  obtain ⟨members, hcard, hmembers⟩ := h
  rw [Finset.card_eq_zero] at hcard
  rw [← hmembers i, hcard]
  exact Finset.notMem_empty i

theorem Numbers.congr (h : Numbers n P) (hiff : ∀ i, Q i ↔ P i) : Numbers n Q := by
  obtain ⟨members, hcard, hmembers⟩ := h
  exact ⟨members, hcard, fun i => (hmembers i).trans (hiff i).symm⟩

variable [DecidableEq α]

theorem Numbers.insert (h : Numbers n P) (hi : ¬ P i) (hiff : ∀ j, Q j ↔ j = i ∨ P j) :
    Numbers (n + 1) Q := by
  obtain ⟨members, hcard, hmembers⟩ := h
  refine ⟨Insert.insert i members, ?_, ?_⟩
  · rw [Finset.card_insert_of_notMem fun hmem => hi ((hmembers i).mp hmem), hcard]
  · intro j
    rw [Finset.mem_insert, hmembers j, hiff j]

theorem Numbers.erase (h : Numbers n P) (hi : P i) (hiff : ∀ j, Q j ↔ j ≠ i ∧ P j) :
    Numbers (n - 1) Q := by
  obtain ⟨members, hcard, hmembers⟩ := h
  refine ⟨members.erase i, ?_, ?_⟩
  · rw [Finset.card_erase_of_mem ((hmembers i).mpr hi), hcard]
  · intro j
    rw [Finset.mem_erase, hmembers j, hiff j]

end Runkit.Foundation
