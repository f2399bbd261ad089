/-
  Foundation/Ranking.lean --- choosing one candidate by rank.

  Candidates are ranked by a score, and candidates with equal scores by a strict
  total order.  The candidate that no other outranks is chosen (`Chosen`).  Any
  number of parties that know the same candidates choose the same one, and a
  candidate that joins or leaves changes the choice only to or from itself.
-/
import Mathlib.Data.Finset.Insert
import Mathlib.Data.Prod.Basic
import Mathlib.Order.RelClasses
import Mathlib.Order.RelIso.Basic

set_option autoImplicit false

namespace Runkit.Foundation

variable {α σ : Type}

/-! ## Ranks -/

/-- `a` has a higher score than `b`, or the same score and comes first. -/
def Outranks [LT σ] (score : α → σ) (less : α → α → Prop) (a b : α) : Prop :=
  score b < score a ∨ (score b = score a ∧ less a b)

/-- Ranking is a strict total order, because it is the lexicographic order of the
scores, highest first, and the candidates. -/
instance outranks_isStrictTotalOrder [LinearOrder σ] (score : α → σ) (less : α → α → Prop)
    [IsStrictTotalOrder α less] : IsStrictTotalOrder α (Outranks score less) := by
  have hlex : IsStrictTotalOrder (σ × α) (Prod.Lex (· > ·) less) := { }
  let embedding : Outranks score less ↪r Prod.Lex (· > ·) less :=
    { toFun := fun a => (score a, a)
      inj' := fun a b h => congrArg Prod.snd h
      map_rel_iff' := by
        intro a b
        rw [Outranks, Prod.lex_iff, eq_comm]
        rfl }
  exact embedding.isStrictTotalOrder

/-! ## Choice -/

/-- `a` is the candidate that no other candidate outranks. -/
structure Chosen (outranks : α → α → Prop) (candidates : Finset α) (a : α) : Prop where
  candidate : a ∈ candidates
  highest : ∀ b ∈ candidates, ¬ outranks b a

section

variable {outranks : α → α → Prop} {candidates : Finset α} {a b x : α}

/-- Of two candidates, one outranks the other. -/
theorem outranks_of_ne [IsStrictTotalOrder α outranks] (h : a ≠ b) :
    outranks a b ∨ outranks b a := by
  by_contra hneither
  rw [not_or] at hneither
  exact h (Std.Trichotomous.trichotomous _ _ hneither.1 hneither.2)

theorem Chosen.unique [IsStrictTotalOrder α outranks] (ha : Chosen outranks candidates a)
    (hb : Chosen outranks candidates b) : a = b := by
  by_contra hne
  obtain h | h : outranks a b ∨ outranks b a := outranks_of_ne hne
  · exact hb.highest a ha.candidate h
  · exact ha.highest b hb.candidate h

variable [DecidableEq α]

/-- A candidate that joins is chosen, or does not change the choice. -/
theorem Chosen.joined [IsStrictTotalOrder α outranks] (ha : Chosen outranks candidates a) :
    Chosen outranks (insert x candidates) x ∨ Chosen outranks (insert x candidates) a := by
  by_cases hx : outranks x a
  · refine Or.inl ⟨Finset.mem_insert_self x candidates, ?_⟩
    intro b hb hbx
    obtain rfl | hb := Finset.mem_insert.mp hb
    · exact irrefl b hbx
    · exact ha.highest b hb (IsTrans.trans _ _ _ hbx hx)
  · refine Or.inr ⟨Finset.mem_insert_of_mem ha.candidate, ?_⟩
    intro b hb
    obtain rfl | hb := Finset.mem_insert.mp hb
    · exact hx
    · exact ha.highest b hb

/-- A candidate that leaves without having been chosen does not change the choice. -/
theorem Chosen.left (ha : Chosen outranks (insert x candidates) a)
    (hcandidate : a ∈ candidates) : Chosen outranks candidates a :=
  ⟨hcandidate, fun b hb => ha.highest b (Finset.mem_insert_of_mem hb)⟩

theorem exists_chosen [IsStrictTotalOrder α outranks] (h : candidates.Nonempty) :
    ∃ a, Chosen outranks candidates a := by
  induction h using Finset.Nonempty.cons_induction with
  | singleton a =>
      refine ⟨a, Finset.mem_singleton_self a, ?_⟩
      intro b hb
      rw [Finset.mem_singleton.mp hb]
      exact irrefl a
  | cons x candidates hx _ ih =>
      rw [Finset.cons_eq_insert]
      obtain ⟨a, ha⟩ := ih
      obtain h | h := ha.joined
      · exact ⟨x, h⟩
      · exact ⟨a, h⟩

end

end Runkit.Foundation
