/-
  Foundation/LongestPrefix.lean --- the longest prefix of a list that a machine accepts.

  A machine reads a list from a state, one element at a time, and may refuse to go on:
  `step s a` is the state after `a`, if it is accepted in `s`.  `l.foldlM step s` is the
  state after all of `l`, if all of it is accepted.
-/
import Mathlib.Data.List.Basic

set_option autoImplicit false

namespace Runkit.Foundation

variable {σ α : Type}

/-- What the machine reads before it refuses an element for the first time. -/
def longestPrefix (step : σ → α → Option σ) : σ → List α → List α
  | _, [] => []
  | s, a :: rest =>
      match step s a with
      | none => []
      | some s' => a :: longestPrefix step s' rest

/-- The machine accepts all of the list. -/
def Accepts (step : σ → α → Option σ) (s : σ) (l : List α) : Prop :=
  (l.foldlM step s).isSome = true

section

variable {step : σ → α → Option σ} {s s' : σ} {a : α} {l front : List α}

theorem accepts_nil : Accepts step s [] := rfl

theorem accepts_cons_of_some (h : step s a = some s') :
    Accepts step s (a :: l) ↔ Accepts step s' l := by
  simp [Accepts, h]

theorem not_accepts_cons_of_none (h : step s a = none) : ¬ Accepts step s (a :: l) := by
  simp [Accepts, h]

theorem longestPrefix_cons_of_some (h : step s a = some s') :
    longestPrefix step s (a :: l) = a :: longestPrefix step s' l := by
  simp [longestPrefix, h]

theorem longestPrefix_cons_of_none (h : step s a = none) :
    longestPrefix step s (a :: l) = [] := by
  simp [longestPrefix, h]

theorem longestPrefix_isPrefix (s : σ) (l : List α) : longestPrefix step s l <+: l := by
  induction l generalizing s with
  | nil => exact List.prefix_rfl
  | cons a rest ih =>
      cases h : step s a with
      | none =>
          rw [longestPrefix_cons_of_none h]
          exact List.nil_prefix
      | some s' =>
          rw [longestPrefix_cons_of_some h]
          exact (List.prefix_cons_inj a).mpr (ih s')

theorem accepts_longestPrefix (s : σ) (l : List α) : Accepts step s (longestPrefix step s l) := by
  induction l generalizing s with
  | nil => exact accepts_nil
  | cons a rest ih =>
      cases h : step s a with
      | none =>
          rw [longestPrefix_cons_of_none h]
          exact accepts_nil
      | some s' =>
          rw [longestPrefix_cons_of_some h, accepts_cons_of_some h]
          exact ih s'

/-- Every prefix that the machine accepts is part of the longest one. -/
theorem Accepts.isPrefix_longestPrefix (haccepts : Accepts step s front) (hfront : front <+: l) :
    front <+: longestPrefix step s l := by
  induction front generalizing s l with
  | nil => exact List.nil_prefix
  | cons a rest ih =>
      obtain ⟨back, rfl⟩ := hfront
      cases h : step s a with
      | none => exact absurd haccepts (not_accepts_cons_of_none h)
      | some s' =>
          rw [List.cons_append, longestPrefix_cons_of_some h, List.prefix_cons_inj]
          exact ih ((accepts_cons_of_some h).mp haccepts) (List.prefix_append rest back)

theorem Accepts.longestPrefix_eq (h : Accepts step s l) : longestPrefix step s l = l :=
  (longestPrefix_isPrefix s l).eq_of_length_le
    (h.isPrefix_longestPrefix List.prefix_rfl).length_le

end

end Runkit.Foundation
