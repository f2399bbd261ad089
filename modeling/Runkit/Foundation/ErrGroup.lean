/-
  Foundation/ErrGroup.lean --- functions that are run together, and stopped together.

  A group runs any number of functions with a context of its own.  The context is
  done when that of the caller is, or as soon as one of the functions has returned an
  error.  Waiting for the group returns the first error once all functions have
  returned.

  It stands for the `Group` of the package golang.org/x/sync/errgroup, as it is made by
  `WithContext`, and relies on what is documented of it: the derived context is canceled
  the first time that a function passed to `Go` returns a non-nil error; `Wait` blocks
  until all function calls have returned, and then returns the first non-nil error, if
  any.  The context is also canceled once `Wait` returns.  No function runs then, so this
  is not part of the state.
-/
import Mathlib.Logic.Function.Basic

set_option autoImplicit false

namespace Runkit.Foundation

/-- `errgroup.Group`: a group of functions, one for each `M`. -/
structure ErrGroup (M ε : Type) where
  /-- The context of the caller is done. -/
  canceled : Bool
  /-- What each of the functions has returned, once it has. -/
  returned : M → Option (Option ε)
  /-- The first error. -/
  err : Option ε

namespace ErrGroup

variable {M ε : Type}

/-- All functions are running. -/
def start (canceled : Bool) : ErrGroup M ε where
  canceled := canceled
  returned := fun _ => none
  err := none

/-- Whether the context that `WithContext` has returned is done. -/
def done (g : ErrGroup M ε) : Bool := g.canceled || g.err.isSome

/-- The context of the caller becomes done. -/
def cancel (g : ErrGroup M ε) : ErrGroup M ε := { g with canceled := true }

/-- A function returns. -/
def ret [DecidableEq M] (g : ErrGroup M ε) (m : M) (r : Option ε) : ErrGroup M ε :=
  { g with
    returned := Function.update g.returned m (some r)
    err := g.err.or r }

/-- All functions have returned, and so does `Wait`, with the first error. -/
def Finished (g : ErrGroup M ε) : Prop := ∀ m, g.returned m ≠ none

@[simp] theorem start_done (canceled : Bool) :
    (start canceled : ErrGroup M ε).done = canceled := by
  simp [done, start]

@[simp] theorem cancel_done (g : ErrGroup M ε) : g.cancel.done = true := by
  simp [done, cancel]

theorem done_iff {g : ErrGroup M ε} :
    g.done = true ↔ g.canceled = true ∨ ∃ e, g.err = some e := by
  simp [done, Option.isSome_iff_exists]

section Ret

variable [DecidableEq M] {g : ErrGroup M ε} {m m' : M} {r : Option ε}

@[simp] theorem ret_canceled : (g.ret m r).canceled = g.canceled := rfl

@[simp] theorem ret_returned_self : (g.ret m r).returned m = some r :=
  Function.update_self ..

theorem ret_returned_of_ne (h : m' ≠ m) : (g.ret m r).returned m' = g.returned m' :=
  Function.update_of_ne h ..

/-- The first error stays the first. -/
theorem ret_err_of_some {e : ε} (h : g.err = some e) : (g.ret m r).err = some e := by
  simp [ret, h]

theorem ret_err_of_none (h : g.err = none) : (g.ret m r).err = r := by
  simp [ret, h]

theorem ret_done_of_some (e : ε) : (g.ret m (some e)).done = true := by
  rw [done_iff]
  cases herr : g.err with
  | none => exact Or.inr ⟨e, ret_err_of_none herr⟩
  | some e' => exact Or.inr ⟨e', ret_err_of_some herr⟩

theorem ret_done_of_none : (g.ret m none).done = g.done := by
  simp [done, ret]

theorem ret_done (h : g.done = true) : (g.ret m r).done = true := by
  rw [done_iff] at h ⊢
  rcases h with hcanceled | ⟨e, herr⟩
  · exact Or.inl hcanceled
  · exact Or.inr ⟨e, ret_err_of_some herr⟩

end Ret

/-- The error is one that a function has returned, and there is none only if no function
has returned one. -/
structure Sound (g : ErrGroup M ε) : Prop where
  of_some : ∀ e, g.err = some e → ∃ m, g.returned m = some (some e)
  of_none : g.err = none → ∀ m r, g.returned m = some r → r = none

theorem Sound.start (canceled : Bool) : (start canceled : ErrGroup M ε).Sound where
  of_some := by intro e h; cases h
  of_none := by intro _ m r h; cases h

theorem Sound.cancel {g : ErrGroup M ε} (h : g.Sound) : g.cancel.Sound :=
  ⟨h.of_some, h.of_none⟩

theorem Sound.ret [DecidableEq M] {g : ErrGroup M ε} (h : g.Sound) {m : M}
    (hrunning : g.returned m = none) (r : Option ε) : (g.ret m r).Sound where
  of_some := by
    intro e herr
    cases hfirst : g.err with
    | none =>
        rw [ret_err_of_none hfirst] at herr
        exact ⟨m, by rw [ret_returned_self, herr]⟩
    | some e' =>
        rw [ret_err_of_some hfirst] at herr
        obtain ⟨m', hm'⟩ := h.of_some e' hfirst
        have hne : m' ≠ m := by
          rintro rfl
          rw [hrunning] at hm'
          cases hm'
        exact ⟨m', by rw [ret_returned_of_ne hne, hm', ← herr]⟩
  of_none := by
    intro herr m' r' hr'
    have hfirst : g.err = none := by
      by_contra hsome
      obtain ⟨e, he⟩ := Option.ne_none_iff_exists'.mp hsome
      rw [ret_err_of_some he] at herr
      cases herr
    rw [ret_err_of_none hfirst] at herr
    by_cases heq : m' = m
    · subst heq
      rw [ret_returned_self] at hr'
      rw [← Option.some.inj hr', herr]
    · rw [ret_returned_of_ne heq] at hr'
      exact h.of_none hfirst m' r' hr'

end ErrGroup

end Runkit.Foundation
