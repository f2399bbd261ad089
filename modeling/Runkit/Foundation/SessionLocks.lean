/-
  Foundation/SessionLocks.lean --- exclusive locks that sessions hold any number of times.

  A session may take a lock again that it already holds; it then has to release it as often
  as it was taken.  Locks outlive transactions, and end at the latest with their session.
-/
import Mathlib.Logic.Function.Basic

set_option autoImplicit false

namespace Runkit.Foundation

/-- How often each session holds each lock. -/
structure SessionLocks (S L : Type) where
  held : S → L → Nat
  exclusive : ∀ s s' l, 0 < held s l → 0 < held s' l → s = s'

namespace SessionLocks

variable {S L : Type}

/-- No lock is held. -/
def empty : SessionLocks S L where
  held := fun _ _ => 0
  exclusive := fun _ _ _ hs => absurd hs (Nat.lt_irrefl 0)

/-- No other session holds the lock. -/
def FreeFor (x : SessionLocks S L) (s : S) (l : L) : Prop := ∀ s', s' ≠ s → x.held s' l = 0

theorem freeFor_of_held (x : SessionLocks S L) {s : S} {l : L} (h : 0 < x.held s l) :
    x.FreeFor s l := by
  intro s' hne
  by_contra hheld
  exact hne (x.exclusive s' s l (Nat.pos_of_ne_zero hheld) h)

variable [DecidableEq S]

/-- The locks of one session change, to ones that no other session holds. -/
def update (x : SessionLocks S L) (s : S) (held : L → Nat)
    (hfree : ∀ l, 0 < held l → x.FreeFor s l) : SessionLocks S L where
  held := Function.update x.held s held
  exclusive := by
    intro s₁ s₂ l h₁ h₂
    by_cases hs₁ : s₁ = s
    · by_cases hs₂ : s₂ = s
      · rw [hs₁, hs₂]
      · rw [hs₁, Function.update_self] at h₁
        rw [Function.update_of_ne hs₂, hfree l h₁ s₂ hs₂] at h₂
        exact absurd h₂ (Nat.lt_irrefl 0)
    · rw [Function.update_of_ne hs₁] at h₁
      by_cases hs₂ : s₂ = s
      · rw [hs₂, Function.update_self] at h₂
        rw [hfree l h₂ s₁ hs₁] at h₁
        exact absurd h₁ (Nat.lt_irrefl 0)
      · rw [Function.update_of_ne hs₂] at h₂
        exact x.exclusive s₁ s₂ l h₁ h₂

/-- The session ends, and with it all of its locks. -/
def release (x : SessionLocks S L) (s : S) : SessionLocks S L :=
  x.update s (fun _ => 0) (fun _ h => absurd h (Nat.lt_irrefl 0))

variable [DecidableEq L]

/-- The session takes the lock. -/
def lock (x : SessionLocks S L) (s : S) (l : L) (hfree : x.FreeFor s l) : SessionLocks S L :=
  x.update s (Function.update (x.held s) l (x.held s l + 1)) (by
    intro l' hl'
    by_cases heq : l' = l
    · exact heq ▸ hfree
    · rw [Function.update_of_ne heq] at hl'
      exact x.freeFor_of_held hl')

/-- The session gives back one of the times that it holds the lock, if there is one. -/
def unlock (x : SessionLocks S L) (s : S) (l : L) : SessionLocks S L :=
  x.update s (Function.update (x.held s) l (x.held s l - 1)) (by
    intro l' hl'
    by_cases heq : l' = l
    · subst heq
      rw [Function.update_self] at hl'
      exact x.freeFor_of_held (by omega)
    · rw [Function.update_of_ne heq] at hl'
      exact x.freeFor_of_held hl')

section Held

variable {x : SessionLocks S L} {s s' : S} {l : L}

theorem lock_held_self (hfree : x.FreeFor s l) :
    (x.lock s l hfree).held s = Function.update (x.held s) l (x.held s l + 1) :=
  Function.update_self ..

theorem lock_held_of_ne (hfree : x.FreeFor s l) (h : s' ≠ s) :
    (x.lock s l hfree).held s' = x.held s' :=
  Function.update_of_ne h ..

theorem unlock_held_self :
    (x.unlock s l).held s = Function.update (x.held s) l (x.held s l - 1) :=
  Function.update_self ..

theorem unlock_held_of_ne (h : s' ≠ s) : (x.unlock s l).held s' = x.held s' :=
  Function.update_of_ne h ..

omit [DecidableEq L] in
theorem release_held_of_ne (h : s' ≠ s) : (x.release s).held s' = x.held s' :=
  Function.update_of_ne h ..

end Held

end SessionLocks

end Runkit.Foundation
