/-
  Foundation/Attempts.lean --- what repeated attempts leave behind.

  An entry is added, attempted any number of times, and removed in the end.  What an
  attempt leaves is what the next one finds (`Tracks`), however much else happens in
  between.
-/
import Mathlib.Algebra.Order.Ring.Int
import Mathlib.Data.List.Chain

set_option autoImplicit false

namespace Runkit.Foundation

/-- Entries with the contents `S`, and attempts `A` at them. -/
structure Policy (S A : Type) where
  /-- The contents of an entry that has just been added. -/
  fresh : S → Prop
  /-- What the attempt finds. -/
  found : A → S
  /-- What the attempt may leave, unless it removes the entry. -/
  leaves : A → S → Prop

variable {S A : Type}

namespace Policy

/-- What one step can do to an entry, given the attempt that it is, if any. -/
inductive Change (q : Policy S A) : Option S → Option A → Option S → Prop where
  | kept {entry : Option S} : Change q entry none entry
  | added {s : S} (hfresh : q.fresh s) : Change q none none (some s)
  | removed {s : S} : Change q (some s) none none
  | attempted {a : A} {s : S} (hleaves : q.leaves a s) :
      Change q (some (q.found a)) (some a) (some s)
  | completed {a : A} : Change q (some (q.found a)) (some a) none

/-- The attempts since the entry has been added, after one more step. -/
def since (attempts : List A) (before : Option S) (attempt : Option A) (after : Option S) :
    List A :=
  if before.isNone && after.isSome then [] else attempts ++ attempt.toList

/-- Each attempt found what the one before it had left, the first one found a fresh entry,
and the entry is now as the last one left it. -/
structure Tracks (q : Policy S A) (attempts : List A) (entry : Option S) : Prop where
  chain : attempts.IsChain fun a b => q.leaves a (q.found b)
  first : ∀ a ∈ attempts.head?, q.fresh (q.found a)
  untouched : ∀ s, entry = some s → attempts = [] → q.fresh s
  last : ∀ s, entry = some s → ∀ a ∈ attempts.getLast?, q.leaves a s

variable {q : Policy S A} {attempts : List A} {before after : Option S} {attempt : Option A}

theorem Tracks.absent : q.Tracks [] none :=
  ⟨.nil, by simp, by simp, by simp⟩

/-- One more attempt, which finds the entry as it is. -/
theorem Tracks.concat {a : A} {entry : Option S} (h : q.Tracks attempts (some (q.found a)))
    (hleaves : ∀ s, entry = some s → q.leaves a s) : q.Tracks (attempts ++ [a]) entry where
  chain := by
    apply h.chain.append (.singleton a)
    intro x hx y hy
    cases hy
    exact h.last _ rfl x hx
  first := by
    intro b hb
    cases attempts with
    | nil =>
        cases hb
        exact h.untouched _ rfl rfl
    | cons x rest => exact h.first b hb
  untouched := by
    intro s _ hempty
    exact absurd hempty (by simp)
  last := by
    intro s hs b hb
    rw [List.getLast?_concat] at hb
    cases hb
    exact hleaves s hs

/-- Before the last attempt, the entry was as that attempt found it. -/
theorem Tracks.of_concat {a : A} {entry : Option S} (h : q.Tracks (attempts ++ [a]) entry) :
    q.Tracks attempts (some (q.found a)) where
  chain := h.chain.left_of_append
  first := by
    intro b hb
    apply h.first
    cases attempts with
    | nil => cases hb
    | cons x rest => exact hb
  untouched := by
    intro s hs hempty
    cases hs
    subst hempty
    exact h.first a rfl
  last := by
    intro s hs b hb
    cases hs
    exact (List.isChain_append.mp h.chain).2.2 b hb a rfl

theorem Tracks.step (h : q.Tracks attempts before) (hchange : q.Change before attempt after) :
    q.Tracks (since attempts before attempt after) after := by
  cases hchange with
  | kept =>
      have hsame : since attempts before (none : Option A) before = attempts := by
        cases before <;> simp [since]
      rw [hsame]
      exact h
  | added hfresh =>
      refine ⟨.nil, by simp [since], ?_, by simp [since]⟩
      intro s hs _
      cases hs
      exact hfresh
  | removed =>
      have hsame : ∀ s : S, since attempts (some s) (none : Option A) none = attempts := by
        simp [since]
      rw [hsame]
      exact ⟨h.chain, h.first, by simp, by simp⟩
  | @attempted a s hleaves =>
      apply h.concat
      intro s' hs
      cases hs
      exact hleaves
  | completed => exact h.concat (by simp)

/-- Whatever grows by `d` from what one attempt finds to what the next one does has grown by
`d` for each attempt but the first. -/
theorem Tracks.elapsed (h : q.Tracks attempts before) (clock : A → Int) {d : Int}
    (hclock : ∀ a ∈ attempts, ∀ b ∈ attempts, q.leaves a (q.found b) → clock a + d ≤ clock b)
    (i j : Nat) (a b : A) (hij : i ≤ j) (ha : attempts[i]? = some a)
    (hb : attempts[j]? = some b) : clock a + (j - i : Nat) * d ≤ clock b := by
  induction j, hij using Nat.le_induction generalizing b with
  | base =>
      rw [ha] at hb
      cases hb
      simp
  | succ j hij ih =>
      obtain ⟨hlt, hbj⟩ := List.getElem?_eq_some_iff.mp hb
      have hprevious := List.getElem?_eq_getElem (show j < attempts.length by omega)
      have hstep := hclock _ (List.mem_of_getElem? hprevious) b (List.mem_of_getElem? hb)
        (hbj ▸ List.isChain_iff_getElem.mp h.chain j hlt)
      have hbefore := ih _ hprevious
      rw [Nat.succ_sub hij]
      push_cast
      rw [add_mul, one_mul]
      omega

end Policy

end Runkit.Foundation
