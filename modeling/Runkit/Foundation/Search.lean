/-
  Foundation/Search.lean --- binary search.

  `search n f` is the loop that Go's `sort.Search` runs.  If `f` is false up to some
  index below `n` and true from there on, it returns that index
  (`search_splits`); applied to a list, it finds where the part of the list begins
  that satisfies a predicate (`drop_searchBy`).
-/
import Mathlib.Data.List.Basic

set_option autoImplicit false

namespace Runkit.Foundation

variable {α : Type}

/-- The loop of a binary search in `[i, j)`.  Each round makes the range smaller,
so `j - i` rounds are enough. -/
def searchLoop (f : Nat → Bool) : Nat → Nat → Nat → Nat
  | 0, i, _ => i
  | rounds + 1, i, j =>
      if i < j then
        if f ((i + j) / 2) then searchLoop f rounds i ((i + j) / 2)
        else searchLoop f rounds ((i + j) / 2 + 1) j
      else
        i

/-- A binary search for the first index in `[0, n)` at which `f` is true. -/
def search (n : Nat) (f : Nat → Bool) : Nat := searchLoop f n 0 n

/-- `f` is false in `[0, i)` and true in `[j, n)`. -/
structure Splits (n : Nat) (f : Nat → Bool) (i j : Nat) : Prop where
  ordered : i ≤ j
  bounded : j ≤ n
  below : ∀ k, k < i → f k = false
  above : ∀ k, j ≤ k → k < n → f k = true

theorem searchLoop_splits {n : Nat} {f : Nat → Bool}
    (hmono : ∀ k l, k ≤ l → l < n → f k = true → f l = true) {rounds i j : Nat}
    (hrounds : j ≤ i + rounds) (h : Splits n f i j) :
    Splits n f (searchLoop f rounds i j) (searchLoop f rounds i j) := by
  induction rounds generalizing i j with
  | zero =>
      have heq : j = i := by have := h.ordered; omega
      subst heq
      exact h
  | succ rounds ih =>
      obtain ⟨hordered, hbounded, hbelow, habove⟩ := h
      unfold searchLoop
      split
      · rename_i hlt
        split
        · rename_i htrue
          refine ih (by omega) ⟨by omega, by omega, hbelow, ?_⟩
          intro k hk hkn
          exact hmono _ k hk hkn htrue
        · rename_i hfalse
          refine ih (by omega) ⟨by omega, hbounded, ?_, habove⟩
          intro k hk
          by_contra htrue
          exact hfalse (hmono k _ (by omega) (by omega) (by simpa using htrue))
      · have heq : j = i := by omega
        subst heq
        exact ⟨hordered, hbounded, hbelow, habove⟩

/-- A binary search finds where a monotone `f` becomes true. -/
theorem search_splits {n : Nat} {f : Nat → Bool}
    (hmono : ∀ k l, k ≤ l → l < n → f k = true → f l = true) :
    Splits n f (search n f) (search n f) := by
  refine searchLoop_splits hmono (by omega) ⟨Nat.zero_le n, Nat.le_refl n, ?_, ?_⟩
  · intro k hk
    omega
  · intro k hk hkn
    omega

/-- A binary search for the first element of a list that satisfies `q`. -/
def searchBy (q : α → Bool) (l : List α) : Nat := search l.length fun i => l[i]?.any q

/-- If satisfying `q` carries over to later elements, the part of the list that a
binary search finds is the part that satisfies `q`. -/
theorem drop_searchBy {q : α → Bool} {l : List α}
    (h : l.Pairwise fun a b => q a = true → q b = true) :
    l.drop (searchBy q l) = l.filter q := by
  have hmono : ∀ k m, k ≤ m → m < l.length → l[k]?.any q = true → l[m]?.any q = true := by
    intro k m hkm hm hk
    rcases Nat.lt_or_eq_of_le hkm with hlt | rfl
    · rw [List.getElem?_eq_getElem (by omega), Option.any_some] at hk ⊢
      exact List.pairwise_iff_getElem.mp h k m (by omega) hm hlt hk
    · exact hk
  obtain ⟨-, hbounded, hbelow, habove⟩ := search_splits hmono
  have hfront : (l.take (searchBy q l)).filter q = [] := by
    refine List.filter_eq_nil_iff.mpr ?_
    intro a ha hq
    obtain ⟨k, hk, rfl⟩ := List.mem_take_iff_getElem.mp ha
    have hfalse := hbelow k (by unfold searchBy at hk; omega)
    rw [List.getElem?_eq_getElem (by omega), Option.any_some] at hfalse
    rw [hfalse] at hq
    cases hq
  have hback : (l.drop (searchBy q l)).filter q = l.drop (searchBy q l) := by
    refine List.filter_eq_self.mpr ?_
    intro a ha
    obtain ⟨k, hk, rfl⟩ := List.mem_drop_iff_getElem.mp ha
    have htrue := habove (searchBy q l + k) (Nat.le_add_right _ _) (by omega)
    rwa [List.getElem?_eq_getElem (by omega), Option.any_some] at htrue
  calc l.drop (searchBy q l)
      = (l.take (searchBy q l)).filter q ++ (l.drop (searchBy q l)).filter q := by
        rw [hfront, hback, List.nil_append]
    _ = l.filter q := by rw [← List.filter_append, List.take_append_drop]

example : searchBy (fun n => decide (4 ≤ n)) [1, 3, 4, 4, 8] = 2 := by decide

end Runkit.Foundation
