/-
  Foundation/Wrapping.lean --- integers that wrap around, and limits on them.

  A signed integer of `w + 1` bits holds the balanced residue of the exact value,
  `Int.bmod`.  A limit that may have wrapped around is often guarded by its sign
  and by a cap (`capped`).  That is not enough: the exact value may be so large
  that its residue is positive and small again.  `capped_bmod_eq_min_iff` says
  when the guard nevertheless gives what exact arithmetic does, and
  `mul_two_pow_emod` which bits of a value a shift leaves.
-/
import Mathlib.Algebra.Order.Ring.Int
import Mathlib.Tactic.Positivity

set_option autoImplicit false

namespace Runkit.Foundation

/-! ## Balanced residues -/

section

variable {w : Nat} {x : Int}

/-- A residue in the upper half of the range is held as a negative number. -/
theorem bmod_two_pow (w : Nat) (x : Int) :
    x.bmod (2 ^ (w + 1)) =
      if x % 2 ^ (w + 1) < 2 ^ w then x % 2 ^ (w + 1) else x % 2 ^ (w + 1) - 2 ^ (w + 1) := by
  have hhalf : (((2 ^ (w + 1) : Nat) : Int) + 1) / 2 = 2 ^ w := by
    push_cast
    rw [pow_succ]
    omega
  rw [Int.bmod_def, hhalf]
  push_cast
  rfl

/-- A value that fits is held as it is. -/
theorem bmod_of_mem_range (hlow : -2 ^ w ≤ x) (hhigh : x < 2 ^ w) :
    x.bmod (2 ^ (w + 1)) = x := by
  apply Int.bmod_eq_of_le_mul_two
  · push_cast
    rw [pow_succ]
    omega
  · push_cast
    rw [pow_succ]
    omega

/-! ## Capped limits -/

/-- A limit that is replaced with `cap` unless it is positive and at most `cap`. -/
def capped (cap limit : Int) : Int := if limit ≤ 0 ∨ limit > cap then cap else limit

variable {cap : Int}

theorem capped_of_nonpos {limit : Int} (h : limit ≤ 0) : capped cap limit = cap :=
  if_pos (Or.inl h)

theorem capped_of_pos {limit : Int} (h : 0 < limit) : capped cap limit = min limit cap := by
  unfold capped
  split <;> omega

/-- The cap catches every wrapped value but those that are positive and below it. -/
theorem capped_bmod_eq_min_iff (hx : 0 < x) (hcap : cap < 2 ^ w) :
    capped cap (x.bmod (2 ^ (w + 1))) = min x cap ↔
      ¬ (2 ^ (w + 1) ≤ x ∧ 0 < x % 2 ^ (w + 1) ∧ x % 2 ^ (w + 1) < cap) := by
  have hwidth : (2 : Int) ^ (w + 1) = 2 ^ w * 2 := pow_succ 2 w
  have hpos : (0 : Int) < 2 ^ w := by positivity
  have hnonneg : 0 ≤ x % 2 ^ (w + 1) := Int.emod_nonneg x (by omega)
  have hlt : x % 2 ^ (w + 1) < 2 ^ (w + 1) := Int.emod_lt_of_pos x (by omega)
  rcases lt_or_ge x (2 ^ (w + 1)) with hfits | hlarge
  · -- Nothing is lost: the residue is the value, or is negative above the cap.
    have hself : x % 2 ^ (w + 1) = x := Int.emod_eq_of_lt hx.le hfits
    rw [bmod_two_pow, hself]
    split
    · rw [capped_of_pos hx]
      omega
    · rw [capped_of_nonpos (by omega)]
      omega
  · -- The exact value is above the cap, so the guard has to yield the cap.
    rw [min_eq_right (by omega), bmod_two_pow]
    split
    · unfold capped
      split <;> omega
    · rw [capped_of_nonpos (by omega)]
      omega

/-- A shift by `n` leaves the lower `w - n` bits. -/
theorem mul_two_pow_emod {n : Nat} (h : n ≤ w) :
    x * 2 ^ n % 2 ^ w = x % 2 ^ (w - n) * 2 ^ n := by
  rw [← pow_sub_mul_pow 2 h, mul_comm x, mul_comm (2 ^ (w - n)),
    Int.mul_emod_mul_of_pos _ _ (by positivity), mul_comm]

end

end Runkit.Foundation
