/-
  MessagePump/Backoff.lean --- how long a delivery that has failed is postponed.

  Source: internal/messagepump/pump.go (computeBackoff) and engine.go.

  The delay is drawn from a window that starts at `BackoffBase` and doubles with
  each failure, up to `BackoffCap`.  The shift that doubles it may overflow, and
  the code takes an overflow to be a limit that is not positive.  It may also be
  positive and below the cap, if the bits of `BackoffBase` that are left are
  (`LosesBits`).  The window is then too small, or even ends before it starts, in
  which case `rand.N` panics.
-/
import Runkit.Foundation.Wrapping
import Runkit.MessagePump

set_option autoImplicit false

namespace Runkit.MessagePump

open Runkit.Foundation Runkit.Schema

namespace Backoff

/-- The settings under which the delays grow with the failures.  They are values
of `time.Duration`, a 64-bit signed integer. -/
structure Grows (p : Backoff) : Prop where
  positive : 0 < p.backoffBase
  base_lt : p.backoffBase < p.backoffCap
  cap_lt : p.backoffCap < 2 ^ 63

/-- The end of the window for a delivery that has failed `n` times: `limit` of
`computeBackoff`. -/
def window (p : Backoff) (n : Nat) : Int :=
  capped p.backoffCap (wrap64 (p.backoffBase * 2 ^ n))

/-- A shift by `n` moves bits of `BackoffBase` out of a 64-bit integer, and those
that are left amount to less than `BackoffCap` without all being zero. -/
def LosesBits (p : Backoff) (n : Nat) : Prop :=
  2 ^ (64 - n) ≤ p.backoffBase ∧ 0 < p.backoffBase % 2 ^ (64 - n) ∧
    p.backoffBase % 2 ^ (64 - n) * 2 ^ n < p.backoffCap

instance (p : Backoff) (n : Nat) : Decidable (p.LosesBits n) :=
  inferInstanceAs (Decidable (_ ∧ _ ∧ _))

variable {p : Backoff} {n : Nat}

/-! ## Lost bits -/

theorem LosesBits.lt_width (h : p.LosesBits n) : n < 64 := by
  obtain ⟨-, hleft, -⟩ := h
  by_contra hwide
  -- Nothing is left of the base after a shift by the width.
  rw [Nat.sub_eq_zero_of_le (by omega), pow_zero, Int.emod_one] at hleft
  omega

theorem losesBits_iff : p.LosesBits n ↔
    2 ^ 64 ≤ p.backoffBase * 2 ^ n ∧ 0 < p.backoffBase * 2 ^ n % 2 ^ 64 ∧
      p.backoffBase * 2 ^ n % 2 ^ 64 < p.backoffCap := by
  rcases le_or_gt n 64 with hn | hn
  · have hpos : (0 : Int) < 2 ^ n := by positivity
    unfold LosesBits
    rw [mul_two_pow_emod hn, mul_pos_iff_of_pos_right hpos, ← pow_sub_mul_pow 2 hn,
      mul_le_mul_iff_left₀ hpos]
  · have hzero : p.backoffBase * 2 ^ n % 2 ^ 64 = 0 :=
      Int.emod_eq_zero_of_dvd ((pow_dvd_pow 2 hn.le).mul_left _)
    constructor
    · intro h
      exact absurd h.lt_width (by omega)
    · intro h
      omega

/-- If the odd part of `BackoffBase` times `BackoffCap` fits into 64 bits, then
whatever bits are left are too large to be taken for a limit. -/
theorem not_losesBits_of_mul_le {m : Int} {k : Nat} (hpos : 0 < m)
    (hbase : p.backoffBase = m * 2 ^ k) (hcap : m * p.backoffCap ≤ 2 ^ 64) :
    ¬ p.LosesBits n := by
  intro h
  have hn := h.lt_width
  obtain ⟨hlarge, hleft, hsmall⟩ := h
  have hdvd : (2 : Int) ^ k ∣ p.backoffBase := hbase ▸ Dvd.intro_left m rfl
  have hk : k < 64 - n := by
    by_contra hle
    have hall : (2 : Int) ^ (64 - n) ∣ p.backoffBase :=
      (pow_dvd_pow 2 (not_lt.mp hle)).trans hdvd
    rw [Int.emod_eq_zero_of_dvd hall] at hleft
    omega
  -- The lowest bit of the base is among those that are left.
  have hlowest : (2 : Int) ^ k ≤ p.backoffBase % 2 ^ (64 - n) := by
    apply Int.le_of_dvd hleft
    rw [Int.emod_def]
    exact dvd_sub hdvd ((pow_dvd_pow 2 hk.le).mul_right _)
  have hshifted : (2 : Int) ^ k * 2 ^ n < p.backoffCap :=
    (mul_le_mul_of_nonneg_right hlowest (by positivity)).trans_lt hsmall
  have hexact : (2 : Int) ^ 64 ≤ m * (2 ^ k * 2 ^ n) := by
    calc (2 : Int) ^ 64 = 2 ^ (64 - n) * 2 ^ n := (pow_sub_mul_pow 2 hn.le).symm
      _ ≤ p.backoffBase * 2 ^ n := mul_le_mul_of_nonneg_right hlarge (by positivity)
      _ = m * (2 ^ k * 2 ^ n) := by rw [hbase, mul_assoc]
  have hless : m * (2 ^ k * 2 ^ n) < m * p.backoffCap := mul_lt_mul_of_pos_left hshifted hpos
  omega

/-! ## The window -/

theorem window_eq_min_iff (h : p.Grows) :
    p.window n = min (p.backoffBase * 2 ^ n) p.backoffCap ↔ ¬ p.LosesBits n := by
  rw [losesBits_iff]
  exact capped_bmod_eq_min_iff (w := 63) (mul_pos h.positive (by positivity)) h.cap_lt

theorem window_of_losesBits (h : p.Grows) (hbits : p.LosesBits n) :
    p.window n = p.backoffBase % 2 ^ (64 - n) * 2 ^ n := by
  rw [← mul_two_pow_emod hbits.lt_width.le]
  obtain ⟨-, hleft, hsmall⟩ := losesBits_iff.mp hbits
  have hcap := h.cap_lt
  have hheld : wrap64 (p.backoffBase * 2 ^ n) = p.backoffBase * 2 ^ n % 2 ^ 64 := by
    refine (bmod_two_pow 63 _).trans (if_pos ?_)
    exact hsmall.trans hcap
  unfold window
  rw [hheld, capped_of_pos hleft, min_eq_left hsmall.le]

theorem window_le_cap (p : Backoff) (n : Nat) : p.window n ≤ p.backoffCap := by
  unfold window capped
  split <;> omega

theorem base_lt_window (h : p.Grows) (hn : 1 ≤ n) (hbits : ¬ p.LosesBits n) :
    p.backoffBase < p.window n := by
  have hpos := h.positive
  have hdouble : (2 : Int) ^ 1 ≤ 2 ^ n := pow_le_pow_right₀ (by decide) hn
  have hexact : p.backoffBase * 2 ^ 1 ≤ p.backoffBase * 2 ^ n :=
    mul_le_mul_of_nonneg_left hdouble hpos.le
  rw [(window_eq_min_iff h).mpr hbits]
  exact lt_min (by omega) h.base_lt

theorem window_le_window {m : Nat} (h : p.Grows) (hle : n ≤ m) (hn : ¬ p.LosesBits n)
    (hm : ¬ p.LosesBits m) : p.window n ≤ p.window m := by
  rw [(window_eq_min_iff h).mpr hn, (window_eq_min_iff h).mpr hm]
  apply min_le_min_right
  exact mul_le_mul_of_nonneg_left (pow_le_pow_right₀ (by decide) hle) h.positive.le

end Backoff

/-! ## The delay -/

section

variable {E : Type} {p : Backoff} {n random : Nat}

theorem computeBackoff_eq (h : p.Grows) : computeBackoff p n random =
    (randN random (wrap64 (p.window n - p.backoffBase))).map (p.backoffBase + ·) := by
  have hpos := h.positive
  have hlt := h.base_lt
  exact if_neg (by omega)

/-- The difference that `rand.N` is called with does not overflow. -/
theorem wrap64_window_sub (h : p.Grows) (hpos : 0 ≤ p.window n) :
    wrap64 (p.window n - p.backoffBase) = p.window n - p.backoffBase := by
  have hbase := h.positive
  have hlt := h.base_lt
  have hcap := h.cap_lt
  have hwindow := p.window_le_cap n
  exact bmod_of_mem_range (w := 63) (by omega) (by omega)

theorem computeBackoff_of_lt_window (h : p.Grows) (hlt : p.backoffBase < p.window n) :
    computeBackoff p n random =
      some (p.backoffBase + random % (p.window n - p.backoffBase)) := by
  have hpos := h.positive
  rw [computeBackoff_eq h, wrap64_window_sub h (by omega), randN, if_pos (by omega)]
  rfl

/-- A window that has not lost bits yields a delay. -/
theorem computeBackoff_returns (h : p.Grows) (hn : 1 ≤ n) (hbits : ¬ p.LosesBits n)
    (random : Nat) :
    ∃ delay, computeBackoff p n random = some delay ∧ p.backoffBase ≤ delay ∧
      delay < p.backoffCap := by
  have hlt := Backoff.base_lt_window h hn hbits
  have hcap := p.window_le_cap n
  have hdelay : computeBackoff p n random =
      some (p.backoffBase + random % (p.window n - p.backoffBase)) :=
    computeBackoff_of_lt_window h hlt
  have hjitter := Int.emod_lt_of_pos random (Int.sub_pos.mpr hlt)
  exact ⟨_, hdelay, backoffBase_le hdelay, by omega⟩

/-- The backoff panics if the bits that are left do not exceed `BackoffBase`, and
only then. -/
theorem computeBackoff_panics_iff (h : p.Grows) (hn : 1 ≤ n) :
    computeBackoff p n random = none ↔
      p.LosesBits n ∧ p.backoffBase % 2 ^ (64 - n) * 2 ^ n ≤ p.backoffBase := by
  constructor
  · intro hpanics
    have hbits : p.LosesBits n := by
      by_contra hkept
      obtain ⟨delay, hdelay, -⟩ := computeBackoff_returns h hn hkept random
      exact absurd (hpanics.symm.trans hdelay) (by simp)
    refine ⟨hbits, ?_⟩
    rw [← Backoff.window_of_losesBits h hbits]
    by_contra hlt
    rw [computeBackoff_of_lt_window h (not_le.mp hlt)] at hpanics
    cases hpanics
  · intro hlost
    obtain ⟨hbits, hle⟩ := hlost
    have hleft : 0 < p.backoffBase % 2 ^ (64 - n) * 2 ^ n := mul_pos hbits.2.1 (by positivity)
    rw [← Backoff.window_of_losesBits h hbits] at hle hleft
    rw [computeBackoff_eq h, wrap64_window_sub h hleft.le, randN, if_neg (by omega)]
    rfl

/-- A failure is recorded, and the delivery postponed, whatever the random number. -/
theorem postponeFailure_postpones {driver : Driver E} {c : Circumstances} {del : Delivery}
    (h : p.Grows) (hbits : ¬ p.LosesBits (del.failures + 1)) :
    ∃ delay, p.backoffBase ≤ delay ∧ delay < p.backoffCap ∧ postponeFailure driver p c del =
      driver.postponeDelivery { del with failures := del.failures + 1 } delay := by
  obtain ⟨delay, hdelay, hlow, hhigh⟩ :=
    computeBackoff_returns h (Nat.le_add_left 1 del.failures) hbits c.random
  refine ⟨delay, hlow, hhigh, ?_⟩
  simp only [postponeFailure, hdelay]

end

/-! ## The engine's settings -/

/-- `backoffBase` and `backoffCap` of the engine: ten milliseconds and five
minutes. -/
def engineBackoff : Backoff where
  backoffBase := 10000000
  backoffCap := 300000000000

theorem engineBackoff_grows : engineBackoff.Grows where
  positive := by decide
  base_lt := by decide
  cap_lt := by decide

theorem engineBackoff_not_losesBits (n : Nat) : ¬ engineBackoff.LosesBits n :=
  Backoff.not_losesBits_of_mul_le (m := 10000000) (k := 0) (by decide) (by decide) (by decide)

/-- With the engine's settings, a failure never aborts the transaction. -/
theorem engineBackoff_postpones {E : Type} (driver : Driver E) (c : Circumstances)
    (del : Delivery) :
    ∃ delay, 10000000 ≤ delay ∧ delay < 300000000000 ∧
      postponeFailure driver engineBackoff c del =
        driver.postponeDelivery { del with failures := del.failures + 1 } delay :=
  postponeFailure_postpones engineBackoff_grows (engineBackoff_not_losesBits _)

/-! ## The window in exact arithmetic -/

/-- The window is what it is in exact arithmetic if and only if the shift does not lose
bits.  If so, it does not shrink from one failure to a later one, `rand.N` is called
with a positive number, and the delay is at least `BackoffBase` and below
`BackoffCap`. -/
theorem computeBackoff_window_exact (p : Backoff) (n : Nat) (hbase : 0 < p.backoffBase)
    (hlt : p.backoffBase < p.backoffCap) (hcap : p.backoffCap < 2 ^ 63) (hn : 1 ≤ n) :
    (∀ random, computeBackoff p n random =
        (randN random (wrap64 (p.window n - p.backoffBase))).map (p.backoffBase + ·)) ∧
      (p.window n = min (p.backoffBase * 2 ^ n) p.backoffCap ↔ ¬ p.LosesBits n) ∧
      (¬ p.LosesBits n →
        (∀ m, n ≤ m → ¬ p.LosesBits m → p.window n ≤ p.window m) ∧
        0 < wrap64 (p.window n - p.backoffBase) ∧
        ∀ random, ∃ delay, computeBackoff p n random = some delay ∧ p.backoffBase ≤ delay ∧
          delay < p.backoffCap) := by
  have h : p.Grows := ⟨hbase, hlt, hcap⟩
  refine ⟨fun random => computeBackoff_eq h, Backoff.window_eq_min_iff h, ?_⟩
  intro hbits
  have hwindow := Backoff.base_lt_window h hn hbits
  refine ⟨?_, ?_, computeBackoff_returns h hn hbits⟩
  · intro m hle hm
    exact Backoff.window_le_window h hle hbits hm
  · rw [wrap64_window_sub h (by omega)]
    omega

/-- After fifteen failures, the engine's window has reached the cap. -/
theorem engineBackoff_window_fifteen :
    engineBackoff.window 15 = 300000000000 ∧ ¬ engineBackoff.LosesBits 15 ∧
      ∀ m, 15 ≤ m → ¬ engineBackoff.LosesBits m → 300000000000 ≤ engineBackoff.window m := by
  have hbits := engineBackoff_not_losesBits 15
  obtain ⟨-, hwindow, hrest⟩ := computeBackoff_window_exact engineBackoff 15 (by decide)
    (by decide) (by decide) (by decide)
  have hcap : engineBackoff.window 15 = 300000000000 := (hwindow.mpr hbits).trans (by decide)
  refine ⟨hcap, hbits, ?_⟩
  intro m hle hm
  exact hcap ▸ (hrest hbits).1 m hle hm

/-- A base just above four seconds, with the engine's cap.  After 32 failures the
shift is `2 ^ 64 + 2 ^ 32`, which wraps around to `2 ^ 32`: one nanosecond below
the base, so that `rand.N` panics. -/
theorem computeBackoff_window_shrinks :
    let p : Backoff := ⟨2 ^ 32 + 1, 300000000000⟩
    0 < p.backoffBase ∧ p.backoffBase < p.backoffCap ∧ p.backoffCap < 2 ^ 63 ∧
      p.window 32 = 2 ^ 32 ∧ min (p.backoffBase * 2 ^ 32) p.backoffCap = 300000000000 ∧
      p.window 32 < p.window 31 ∧ wrap64 (p.window 32 - p.backoffBase) = -1 ∧
      ∀ random, computeBackoff p 32 random = none := by
  intro p
  have hwindow : p.window 32 = 2 ^ 32 := by decide
  refine ⟨by decide, by decide, by decide, hwindow, by decide, by decide, by decide, ?_⟩
  intro random
  rw [computeBackoff_panics_iff ⟨by decide, by decide, by decide⟩ (by decide)]
  decide

end Runkit.MessagePump
