/-
  Concurrency/Lock.lean --- handlers that ask not to be called concurrently.

  `EnforceConcurrencyPreference` calls a handler while it holds a session-level advisory lock
  of PostgreSQL.  The lock belongs to a connection of the pool, and not to the transaction:
  it is released by a statement of its own, which fails if the context is done or the
  connection is lost.

  A connection makes one call at a time.  Losing a connection ends its session, but not the
  call of the handler, which goes on without the lock.

  Source: internal/concurrency/lock.go.
-/
import Mathlib.Logic.Relation
import Runkit.Foundation.Run
import Runkit.Foundation.SessionLocks
import Runkit.Message

set_option autoImplicit false

namespace Runkit.Concurrency

open Runkit.Foundation

/-- `dogma.ConcurrencyPreference`. -/
inductive Preference where
  | maximizeConcurrency
  | minimizeConcurrency
  deriving DecidableEq, Repr

/-- `advisoryLockKey`. -/
def advisoryLockKey (id : UUID) : Int64 := (id.upper ^^^ id.lower).toInt64

/-! ## The state machine -/

/-- Where a call of `EnforceConcurrencyPreference` is. -/
inductive Phase where
  /-- There is no call on the connection. -/
  | idle
  /-- The statement that takes the lock is executing. -/
  | locking (key : UUID)
  /-- `fn` is executing, with or without the lock. -/
  | executing (key : UUID) (pref : Preference)
  /-- `fn` has returned, and the statement that releases the lock is executing. -/
  | unlocking (key : UUID)
  deriving DecidableEq, Repr

/-- A connection to the database. -/
structure Conn where
  phase : Phase
  /-- The connection has not been closed or lost. -/
  alive : Bool
  /-- How often each lock could not be released. -/
  failedUnlocks : Int64 → Nat

/-- The connections of all nodes, and the locks of their sessions. -/
structure Connections (C : Type) where
  conn : C → Conn
  locks : SessionLocks C Int64

/-- What `EnforceConcurrencyPreference` does first. -/
def enter (key : UUID) : Preference → Phase
  | .minimizeConcurrency => .locking key
  | pref => .executing key pref

/-- What it does after `fn` has returned. -/
def leave (key : UUID) : Preference → Phase
  | .minimizeConcurrency => .unlocking key
  | _ => .idle

/-- The connection after a lock could not be released. -/
def Conn.unlockFailed (x : Conn) (key : UUID) : Conn :=
  { x with
    phase := .idle
    failedUnlocks := Function.update x.failedUnlocks (advisoryLockKey key)
      (x.failedUnlocks (advisoryLockKey key) + 1) }

namespace Connections

variable {C : Type}

/-- Nothing has been called yet. -/
def initial : Connections C where
  conn := fun _ => { phase := .idle, alive := true, failedUnlocks := fun _ => 0 }
  locks := .empty

variable [DecidableEq C]

def set (p : Connections C) (c : C) (x : Conn) (locks : SessionLocks C Int64) :
    Connections C where
  conn := Function.update p.conn c x
  locks := locks

/-- One step of a call, or the loss of a connection. -/
inductive Step (p : Connections C) : Connections C → Prop where
  | call {c : C} (key : UUID) (pref : Preference) :
      (p.conn c).phase = .idle → (p.conn c).alive = true →
      Step p (p.set c { p.conn c with phase := enter key pref } p.locks)
  | lock {c : C} {key : UUID} : (p.conn c).phase = .locking key → (p.conn c).alive = true →
      (hfree : p.locks.FreeFor c (advisoryLockKey key)) →
      Step p (p.set c { p.conn c with phase := .executing key .minimizeConcurrency }
        (p.locks.lock c (advisoryLockKey key) hfree))
  | lockFailed {c : C} {key : UUID} : (p.conn c).phase = .locking key →
      Step p (p.set c { p.conn c with phase := .idle } p.locks)
  | returned {c : C} {key : UUID} {pref : Preference} :
      (p.conn c).phase = .executing key pref →
      Step p (p.set c { p.conn c with phase := leave key pref } p.locks)
  | unlock {c : C} {key : UUID} : (p.conn c).phase = .unlocking key →
      (p.conn c).alive = true →
      Step p (p.set c { p.conn c with phase := .idle }
        (p.locks.unlock c (advisoryLockKey key)))
  | unlockFailed {c : C} {key : UUID} : (p.conn c).phase = .unlocking key →
      Step p (p.set c ((p.conn c).unlockFailed key) p.locks)
  | lost {c : C} : (p.conn c).alive = true →
      Step p (p.set c { p.conn c with alive := false } (p.locks.release c))

end Connections

/-! ## What every step keeps -/

/-- How often the call holds the lock. -/
def Phase.holds (phase : Phase) (l : Int64) : Nat :=
  match phase with
  | .executing key .minimizeConcurrency | .unlocking key =>
      if advisoryLockKey key = l then 1 else 0
  | _ => 0

theorem holds_enter (key : UUID) (pref : Preference) (l : Int64) :
    (enter key pref).holds l = 0 := by
  cases pref <;> rfl

theorem holds_leave (key : UUID) (pref : Preference) (l : Int64) :
    (leave key pref).holds l = (Phase.executing key pref).holds l := by
  cases pref <;> rfl

/-- As long as it has not been lost, the connection holds the lock of its call and those that
it could not release. -/
def Conn.Balanced (x : Conn) (held : Int64 → Nat) : Prop :=
  x.alive = true → ∀ l, held l = x.failedUnlocks l + x.phase.holds l

namespace Conn.Balanced

variable {x : Conn} {held : Int64 → Nat} {key : UUID}

/-- A step that takes or releases no lock. -/
theorem withPhase (h : x.Balanced held) {phase : Phase}
    (hholds : ∀ l, phase.holds l = x.phase.holds l) :
    Conn.Balanced { x with phase := phase } held := by
  intro halive l
  rw [h halive l]
  exact congrArg _ (hholds l).symm

theorem lock (h : x.Balanced held) (hphase : x.phase = .locking key) :
    Conn.Balanced { x with phase := .executing key .minimizeConcurrency }
      (Function.update held (advisoryLockKey key) (held (advisoryLockKey key) + 1)) := by
  intro halive l
  have hbefore := h halive l
  rw [hphase] at hbefore
  by_cases hl : advisoryLockKey key = l
  · subst hl
    rw [Function.update_self, hbefore]
    simp [Phase.holds]
  · rw [Function.update_of_ne (Ne.symm hl), hbefore]
    simp [Phase.holds, hl]

theorem unlock (h : x.Balanced held) (hphase : x.phase = .unlocking key) :
    Conn.Balanced { x with phase := .idle }
      (Function.update held (advisoryLockKey key) (held (advisoryLockKey key) - 1)) := by
  intro halive l
  have hbefore := h halive l
  rw [hphase] at hbefore
  by_cases hl : advisoryLockKey key = l
  · subst hl
    rw [Function.update_self, hbefore]
    simp [Phase.holds]
  · rw [Function.update_of_ne (Ne.symm hl), hbefore]
    simp [Phase.holds, hl]

/-- The lock of the call becomes one that could not be released. -/
theorem unlockFailed (h : x.Balanced held) (hphase : x.phase = .unlocking key) :
    (x.unlockFailed key).Balanced held := by
  intro halive l
  have hbefore := h halive l
  rw [hphase] at hbefore
  rw [hbefore, Conn.unlockFailed]
  by_cases hl : advisoryLockKey key = l
  · subst hl
    simp [Phase.holds]
  · simp [Phase.holds, hl, Function.update_of_ne (Ne.symm hl)]

end Conn.Balanced

namespace Connections

variable {C : Type}

/-- Every connection is balanced. -/
def Invariant (p : Connections C) : Prop := ∀ c, (p.conn c).Balanced (p.locks.held c)

variable [DecidableEq C] {p p' : Connections C} {c : C} {key : UUID}

theorem Invariant.set (h : p.Invariant) {x : Conn} {locks : SessionLocks C Int64}
    (hothers : ∀ c', c' ≠ c → locks.held c' = p.locks.held c')
    (hc : x.Balanced (locks.held c)) : (p.set c x locks).Invariant := by
  intro c'
  unfold Connections.set
  dsimp only
  by_cases heq : c' = c
  · subst heq
    rwa [Function.update_self]
  · rw [Function.update_of_ne heq, hothers c' heq]
    exact h c'

theorem Invariant.step (h : p.Invariant) (hstep : Step p p') : p'.Invariant := by
  cases hstep with
  | call key pref hphase halive =>
      refine h.set (fun _ _ => rfl) ((h _).withPhase ?_)
      rw [hphase]
      exact holds_enter key pref
  | lock hphase halive hfree =>
      refine h.set (fun _ => SessionLocks.lock_held_of_ne hfree) ?_
      rw [SessionLocks.lock_held_self]
      exact (h _).lock hphase
  | lockFailed hphase =>
      refine h.set (fun _ _ => rfl) ((h _).withPhase ?_)
      rw [hphase]
      exact fun l => rfl
  | @returned c key pref hphase =>
      refine h.set (fun _ _ => rfl) ((h _).withPhase ?_)
      rw [hphase]
      exact holds_leave key pref
  | unlock hphase halive =>
      refine h.set (fun _ => SessionLocks.unlock_held_of_ne) ?_
      rw [SessionLocks.unlock_held_self]
      exact (h _).unlock hphase
  | unlockFailed hphase => exact h.set (fun _ _ => rfl) ((h _).unlockFailed hphase)
  | lost halive =>
      refine h.set (fun _ => SessionLocks.release_held_of_ne) ?_
      intro hdead
      cases hdead

/-! ## Whole runs -/

theorem reaches_invariant (h : Relation.ReflTransGen Step (initial : Connections C) p) :
    p.Invariant := by
  have hpreserves : ∀ q q' : Connections C, q.Invariant → Step q q' → q'.Invariant :=
    fun _ _ hinv hstep => hinv.step hstep
  refine run_preserves hpreserves h ?_
  intro c _ l
  rfl

/-- The connection is alive, and its call executes `fn` for the handler with the lock. -/
def Executes (p : Connections C) (c : C) (key : UUID) : Prop :=
  (p.conn c).alive = true ∧ (p.conn c).phase = .executing key .minimizeConcurrency

omit [DecidableEq C] in
theorem Invariant.held_of_executes (h : p.Invariant) (hexecutes : p.Executes c key) :
    0 < p.locks.held c (advisoryLockKey key) := by
  have hbalanced := h c hexecutes.1 (advisoryLockKey key)
  rw [hexecutes.2] at hbalanced
  simp only [Phase.holds, if_true] at hbalanced
  omega

/-- Of the connections that are alive, one at a time executes a handler that asks for it.  One
that has no call holds a lock as often as releasing it has failed; if it has, then no other
one executes the handler before that one is closed. -/
theorem minimized_concurrency (h : Relation.ReflTransGen Step (initial : Connections C) p) :
    (∀ c c' key, p.Executes c key → p.Executes c' key → c = c') ∧
    (∀ c l, (p.conn c).alive = true → (p.conn c).phase = .idle →
      p.locks.held c l = (p.conn c).failedUnlocks l) ∧
    ∀ c c' key, (p.conn c).alive = true →
      0 < (p.conn c).failedUnlocks (advisoryLockKey key) → p.Executes c' key → c' = c := by
  have hinv := reaches_invariant h
  refine ⟨?_, ?_, ?_⟩
  · intro c c' key hc hc'
    exact p.locks.exclusive c c' _ (hinv.held_of_executes hc) (hinv.held_of_executes hc')
  · intro c l halive hidle
    have hbalanced := hinv c halive l
    rw [hidle] at hbalanced
    exact hbalanced
  · intro c c' key halive hfailed hc'
    have hbalanced := hinv c halive (advisoryLockKey key)
    exact p.locks.exclusive c' c _ (hinv.held_of_executes hc') (by omega)

/-- The first connection could not release the lock, and the second one waits for it.  The
first one may execute the handler again. -/
theorem waiting_reached : ∃ p q : Connections Bool,
    Relation.ReflTransGen Step initial p ∧ Relation.ReflTransGen Step initial q ∧
    (p.conn false).alive = true ∧ (p.conn false).phase = .idle ∧
    (p.conn false).failedUnlocks (advisoryLockKey (uuid 70)) = 1 ∧
    (p.conn true).phase = .locking (uuid 70) ∧
    q.Executes false (uuid 70) ∧ (q.conn true).phase = .locking (uuid 70) := by
  have hp : Relation.ReflTransGen Step initial _ := Relation.ReflTransGen.refl
    |>.tail (.call (c := false) (uuid 70) .minimizeConcurrency rfl rfl)
    |>.tail (.lock (c := false) rfl rfl (fun _ _ => rfl))
    |>.tail (.returned (c := false) rfl)
    |>.tail (.unlockFailed (c := false) rfl)
    |>.tail (.call (c := true) (uuid 70) .minimizeConcurrency rfl rfl)
  have hq := hp
    |>.tail (.call (c := false) (uuid 70) .minimizeConcurrency rfl rfl)
    |>.tail (.lock (c := false) rfl rfl (SessionLocks.freeFor_of_held _ (by decide)))
  exact ⟨_, _, hp, hq, rfl, rfl, by decide, rfl, ⟨rfl, rfl⟩, rfl⟩

theorem minimized_concurrency_waiting : ∃ p q : Connections Bool,
    (p.conn true).phase = .locking (uuid 70) ∧
      p.locks.held false (advisoryLockKey (uuid 70)) = 1 ∧
      (∀ c, p.Executes c (uuid 70) → c = false) ∧
      (q.conn true).phase = .locking (uuid 70) ∧ q.Executes false (uuid 70) ∧
      ∀ c, q.Executes c (uuid 70) → c = false := by
  obtain ⟨p, q, hp, hq, halive, hidle, hfailed, hwaiting, hexecutes, hwaiting'⟩ := waiting_reached
  obtain ⟨-, hheld, hblocked⟩ := minimized_concurrency hp
  obtain ⟨hexclusive, -, -⟩ := minimized_concurrency hq
  refine ⟨p, q, hwaiting, (hheld false _ halive hidle).trans hfailed, ?_, hwaiting', hexecutes, ?_⟩
  · intro c hc
    exact hblocked false c (uuid 70) halive (by rw [hfailed]; exact Nat.one_pos) hc
  · intro c hc
    exact hexclusive c false (uuid 70) hc hexecutes

end Connections

end Runkit.Concurrency
