/-
  Foundation/Transaction.lean --- transaction programs over a store with row
  locks.

  A transaction is a sequential program whose statements lock, read and write
  rows.  It runs against the committed rows of a store, keeps its own writes to
  itself until it commits, and holds every lock it takes until it ends:

      lock k        wait for the lock on `k`, then read the latest row
      tryLock k     as `lock`, but skip the row instead of waiting for it
      peek k        read the latest committed row without locking it
      write k v     write a row that is locked
      sweep p f     lock every row that satisfies `p`, and apply `f` to it
      emit e        record an observation; it has no effect on the store
      fail          give up, so that the transaction can only roll back

  This file gives the programs their *serial* meaning, in which nothing else
  happens while a transaction runs.  Rows read without a lock are the
  exception: such a row may be an older one, as far as the relation `rely`
  allows.  `Foundation/Pool.lean` interleaves transactions and shows that what
  a transaction has done at any moment is a serial run on the rows committed
  at that moment.
-/
import Mathlib.Logic.Function.Basic
import Mathlib.Logic.Relation

set_option autoImplicit false

namespace Runkit.Foundation

/-- A transaction program that returns an `α`.  Rows are keyed by `K`, the row
at `k` is a `V k`, and the program may emit observations of type `E`. -/
inductive Tx (K : Type) (V : K → Type) (E : Type) (α : Type) : Type where
  | pure (result : α)
  | fail
  | lock (k : K) (next : V k → Tx K V E α)
  | tryLock (k : K) (visible : V k → Bool) (next : Option (V k) → Tx K V E α)
  | peek (k : K) (next : V k → Tx K V E α)
  | write (k : K) (row : V k) (next : Tx K V E α)
  | sweep (matching : ∀ k, V k → Bool) (update : ∀ k, V k → V k) (next : Tx K V E α)
  | emit (observation : E) (next : Tx K V E α)

namespace Tx

variable {K : Type} {V : K → Type} {E α β : Type}

/-- Sequential composition. -/
def bind : Tx K V E α → (α → Tx K V E β) → Tx K V E β
  | .pure a, rest => rest a
  | .fail, _ => .fail
  | .lock k next, rest => .lock k fun row => (next row).bind rest
  | .tryLock k visible next, rest => .tryLock k visible fun row => (next row).bind rest
  | .peek k next, rest => .peek k fun row => (next row).bind rest
  | .write k row next, rest => .write k row (next.bind rest)
  | .sweep matching update next, rest => .sweep matching update (next.bind rest)
  | .emit e next, rest => .emit e (next.bind rest)

instance : Monad (Tx K V E) where
  pure := .pure
  bind := bind

@[simp] theorem pure_def (a : α) : (Pure.pure a : Tx K V E α) = .pure a := rfl

end Tx

/-- What an open transaction holds: its locks, the rows it has written, and
the observations it has emitted. -/
structure Session (K : Type) (V : K → Type) (E : Type) where
  locks : K → Bool
  pending : ∀ k, Option (V k)
  trace : List E

namespace Session

variable {K : Type} {V : K → Type} {E : Type}

/-- A transaction that has not done anything yet. -/
def start : Session K V E where
  locks := fun _ => false
  pending := fun _ => none
  trace := []

/-- The row at `k` as the transaction sees it, on top of the committed rows. -/
def view (s : Session K V E) (rows : ∀ k, V k) (k : K) : V k :=
  (s.pending k).getD (rows k)

/-- The session with `k` locked. -/
def acquire [DecidableEq K] (s : Session K V E) (k : K) : Session K V E :=
  { s with locks := Function.update s.locks k true }

/-- The session with `row` written at `k`. -/
def put [DecidableEq K] (s : Session K V E) (k : K) (row : V k) : Session K V E :=
  { s with pending := Function.update s.pending k (some row) }

/-- The session with every row of `rows` that satisfies `matching` locked and
updated. -/
def sweep (s : Session K V E) (rows : ∀ k, V k) (matching : ∀ k, V k → Bool)
    (update : ∀ k, V k → V k) : Session K V E where
  locks := fun k => s.locks k || matching k (s.view rows k)
  pending := fun k =>
    if matching k (s.view rows k) then some (update k (s.view rows k)) else s.pending k
  trace := s.trace

/-- Every row that the session has written is one that it has locked. -/
def Disciplined (s : Session K V E) : Prop :=
  ∀ k, s.pending k ≠ none → s.locks k = true

/-- The session with one more observation. -/
def note (s : Session K V E) (e : E) : Session K V E :=
  { s with trace := s.trace ++ [e] }

variable (s : Session K V E) (rows : ∀ k, V k)

@[simp] theorem start_locks (k : K) : (start : Session K V E).locks k = false := rfl
@[simp] theorem start_pending (k : K) : (start : Session K V E).pending k = none := rfl
@[simp] theorem start_trace : (start : Session K V E).trace = [] := rfl
@[simp] theorem start_view (k : K) : (start : Session K V E).view rows k = rows k := rfl

theorem start_disciplined : (start : Session K V E).Disciplined := by
  intro k hk
  exact absurd rfl hk

theorem Disciplined.view_of_unlocked {s : Session K V E} (hs : s.Disciplined) {k : K}
    (hk : s.locks k ≠ true) : s.view rows k = rows k := by
  have hnone : s.pending k = none := by
    by_contra hpending
    exact hk (hs k hpending)
  rw [view, hnone, Option.getD_none]

@[simp] theorem note_locks (e : E) : (s.note e).locks = s.locks := rfl
@[simp] theorem note_pending (e : E) : (s.note e).pending = s.pending := rfl
@[simp] theorem note_view (e : E) : (s.note e).view rows = s.view rows := rfl
@[simp] theorem note_trace (e : E) : (s.note e).trace = s.trace ++ [e] := rfl

@[simp] theorem sweep_trace (matching : ∀ k, V k → Bool) (update : ∀ k, V k → V k) :
    (s.sweep rows matching update).trace = s.trace := rfl

theorem sweep_locks (matching : ∀ k, V k → Bool) (update : ∀ k, V k → V k) (k : K)
    (h : s.locks k = true ∨ matching k (s.view rows k) = true) :
    (s.sweep rows matching update).locks k = true := by
  simpa [sweep] using h

/-- A sweep may look for its rows among other rows than those that are
committed. -/
theorem sweep_view (seen : ∀ k, V k) (matching : ∀ k, V k → Bool) (update : ∀ k, V k → V k)
    (k : K) :
    (s.sweep seen matching update).view rows k =
      if matching k (s.view seen k) then update k (s.view seen k) else s.view rows k := by
  change Option.getD (if matching k (s.view seen k) then _ else _) (rows k) = _
  by_cases h : matching k (s.view seen k) = true
  · rw [if_pos h, if_pos h, Option.getD_some]
  · rw [if_neg h, if_neg h]
    rfl

variable [DecidableEq K]

@[simp] theorem acquire_pending (k : K) : (s.acquire k).pending = s.pending := rfl
@[simp] theorem acquire_trace (k : K) : (s.acquire k).trace = s.trace := rfl
@[simp] theorem acquire_view (k : K) : (s.acquire k).view rows = s.view rows := rfl

theorem acquire_locks (k k' : K) :
    (s.acquire k).locks k' = true ↔ k' = k ∨ s.locks k' = true := by
  by_cases h : k' = k
  · subst h; simp [acquire]
  · simp [acquire, h]

@[simp] theorem acquire_locks_self (k : K) : (s.acquire k).locks k = true := by
  simp [acquire]

@[simp] theorem put_locks (k : K) (row : V k) : (s.put k row).locks = s.locks := rfl
@[simp] theorem put_trace (k : K) (row : V k) : (s.put k row).trace = s.trace := rfl

@[simp] theorem put_view_self (k : K) (row : V k) : (s.put k row).view rows k = row := by
  simp [put, view]

theorem put_view_of_ne {k k' : K} (h : k' ≠ k) (row : V k) :
    (s.put k row).view rows k' = s.view rows k' := by
  simp [put, view, Function.update_of_ne h]

@[simp] theorem put_view (k : K) (row : V k) :
    (s.put k row).view rows = Function.update (s.view rows) k row := by
  funext k'
  by_cases h : k' = k
  · subst h
    simp
  · rw [put_view_of_ne s rows h, Function.update_of_ne h]

end Session

/-! ## Serial runs -/

/-- Which rows a transaction may have read in place of the ones that are now
committed: `rely locks k old new` says that, while a transaction held the given
locks and no lock on `k`, the row at `k` may have changed from `old` to `new`. -/
structure Rely (K : Type) (V : K → Type) where
  allows : (K → Bool) → ∀ k, V k → V k → Prop
  refl : ∀ locks k (row : V k), allows locks k row row
  trans : ∀ locks k (a b c : V k), allows locks k a b → allows locks k b c → allows locks k a c
  /-- Holding more locks rules out more changes. -/
  anti : ∀ locks locks' k (a b : V k), (∀ k', locks k' = true → locks' k' = true) →
    allows locks' k a b → allows locks k a b

namespace Tx

variable {K : Type} [DecidableEq K] {V : K → Type} {E α β : Type}

/-- One statement of a transaction that runs alone on the committed `rows`. -/
inductive Step (rely : Rely K V) (rows : ∀ k, V k) :
    Tx K V E α × Session K V E → Tx K V E α × Session K V E → Prop where
  | lock {k : K} {next : V k → Tx K V E α} {s : Session K V E} :
      Step rely rows (.lock k next, s) (next (s.view rows k), s.acquire k)
  | hit {k : K} {visible : V k → Bool} {next : Option (V k) → Tx K V E α}
      {s : Session K V E} (hvisible : visible (s.view rows k) = true) :
      Step rely rows (.tryLock k visible next, s) (next (some (s.view rows k)), s.acquire k)
  | miss {k : K} {visible : V k → Bool} {next : Option (V k) → Tx K V E α}
      {s : Session K V E} :
      Step rely rows (.tryLock k visible next, s) (next none, s)
  | peek {k : K} {next : V k → Tx K V E α} {s : Session K V E} {row : V k}
      (hrow : rely.allows s.locks k row (rows k)) (hlocked : s.locks k = true → row = rows k) :
      Step rely rows (.peek k next, s) (next ((s.pending k).getD row), s)
  | write {k : K} {row : V k} {next : Tx K V E α} {s : Session K V E}
      (hlocked : s.locks k = true) :
      Step rely rows (.write k row next, s) (next, s.put k row)
  | sweep {matching : ∀ k, V k → Bool} {update : ∀ k, V k → V k} {next : Tx K V E α}
      {s : Session K V E} {seen : ∀ k, V k}
      (hseen : ∀ k, rely.allows s.locks k (seen k) (rows k))
      (hexact : ∀ k, (s.sweep seen matching update).locks k = true → seen k = rows k) :
      Step rely rows (.sweep matching update next, s) (next, s.sweep seen matching update)
  | emit {e : E} {next : Tx K V E α} {s : Session K V E} :
      Step rely rows (.emit e next, s) (next, s.note e)

variable (rely : Rely K V) (rows : ∀ k, V k)

/-- `Visits rely rows p s q t`: running `p` from session `s` alone on the
committed `rows` reaches a point where `q` remains to be run and the session is
`t`. -/
def Visits (p : Tx K V E α) (s : Session K V E) (q : Tx K V E α) (t : Session K V E) : Prop :=
  Relation.ReflTransGen (Step rely rows) (p, s) (q, t)

/-- `Runs rely rows p s a t`: running `p` from session `s` alone on the
committed `rows` returns `a` and leaves the session `t`. -/
def Runs (p : Tx K V E α) (s : Session K V E) (a : α) (t : Session K V E) : Prop :=
  Visits rely rows p s (.pure a) t

variable {rely rows}

@[simp] theorem runs_pure {a b : α} {s t : Session K V E} :
    Runs rely rows (.pure a) s b t ↔ b = a ∧ t = s := by
  constructor
  · intro h
    rcases Relation.ReflTransGen.cases_head h with heq | ⟨_, hstep, _⟩
    · simp only [Prod.mk.injEq, Tx.pure.injEq] at heq
      exact ⟨heq.1.symm, heq.2.symm⟩
    · cases hstep
  · rintro ⟨rfl, rfl⟩
    exact Relation.ReflTransGen.refl

/-- A program that has not returned runs by taking a step. -/
theorem runs_iff_step {p : Tx K V E α} {a : α} {s t : Session K V E}
    (hp : ∀ b, p ≠ .pure b) :
    Runs rely rows p s a t ↔
      ∃ q u, Step rely rows (p, s) (q, u) ∧ Runs rely rows q u a t := by
  constructor
  · intro h
    rcases Relation.ReflTransGen.cases_head h with heq | ⟨⟨q, u⟩, hstep, hrest⟩
    · exact absurd (congrArg Prod.fst heq) (hp a)
    · exact ⟨q, u, hstep, hrest⟩
  · rintro ⟨q, u, hstep, hrest⟩
    exact Relation.ReflTransGen.head hstep hrest

@[simp] theorem runs_fail {a : α} {s t : Session K V E} :
    Runs rely rows (.fail : Tx K V E α) s a t ↔ False := by
  rw [runs_iff_step (by simp)]
  simp only [iff_false, not_exists, not_and]
  intro q u hstep
  cases hstep

@[simp] theorem runs_lock {k : K} {next : V k → Tx K V E α} {a : α} {s t : Session K V E} :
    Runs rely rows (.lock k next) s a t ↔
      Runs rely rows (next (s.view rows k)) (s.acquire k) a t := by
  rw [runs_iff_step (by simp)]
  constructor
  · rintro ⟨q, u, hstep, hrest⟩
    cases hstep
    exact hrest
  · intro h
    exact ⟨_, _, .lock, h⟩

@[simp] theorem runs_tryLock {k : K} {visible : V k → Bool}
    {next : Option (V k) → Tx K V E α} {a : α} {s t : Session K V E} :
    Runs rely rows (.tryLock k visible next) s a t ↔
      (visible (s.view rows k) = true ∧
        Runs rely rows (next (some (s.view rows k))) (s.acquire k) a t) ∨
      Runs rely rows (next none) s a t := by
  rw [runs_iff_step (by simp)]
  constructor
  · rintro ⟨q, u, hstep, hrest⟩
    cases hstep with
    | hit hvisible => exact Or.inl ⟨hvisible, hrest⟩
    | miss => exact Or.inr hrest
  · rintro (⟨hvisible, h⟩ | h)
    · exact ⟨_, _, .hit hvisible, h⟩
    · exact ⟨_, _, .miss, h⟩

@[simp] theorem runs_peek {k : K} {next : V k → Tx K V E α} {a : α} {s t : Session K V E} :
    Runs rely rows (.peek k next) s a t ↔
      ∃ row, rely.allows s.locks k row (rows k) ∧ (s.locks k = true → row = rows k) ∧
        Runs rely rows (next ((s.pending k).getD row)) s a t := by
  rw [runs_iff_step (by simp)]
  constructor
  · rintro ⟨q, u, hstep, hrest⟩
    cases hstep with
    | peek hrow hlocked => exact ⟨_, hrow, hlocked, hrest⟩
  · rintro ⟨row, hrow, hlocked, h⟩
    exact ⟨_, _, .peek hrow hlocked, h⟩

@[simp] theorem runs_write {k : K} {row : V k} {next : Tx K V E α} {a : α}
    {s t : Session K V E} :
    Runs rely rows (.write k row next) s a t ↔
      s.locks k = true ∧ Runs rely rows next (s.put k row) a t := by
  rw [runs_iff_step (by simp)]
  constructor
  · rintro ⟨q, u, hstep, hrest⟩
    cases hstep with
    | write hlocked => exact ⟨hlocked, hrest⟩
  · rintro ⟨hlocked, h⟩
    exact ⟨_, _, .write hlocked, h⟩

@[simp] theorem runs_sweep {matching : ∀ k, V k → Bool} {update : ∀ k, V k → V k}
    {next : Tx K V E α} {a : α} {s t : Session K V E} :
    Runs rely rows (.sweep matching update next) s a t ↔
      ∃ seen : ∀ k, V k,
        (∀ k, rely.allows s.locks k (seen k) (rows k)) ∧
        (∀ k, (s.sweep seen matching update).locks k = true → seen k = rows k) ∧
        Runs rely rows next (s.sweep seen matching update) a t := by
  rw [runs_iff_step (by simp)]
  constructor
  · rintro ⟨q, u, hstep, hrest⟩
    cases hstep with
    | sweep hseen hexact => exact ⟨_, hseen, hexact, hrest⟩
  · rintro ⟨seen, hseen, hexact, h⟩
    exact ⟨_, _, .sweep hseen hexact, h⟩

@[simp] theorem runs_emit {e : E} {next : Tx K V E α} {a : α} {s t : Session K V E} :
    Runs rely rows (.emit e next) s a t ↔ Runs rely rows next (s.note e) a t := by
  rw [runs_iff_step (by simp)]
  constructor
  · rintro ⟨q, u, hstep, hrest⟩
    cases hstep
    exact hrest
  · intro h
    exact ⟨_, _, .emit, h⟩

/-! ## Sequential composition -/

/-- The first part of a composition steps on its own. -/
theorem Step.bind {p q : Tx K V E α} {s t : Session K V E} (rest : α → Tx K V E β)
    (h : Step rely rows (p, s) (q, t)) :
    Step rely rows (p.bind rest, s) (q.bind rest, t) := by
  cases h with
  | lock => exact .lock
  | hit hvisible => exact .hit hvisible
  | miss => exact .miss
  | peek hrow hlocked => exact .peek hrow hlocked
  | write hlocked => exact .write hlocked
  | sweep hseen hexact => exact .sweep hseen hexact
  | emit => exact .emit

/-- A composition whose first part has not returned steps in that part. -/
theorem Step.of_bind {p : Tx K V E α} {rest : α → Tx K V E β} {s t : Session K V E}
    {q : Tx K V E β} (hp : ∀ a, p ≠ .pure a) (h : Step rely rows (p.bind rest, s) (q, t)) :
    ∃ p', q = p'.bind rest ∧ Step rely rows (p, s) (p', t) := by
  cases p with
  | pure a => exact absurd rfl (hp a)
  | fail => cases h
  | lock k next => cases h; exact ⟨_, rfl, .lock⟩
  | tryLock k visible next =>
      cases h with
      | hit hvisible => exact ⟨_, rfl, .hit hvisible⟩
      | miss => exact ⟨_, rfl, .miss⟩
  | peek k next => cases h with | peek hrow hlocked => exact ⟨_, rfl, .peek hrow hlocked⟩
  | write k row next => cases h with | write hlocked => exact ⟨_, rfl, .write hlocked⟩
  | sweep matching update next =>
      cases h with | sweep hseen hexact => exact ⟨_, rfl, .sweep hseen hexact⟩
  | emit e next => cases h; exact ⟨_, rfl, .emit⟩

/-- A composition is either still in its first part, or the first part has
returned and the rest has been entered. -/
theorem visits_bind {p : Tx K V E α} {rest : α → Tx K V E β} {s u : Session K V E}
    {q : Tx K V E β} (h : Visits rely rows (p.bind rest) s q u) :
    (∃ p', q = p'.bind rest ∧ Visits rely rows p s p' u) ∨
      ∃ a t, Runs rely rows p s a t ∧ Visits rely rows (rest a) t q u := by
  unfold Visits at h
  generalize hstart : (p.bind rest, s) = start at h
  generalize hfinish : (q, u) = finish at h
  induction h using Relation.ReflTransGen.head_induction_on generalizing p s with
  | refl =>
      subst hfinish
      obtain ⟨rfl, rfl⟩ := Prod.mk.inj hstart
      exact Or.inl ⟨p, rfl, .refl⟩
  | head hstep hrest ih =>
      rename_i first second
      subst hstart
      obtain ⟨p₂, s₂⟩ := second
      by_cases hp : ∃ a, p = .pure a
      · obtain ⟨a, rfl⟩ := hp
        refine Or.inr ⟨a, s, by simp, ?_⟩
        subst hfinish
        exact .head hstep hrest
      · simp only [not_exists] at hp
        obtain ⟨p', rfl, hstep'⟩ := Step.of_bind hp hstep
        rcases ih rfl with ⟨p'', hq, hvisits⟩ | ⟨a, t, hruns, hvisits⟩
        · exact Or.inl ⟨p'', hq, .head hstep' hvisits⟩
        · exact Or.inr ⟨a, t, .head hstep' hruns, hvisits⟩

theorem runs_bind {p : Tx K V E α} {rest : α → Tx K V E β} {s u : Session K V E} {b : β} :
    Runs rely rows (p >>= rest) s b u ↔
      ∃ a t, Runs rely rows p s a t ∧ Runs rely rows (rest a) t b u := by
  constructor
  · intro h
    rcases visits_bind h with ⟨p', hpure, hp'⟩ | hdone
    · cases p' with
      | pure a =>
          refine ⟨a, u, hp', ?_⟩
          rw [Runs, hpure]
          exact .refl
      | _ => simp [Tx.bind] at hpure
    · exact hdone
  · rintro ⟨a, t, hfirst, hrest⟩
    have hlift : Visits rely rows (p.bind rest) s (rest a) t :=
      Relation.ReflTransGen.lift (fun c : Tx K V E α × Session K V E => (c.1.bind rest, c.2))
        (fun _ _ hstep => Step.bind rest hstep) _ _ hfirst
    exact hlift.trans hrest

/-! ## What a serial run keeps -/

/-- Locks are held until the transaction ends. -/
theorem Step.locks_mono {c c' : Tx K V E α × Session K V E} (h : Step rely rows c c') :
    ∀ k, c.2.locks k = true → c'.2.locks k = true := by
  intro k hk
  cases h with
  | lock => exact (Session.acquire_locks _ _ k).mpr (Or.inr hk)
  | hit _ => exact (Session.acquire_locks _ _ k).mpr (Or.inr hk)
  | sweep _ _ => exact Session.sweep_locks _ _ _ _ k (Or.inl hk)
  | _ => exact hk

theorem Visits.locks_mono {p q : Tx K V E α} {s t : Session K V E}
    (h : Visits rely rows p s q t) : ∀ k, s.locks k = true → t.locks k = true := by
  intro k hk
  unfold Visits at h
  generalize hfinish : (q, t) = finish at h
  induction h generalizing q t with
  | refl => obtain ⟨-, rfl⟩ := Prod.mk.inj hfinish; exact hk
  | tail _ hlast ih => subst hfinish; exact hlast.locks_mono k (ih rfl)

/-- Only locked rows are written. -/
theorem Step.disciplined {c c' : Tx K V E α × Session K V E} (h : Step rely rows c c')
    (hc : c.2.Disciplined) : c'.2.Disciplined := by
  cases h with
  | lock => exact fun k hk => (Session.acquire_locks _ _ k).mpr (Or.inr (hc k hk))
  | hit _ => exact fun k hk => (Session.acquire_locks _ _ k).mpr (Or.inr (hc k hk))
  | miss => exact hc
  | peek _ _ => exact hc
  | @write k' row next s hlocked =>
      intro k hk
      by_cases hkk : k = k'
      · subst hkk; exact hlocked
      · refine hc k ?_
        simpa [Session.put, Function.update_of_ne hkk] using hk
  | @sweep matching update next s seen _ _ =>
      intro k hk
      refine Session.sweep_locks _ _ _ _ k ?_
      by_cases hmatch : matching k (s.view seen k) = true
      · exact Or.inr hmatch
      · refine Or.inl (hc k ?_)
        simpa [Session.sweep, hmatch] using hk
  | emit => exact hc

theorem Visits.disciplined {p q : Tx K V E α} {s t : Session K V E}
    (h : Visits rely rows p s q t) (hs : s.Disciplined) : t.Disciplined := by
  unfold Visits at h
  generalize hfinish : (q, t) = finish at h
  induction h generalizing q t with
  | refl => obtain ⟨-, rfl⟩ := Prod.mk.inj hfinish; exact hs
  | tail _ hlast ih => subst hfinish; exact hlast.disciplined (ih rfl)

/-! ## Stability

A transaction that ran on `rows` would have run the same way on `rows'`, as
long as the rows it has locked are the same in both, and the others changed
only as far as `rely` allows. -/

theorem Step.stable {rows' : ∀ k, V k} {c c' : Tx K V E α × Session K V E}
    (h : Step rely rows c c')
    (hlocked : ∀ k, c'.2.locks k = true → rows' k = rows k)
    (hrely : ∀ k, rely.allows c'.2.locks k (rows k) (rows' k)) :
    Step rely rows' c c' := by
  cases h with
  | @lock k next s =>
      have hrow : rows' k = rows k := hlocked k (by simp)
      have hview : s.view rows k = s.view rows' k := by simp [Session.view, hrow]
      rw [hview]
      exact .lock
  | @hit k visible next s hvisible =>
      have hrow : rows' k = rows k := hlocked k (by simp)
      have hview : s.view rows k = s.view rows' k := by simp [Session.view, hrow]
      rw [hview] at hvisible ⊢
      exact .hit hvisible
  | miss => exact .miss
  | @peek k next s row hrow hheld =>
      refine .peek (rely.trans _ _ _ _ _ hrow (hrely k)) ?_
      intro hk
      rw [hlocked k hk]
      exact hheld hk
  | write hk => exact .write hk
  | @sweep matching update next s seen hseen hexact =>
      refine .sweep ?_ ?_
      · intro k
        refine rely.trans _ _ _ _ _ (hseen k) ?_
        exact rely.anti _ _ _ _ _ (fun k' hk' => Session.sweep_locks _ _ _ _ k' (Or.inl hk'))
          (hrely k)
      · intro k hk
        rw [hlocked k hk]
        exact hexact k hk
  | emit => exact .emit

theorem Visits.stable {rows' : ∀ k, V k} {p q : Tx K V E α} {s t : Session K V E}
    (h : Visits rely rows p s q t)
    (hlocked : ∀ k, t.locks k = true → rows' k = rows k)
    (hrely : ∀ k, rely.allows t.locks k (rows k) (rows' k)) :
    Visits rely rows' p s q t := by
  unfold Visits at h ⊢
  generalize hfinish : (q, t) = finish at h ⊢
  induction h generalizing q t with
  | refl => exact .refl
  | @tail mid last _ hlast ih =>
      subst hfinish
      have hmono := hlast.locks_mono
      have hmid : Relation.ReflTransGen (Step rely rows') (p, s) mid :=
        ih (q := mid.1) (t := mid.2) (fun k hk => hlocked k (hmono k hk))
          (fun k => rely.anti _ _ _ _ _ hmono (hrely k)) rfl
      exact hmid.tail (hlast.stable hlocked hrely)

end Tx

end Runkit.Foundation
