/-
  MessagePump.lean --- delivering messages from a queue, one transaction each.

  Source: internal/messagepump/pump.go, driver.go, delivery.go, commandqueue.go
  and internal/x/xsql/tx.go.

  A message pump acquires a delivery, handles it and commits, all within one
  transaction.  The dispatcher and the workers of a pump hand a transaction
  over from one goroutine to another, so any number of transactions of one pump
  can be open at once, as can those of other pumps and other nodes.
-/
import Runkit.Foundation.Observation
import Runkit.Schema.Functions

set_option autoImplicit false

namespace Runkit.MessagePump

open Runkit.Foundation Runkit.Schema Runkit.Schema.Stmt

variable {E α β : Type} {rely : Rely Key Row} {rows : Database}

/-! ## Transactions -/

/-- `xsql.Transact`: the transaction commits if `p` returns, and is rolled back
if it fails. -/
def transact (p : Stmt E α) : Tx Key Row E α :=
  p.run >>= fun
    | .ok a => .pure a
    | .error _ => .fail

/-- Run `p` and go on whether or not it fails. -/
def attempt (p : Stmt E α) : Stmt E (Except Error α) := ExceptT.lift p.run

theorem runs_transact {p : Stmt E α} {a : α} {s t : Session Key Row E} :
    Tx.Runs rely rows (transact p) s a t ↔ Tx.Runs rely rows p.run s (.ok a) t := by
  unfold transact
  rw [Tx.runs_bind]
  constructor
  · intro h
    obtain ⟨r, u, hp, hrest⟩ := h
    cases r with
    | ok b =>
        obtain ⟨rfl, rfl⟩ := Tx.runs_pure.mp hrest
        exact hp
    | error e => exact absurd hrest (by simp)
  · intro h
    exact ⟨.ok a, t, h, by simp⟩

theorem runs_attempt_bind {p : Stmt E α} {rest : Except Error α → Stmt E β}
    {r : Except Error β} {s t : Session Key Row E} :
    Tx.Runs rely rows (attempt p >>= rest).run s r t ↔
      ∃ x u, Tx.Runs rely rows p.run s x u ∧ Tx.Runs rely rows (rest x).run u r t := by
  have hbind : (attempt p >>= rest).run =
      (p.run >>= fun x => Tx.pure (.ok x)) >>= ExceptT.bindCont rest := rfl
  rw [hbind, Tx.runs_bind]
  constructor
  · intro h
    obtain ⟨y, u, hp, hrest⟩ := h
    obtain ⟨x, v, hx, hy⟩ := Tx.runs_bind.mp hp
    obtain ⟨rfl, rfl⟩ := Tx.runs_pure.mp hy
    exact ⟨x, u, hx, hrest⟩
  · intro h
    obtain ⟨x, u, hp, hrest⟩ := h
    exact ⟨.ok x, u, Tx.runs_bind.mpr ⟨x, u, hp, by simp⟩, hrest⟩

/-! ## Backoff -/

/-- The backoff settings of a `MessagePump`, in nanoseconds. -/
structure Backoff where
  backoffBase : Int
  backoffCap : Int
  deriving DecidableEq, Repr

/-- The 64-bit signed integer that `n` wraps around to. -/
def wrap64 (n : Int) : Int := n.bmod (2 ^ 64)

/-- `rand.N`, which panics unless its argument is positive.  Which of the
possible values it returns is decided by `random`. -/
def randN (random : Nat) (n : Int) : Option Int :=
  if 0 < n then some ((random : Int) % n) else none

/-- `MessagePump.computeBackoff`, or `none` if it panics. -/
def computeBackoff (p : Backoff) (n : Nat) (random : Nat) : Option Int :=
  if p.backoffBase ≤ 0 ∨ p.backoffCap ≤ p.backoffBase then
    some p.backoffBase
  else
    let limit := wrap64 (p.backoffBase * 2 ^ n)
    let limit := if limit ≤ 0 ∨ limit > p.backoffCap then p.backoffCap else limit
    (randN random (wrap64 (limit - p.backoffBase))).map (p.backoffBase + ·)

theorem randN_nonneg {random : Nat} {n k : Int} (h : randN random n = some k) : 0 ≤ k := by
  unfold randN at h
  split at h
  · rename_i hpositive
    cases h
    exact Int.emod_nonneg _ hpositive.ne'
  · cases h

/-- A delivery is postponed by `BackoffBase` or more. -/
theorem backoffBase_le {p : Backoff} {n random : Nat} {delay : Int}
    (h : computeBackoff p n random = some delay) : p.backoffBase ≤ delay := by
  unfold computeBackoff at h
  split at h
  · cases h
    exact le_refl _
  · obtain ⟨jitter, hjitter, rfl⟩ := Option.map_eq_some_iff.mp h
    have hnonneg := randN_nonneg hjitter
    omega

/-! ## Drivers -/

/-- `messagepump.Delivery`. -/
structure Delivery where
  messageID : UUID
  messageTypeID : UUID
  envelope : Envelope
  failures : Nat
  deriving DecidableEq, Repr

/-- `messagepump.Driver`. -/
structure Driver (E : Type) where
  acquireDelivery : Stmt E (Option Delivery)
  postponeDelivery : Delivery → Int → Stmt E Unit
  handleDelivery : Delivery → Envelope → Stmt E Unit

/-- How a transaction of a message pump ended, and which message it acquired. -/
inductive Outcome where
  /-- There was nothing to deliver. -/
  | idle
  /-- The envelope could not be unmarshaled. -/
  | unreadable (messageID : UUID)
  | delivered (messageID : UUID)
  /-- The driver returned `ErrFailed`. -/
  | failed (messageID : UUID)
  /-- The driver returned `ErrBusy`. -/
  | busy (messageID : UUID)
  deriving DecidableEq, Repr

/-- What the pump meets while it runs a transaction: the rows that the query for
pending deliveries visits, the time at which it does so, whether the envelope
can be unmarshaled, the random number for the backoff, and the time of the
database's clock at which the delivery is postponed. -/
structure Circumstances where
  visited : List UUID
  acquiredAt : Time
  readable : Bool
  random : Nat
  postponedAt : Time
  deriving DecidableEq, Repr, Inhabited

/-- Record a failure of the delivery and postpone it. -/
def postponeFailure (driver : Driver E) (p : Backoff) (c : Circumstances) (del : Delivery) :
    Stmt E Unit :=
  let del := { del with failures := del.failures + 1 }
  match computeBackoff p del.failures c.random with
  | none => abort
  | some delay => driver.postponeDelivery del delay

/-- `MessagePump.doHandle`, up to the commit. -/
def doHandle (driver : Driver E) (p : Backoff) (c : Circumstances) (del : Delivery)
    (env : Envelope) : Stmt E Outcome := do
  match ← attempt (driver.handleDelivery del env) with
  | .ok _ => return .delivered del.messageID
  | .error .failed =>
      postponeFailure driver p c del
      return .failed del.messageID
  | .error .busy =>
      driver.postponeDelivery del p.backoffBase
      return .busy del.messageID

/-- One transaction of a message pump: `doAcquireDelivery`, one iteration of the
loop in `doAcquireTask`, and `doHandle`. -/
def deliver (driver : Driver E) (p : Backoff) (c : Circumstances) : Stmt E Outcome := do
  match ← driver.acquireDelivery with
  | none => return .idle
  | some del =>
      if c.readable then
        doHandle driver p c del del.envelope
      else
        postponeFailure driver p c del
        return .unreadable del.messageID

theorem postponeFailure_runs {driver : Driver E} {p : Backoff} {c : Circumstances}
    {del : Delivery} {r : Except Error Unit} {s t : Session Key Row E}
    (h : Tx.Runs rely rows (postponeFailure driver p c del).run s r t) :
    ∃ delay, p.backoffBase ≤ delay ∧ Tx.Runs rely rows
      (driver.postponeDelivery { del with failures := del.failures + 1 } delay).run s r t := by
  unfold postponeFailure at h
  dsimp only at h
  split at h
  · exact absurd h (by simp)
  · rename_i hdelay
    exact ⟨_, backoffBase_le hdelay, h⟩

/-- What a transaction of a message pump can do, in terms of what its driver
does. -/
theorem deliver_runs {driver : Driver E} {p : Backoff} {c : Circumstances} {o : Outcome}
    {s t : Session Key Row E} (h : Tx.Runs rely rows (deliver driver p c).run s (.ok o) t) :
    (o = .idle ∧ Tx.Runs rely rows driver.acquireDelivery.run s (.ok none) t) ∨
      ∃ del u, Tx.Runs rely rows driver.acquireDelivery.run s (.ok (some del)) u ∧
        ((∃ delay, p.backoffBase ≤ delay ∧ o = .unreadable del.messageID ∧ Tx.Runs rely rows
            (driver.postponeDelivery { del with failures := del.failures + 1 } delay).run
              u (.ok ()) t) ∨
          (o = .delivered del.messageID ∧ Tx.Runs rely rows
            (driver.handleDelivery del del.envelope).run u (.ok ()) t) ∨
          (∃ delay v, p.backoffBase ≤ delay ∧ o = .failed del.messageID ∧
            Tx.Runs rely rows (driver.handleDelivery del del.envelope).run
              u (.error .failed) v ∧
            Tx.Runs rely rows
              (driver.postponeDelivery { del with failures := del.failures + 1 } delay).run
                v (.ok ()) t) ∨
          (∃ delay v, p.backoffBase ≤ delay ∧ o = .busy del.messageID ∧
            Tx.Runs rely rows (driver.handleDelivery del del.envelope).run
              u (.error .busy) v ∧
            Tx.Runs rely rows (driver.postponeDelivery del delay).run v (.ok ()) t)) := by
  unfold deliver at h
  obtain ⟨acquired, u, hacquire, hrest⟩ := Tx.runs_ok_bind h
  cases acquired with
  | none =>
      obtain ⟨hr, rfl⟩ := Tx.runs_ok.mp hrest
      cases hr
      exact Or.inl ⟨rfl, hacquire⟩
  | some del =>
      refine Or.inr ⟨del, u, hacquire, ?_⟩
      dsimp only at hrest
      split at hrest
      · unfold doHandle at hrest
        rw [runs_attempt_bind] at hrest
        obtain ⟨x, v, hhandle, hrest⟩ := hrest
        rcases x with (_ | _) | _
        · obtain ⟨_, rfl, hpostpone⟩ := Tx.runs_ok_return hrest
          obtain ⟨delay, hbase, hdelay⟩ := postponeFailure_runs hpostpone
          exact Or.inr (Or.inr (Or.inl ⟨delay, v, hbase, rfl, hhandle, hdelay⟩))
        · obtain ⟨_, rfl, hpostpone⟩ := Tx.runs_ok_return hrest
          exact Or.inr (Or.inr (Or.inr ⟨_, v, le_refl _, rfl, hhandle, hpostpone⟩))
        · obtain ⟨hr, rfl⟩ := Tx.runs_ok.mp hrest
          cases hr
          exact Or.inr (Or.inl ⟨rfl, hhandle⟩)
      · obtain ⟨_, rfl, hpostpone⟩ := Tx.runs_ok_return hrest
        obtain ⟨delay, hbase, hdelay⟩ := postponeFailure_runs hpostpone
        exact Or.inl ⟨delay, hbase, rfl, hdelay⟩

/-! ## Commands -/

/-- Whether a pending command is due and of one of the given types. -/
def commandIsDue (messageTypeIDs : Finset UUID) (now : Time) (row : Option CommandRow) : Bool :=
  match row with
  | none => false
  | some row => decide (row.messageTypeID ∈ messageTypeIDs) && decide (row.deliverAt ≤ now)

/-- The delivery of the command in the given row. -/
def commandDelivery (messageID : UUID) (row : CommandRow) : Delivery where
  messageID := messageID
  messageTypeID := row.messageTypeID
  envelope := row.envelope
  failures := row.failures

/-- `AcquireCommandDelivery`: the first of the visited commands that is due and
not locked by another transaction. -/
def acquireCommandDelivery (messageTypeIDs : Finset UUID) (now : Time) :
    List UUID → Stmt E (Option Delivery)
  | [] => return none
  | messageID :: rest => do
      match ← tryLock (.command messageID) (commandIsDue messageTypeIDs now) with
      | some (some row) => return some (commandDelivery messageID row)
      | _ => acquireCommandDelivery messageTypeIDs now rest

/-- `PostponeCommandDelivery`, at the time `now` of the database's clock. -/
def postponeCommandDelivery (now : Time) (del : Delivery) (delay : Int) : Stmt E Unit := do
  match ← lock (.command del.messageID) with
  | none => abort
  | some row =>
      write (.command del.messageID)
        (some { row with failures := del.failures, deliverAt := now + delay })

theorem acquireCommandDelivery_runs {messageTypeIDs : Finset UUID} {now : Time}
    {visited : List UUID} {r : Except Error (Option Delivery)} {s t : Session Key Row E}
    (h : Tx.Runs rely rows
      (acquireCommandDelivery messageTypeIDs now visited : Stmt E _).run s r t) :
    (r = .ok none ∧ t = s) ∨
      ∃ messageID row, r = .ok (some (commandDelivery messageID row)) ∧
        s.view rows (.command messageID) = some row ∧ row.messageTypeID ∈ messageTypeIDs ∧
        t = s.acquire (.command messageID) := by
  induction visited with
  | nil => exact Or.inl (Tx.runs_ok.mp h)
  | cons messageID rest ih =>
      rw [acquireCommandDelivery, Tx.runs_tryLock_bind] at h
      obtain ⟨hvisible, hdone⟩ | hrest := h
      · cases hrow : s.view rows (.command messageID) with
        | none => simp [hrow, commandIsDue] at hvisible
        | some row =>
            simp only [hrow, Tx.runs_ok] at hdone
            simp only [hrow, commandIsDue, Bool.and_eq_true, decide_eq_true_eq] at hvisible
            exact Or.inr ⟨messageID, row, hdone.1, hrow, hvisible.1, hdone.2⟩
      · exact ih hrest

theorem postponeCommandDelivery_runs {now : Time} {del : Delivery} {delay : Int}
    {r : Except Error Unit} {s t : Session Key Row E}
    (h : Tx.Runs rely rows (postponeCommandDelivery now del delay : Stmt E _).run s r t) :
    ∃ row, s.view rows (.command del.messageID) = some row ∧ r = .ok () ∧
      t = (s.acquire (.command del.messageID)).put (.command del.messageID)
        (some { row with failures := del.failures, deliverAt := now + delay }) := by
  unfold postponeCommandDelivery at h
  rw [Tx.runs_lock_bind] at h
  cases hrow : s.view rows (.command del.messageID) with
  | none => simp [hrow] at h
  | some row =>
      simp only [hrow, Tx.runs_write_last, Session.acquire_locks_self, true_and] at h
      exact ⟨row, rfl, h⟩

/-! ## What is committed -/

/-- The row of a command after its delivery has been postponed. -/
def postponed (row : CommandRow) (failures : Nat) (deliverAt : Time) : CommandRow :=
  { row with failures := failures, deliverAt := deliverAt }

/-- What a transaction that delivers commands can commit: `completes` says what
handling the command of the given ID and envelope does when it succeeds, and
`leaves` says what it has done when it returns an error. -/
inductive CommandCommitted (completes : UUID → Envelope → Database → Prop)
    (leaves : Error → Database → Prop) (before : Database) : Outcome → Database → Prop where
  | idle : CommandCommitted completes leaves before .idle before
  | unreadable {messageID : UUID} {row : CommandRow} {deliverAt : Time}
      (hrow : before (.command messageID) = some row) :
      CommandCommitted completes leaves before (.unreadable messageID)
        (Function.update before (.command messageID)
          (some (postponed row (row.failures + 1) deliverAt)))
  | delivered {messageID : UUID} {row : CommandRow} {after : Database}
      (hrow : before (.command messageID) = some row)
      (hcompletes : completes messageID row.envelope after) :
      CommandCommitted completes leaves before (.delivered messageID) after
  | failed {messageID : UUID} {row : CommandRow} {deliverAt : Time} {left : Database}
      (hrow : before (.command messageID) = some row)
      (hleaves : leaves .failed left) :
      CommandCommitted completes leaves before (.failed messageID)
        (Function.update left (.command messageID)
          (some (postponed row (row.failures + 1) deliverAt)))
  | busy {messageID : UUID} {row : CommandRow} {deliverAt : Time} {left : Database}
      (hrow : before (.command messageID) = some row)
      (hleaves : leaves .busy left) :
      CommandCommitted completes leaves before (.busy messageID)
        (Function.update left (.command messageID)
          (some (postponed row row.failures deliverAt)))

/-- A driver that takes its deliveries from the command queue. -/
structure Driver.OfCommands (driver : Driver E) (messageTypeIDs : Finset UUID)
    (c : Circumstances) : Prop where
  acquire : driver.acquireDelivery =
    acquireCommandDelivery messageTypeIDs c.acquiredAt c.visited
  postpone : driver.postponeDelivery = postponeCommandDelivery c.postponedAt

theorem Driver.OfCommands.committed {driver : Driver E} {messageTypeIDs : Finset UUID}
    {p : Backoff} {c : Circumstances} (hdriver : driver.OfCommands messageTypeIDs c)
    (completes : (Key → Bool) → UUID → Envelope → Database → Prop)
    (leaves : Error → Database → Prop)
    (hcompletes : ∀ messageID row t, rows (.command messageID) = some row →
      Tx.Runs rely rows
        (driver.handleDelivery (commandDelivery messageID row) row.envelope).run
        (Session.start.acquire (.command messageID)) (.ok ()) t →
      completes t.locks messageID row.envelope (t.view rows))
    (hleaves : ∀ messageID row e t, rows (.command messageID) = some row →
      Tx.Runs rely rows
        (driver.handleDelivery (commandDelivery messageID row) row.envelope).run
        (Session.start.acquire (.command messageID)) (.error e) t →
      leaves e (t.view rows) ∧ t.view rows (.command messageID) = some row)
    {o : Outcome} {t : Session Key Row E}
    (h : Tx.Runs rely rows (deliver driver p c).run .start (.ok o) t) :
    CommandCommitted (completes t.locks) leaves rows o (t.view rows) := by
  obtain ⟨rfl, hacquire⟩ | ⟨del, u, hacquire, hcases⟩ := deliver_runs h
  · rw [hdriver.acquire] at hacquire
    obtain ⟨-, rfl⟩ | ⟨_, _, hr, -⟩ := acquireCommandDelivery_runs hacquire
    · exact .idle
    · cases hr
  · rw [hdriver.acquire] at hacquire
    rw [hdriver.postpone] at hcases
    obtain ⟨hr, -⟩ | ⟨messageID, row, hr, hrow, -, rfl⟩ := acquireCommandDelivery_runs hacquire
    · cases hr
    cases hr
    have hstart : rows (.command messageID) = some row := hrow
    obtain ⟨delay, -, rfl, hpostpone⟩ | ⟨rfl, hhandle⟩ | ⟨delay, v, -, rfl, hhandle, hpostpone⟩ |
      ⟨delay, v, -, rfl, hhandle, hpostpone⟩ := hcases
    · obtain ⟨row', hrow', -, rfl⟩ := postponeCommandDelivery_runs hpostpone
      have heq : row' = row := by
        rw [Session.acquire_view] at hrow'
        exact Option.some.inj (hrow'.symm.trans hrow)
      subst heq
      simpa using .unreadable hstart
    · exact .delivered hstart (hcompletes messageID row t hstart hhandle)
    · obtain ⟨hleft, hsame⟩ := hleaves messageID row .failed v hstart hhandle
      obtain ⟨row', hrow', -, rfl⟩ := postponeCommandDelivery_runs hpostpone
      have heq : row' = row := Option.some.inj (hrow'.symm.trans hsame)
      subst heq
      simpa using .failed hstart hleft
    · obtain ⟨hleft, hsame⟩ := hleaves messageID row .busy v hstart hhandle
      obtain ⟨row', hrow', -, rfl⟩ := postponeCommandDelivery_runs hpostpone
      have heq : row' = row := Option.some.inj (hrow'.symm.trans hsame)
      subst heq
      simpa using .busy hstart hleft

/-! ## What is observed -/

/-- The program emits no observations. -/
abbrev Silent (p : Stmt E α) : Prop := Tx.Emits (fun _ => False) p.run

theorem acquireCommandDelivery_silent {messageTypeIDs : Finset UUID} {now : Time}
    {visited : List UUID} :
    Silent (E := E) (acquireCommandDelivery messageTypeIDs now visited) := by
  induction visited with
  | nil => exact Tx.emits_ok
  | cons messageID rest ih =>
      unfold acquireCommandDelivery
      refine Tx.Emits.except_bind Tx.emits_tryLock ?_
      intro row
      split
      · exact Tx.emits_ok
      · exact ih

theorem postponeCommandDelivery_silent {now : Time} {del : Delivery} {delay : Int} :
    Silent (E := E) (postponeCommandDelivery now del delay) := by
  unfold postponeCommandDelivery
  refine Tx.Emits.except_bind Tx.emits_lock ?_
  intro row
  split
  · exact Tx.emits_abort
  · exact Tx.emits_write

section Notes

variable {Φ : E → Session Key Row E → Prop} {s : Session Key Row E}

theorem Silent.notes {p : Stmt E α} (hp : Silent p) : Tx.Notes rely rows Φ p.run s :=
  Tx.Notes.of_emits hp fun _ _ hfalse => hfalse.elim

theorem transact_notes {p : Stmt E α} (hp : Tx.Notes rely rows Φ p.run s) :
    Tx.Notes rely rows Φ (transact p) s := by
  refine Tx.Notes.bind hp ?_
  intro x t _
  cases x <;> exact Tx.Notes.of_emits (P := fun _ => False) True.intro (by simp)

theorem attempt_bind_notes {p : Stmt E α} {rest : Except Error α → Stmt E β}
    (hp : Tx.Notes rely rows Φ p.run s)
    (hrest : ∀ x t, Tx.Notes rely rows Φ (rest x).run t) :
    Tx.Notes rely rows Φ (attempt p >>= rest).run s := by
  refine Tx.Notes.except_bind ?_ fun x t _ => hrest x t
  exact Tx.Notes.bind hp fun x t _ => Silent.notes (Tx.emits_ok (a := x))

/-- A transaction of a message pump observes what its driver observes while it
handles the delivery. -/
theorem deliver_notes {driver : Driver E} {p : Backoff} {c : Circumstances}
    (hacquire : Silent driver.acquireDelivery)
    (hpostpone : ∀ del delay, Silent (driver.postponeDelivery del delay))
    (hhandle : ∀ del t, Tx.Runs rely rows driver.acquireDelivery.run s (.ok (some del)) t →
      Tx.Notes rely rows Φ (driver.handleDelivery del del.envelope).run t) :
    Tx.Notes rely rows Φ (deliver driver p c).run s := by
  have hfailure : ∀ del, Silent (postponeFailure driver p c del) := by
    intro del
    unfold postponeFailure
    dsimp only
    split
    · exact Tx.emits_abort
    · exact hpostpone _ _
  unfold deliver
  refine Tx.Notes.except_bind (Silent.notes hacquire) ?_
  intro acquired u hruns
  cases acquired with
  | none => exact Silent.notes Tx.emits_ok
  | some del =>
      dsimp only
      split
      · refine attempt_bind_notes (hhandle del u hruns) ?_
        intro x t
        split
        · exact Silent.notes Tx.emits_ok
        · exact Silent.notes (Tx.Emits.except_bind (hfailure del) fun _ => Tx.emits_ok)
        · exact Silent.notes (Tx.Emits.except_bind (hpostpone del _) fun _ => Tx.emits_ok)
      · exact Silent.notes (Tx.Emits.except_bind (hfailure del) fun _ => Tx.emits_ok)

end Notes

/-! ## Which locks are requested -/

section Requests

variable {Φ : LockRequest Key Row → Session Key Row E → Prop} {s : Session Key Row E}

theorem transact_requests {p : Stmt E α} (hp : Tx.Requests rely rows Φ p.run s) :
    Tx.Requests rely rows Φ (transact p) s := by
  refine Tx.Requests.bind hp ?_
  intro x t _
  cases x <;> exact Tx.Requests.of_none True.intro

/-- A transaction of a message pump requests what its driver does. -/
theorem deliver_requests {driver : Driver E} {p : Backoff} {c : Circumstances}
    (hacquire : Tx.Requests rely rows Φ driver.acquireDelivery.run s)
    (hhandle : ∀ del t, Tx.Runs rely rows driver.acquireDelivery.run s (.ok (some del)) t →
      Tx.Requests rely rows Φ (driver.handleDelivery del del.envelope).run t)
    (hpostpone : ∀ del t, Tx.Runs rely rows driver.acquireDelivery.run s (.ok (some del)) t →
      ∀ del' delay u, del'.messageID = del.messageID →
        (∀ k, t.locks k = true → u.locks k = true) →
        Tx.Requests rely rows Φ (driver.postponeDelivery del' delay).run u) :
    Tx.Requests rely rows Φ (deliver driver p c).run s := by
  have hdone : ∀ {o : Outcome} {u : Session Key Row E},
      Tx.Requests rely rows Φ (pure o : Stmt E Outcome).run u :=
    Tx.Requests.of_none Tx.asks_ok
  unfold deliver
  refine Tx.Requests.except_bind hacquire ?_
  intro acquired t hruns
  cases acquired with
  | none => exact hdone
  | some del =>
      have hfailure : ∀ u, (∀ k, t.locks k = true → u.locks k = true) →
          Tx.Requests rely rows Φ (postponeFailure driver p c del).run u := by
        intro u hu
        unfold postponeFailure
        dsimp only
        split
        · exact Tx.Requests.of_none Tx.asks_abort
        · exact hpostpone del t hruns _ _ u rfl hu
      dsimp only
      split
      · refine Tx.Requests.except_bind (Tx.Requests.bind (hhandle del t hruns) ?_) ?_
        · exact fun x u _ => Tx.Requests.of_none (Tx.asks_ok (a := x))
        intro x u hattempt
        obtain ⟨y, v, hy, hx⟩ := Tx.runs_bind.mp hattempt
        obtain ⟨-, rfl⟩ := Tx.runs_pure.mp hx
        have hlocks := Tx.Visits.locks_mono hy
        split
        · exact hdone
        · exact Tx.Requests.except_bind (hfailure u hlocks) fun _ _ _ => hdone
        · exact Tx.Requests.except_bind (hpostpone del t hruns _ _ u rfl hlocks)
            fun _ _ _ => hdone
      · exact Tx.Requests.except_bind (hfailure t fun _ hk => hk) fun _ _ _ => hdone

end Requests

end Runkit.MessagePump
