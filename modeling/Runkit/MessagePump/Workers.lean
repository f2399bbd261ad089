/-
  MessagePump/Workers.lean --- the dispatcher and the workers of a message pump.

  Source: internal/messagepump/pump.go.

  The dispatcher begins a transaction, acquires a delivery within it, and sends the
  transaction to one of the workers, which handles the delivery and commits.  All of
  them run in one group: as soon as one fails, the others are stopped.  A transaction
  may end without the pump's doing at any time, when its connection is lost or because
  its context is done.

  `MessagePump.lean` treats what happens within one transaction as the program
  `deliver`.  Here each goroutine executes its own piece of it.  What they do together
  is what transactions that run `deliver` do (`Pumping.Step.pool`), and a transaction
  is never left open by the goroutine that ought to end it (`Pumping.Invariant`).
-/
import Mathlib.Data.Fintype.Option
import Runkit.Foundation.ErrGroup
import Runkit.Foundation.Ownership
import Runkit.Foundation.Staged
import Runkit.MessagePump

set_option autoImplicit false

namespace Runkit.MessagePump

open Runkit.Foundation Runkit.Schema Runkit.Schema.Stmt

variable {T A R E α β : Type}

/-! ## Pieces of a transaction -/

/-- What remains of a transaction once a piece of its program has returned. -/
def resume (rest : α → Stmt E β) : Except Error α → Tx Key Row E β
  | .ok a => transact (rest a)
  | .error _ => .fail

theorem transact_bind (p : Stmt E α) (rest : α → Stmt E β) :
    transact (p >>= rest) = p.run.bind (resume rest) := by
  have hbind : transact (p >>= rest) =
      (p.run.bind (ExceptT.bindCont rest)).bind fun
        | .ok b => .pure b
        | .error _ => .fail := rfl
  rw [hbind, Tx.bind_assoc]
  congr 1
  funext x
  cases x with
  | ok a => rfl
  | error e => rfl

theorem transact_attempt_bind (p : Stmt E α) (rest : Except Error α → Stmt E β) :
    transact (attempt p >>= rest) = p.run.bind fun x => transact (rest x) := by
  have hattempt : (attempt p).run = p.run.bind fun x => .pure (.ok x) := rfl
  rw [transact_bind, hattempt, Tx.bind_assoc]
  rfl

/-! ## The pump -/

/-- `MessagePump`, with what the transactions that it begins may meet (`A`). -/
structure Pump (A R E α : Type) where
  driver : A → Driver E
  circumstances : A → Circumstances
  backoff : Backoff
  workers : Nat
  /-- The transaction, as it is recorded. -/
  request : A → R
  result : Outcome → α

/-- Where the code that executes a transaction of the pump is, with what remains of the
call of the driver that it makes. -/
inductive Stage (E : Type) where
  /-- `doAcquireDelivery`. -/
  | acquiring (call : Tx Key Row E (Except Error (Option Delivery)))
  /-- `doAcquireTask`, after the envelope could not be unmarshaled. -/
  | unreadable (del : Delivery) (call : Tx Key Row E (Except Error Unit))
  /-- The transaction is part of a `deliveryTask`. -/
  | acquired (del : Delivery)
  /-- `doHandle`, in `HandleDelivery`. -/
  | handling (del : Delivery) (call : Tx Key Row E (Except Error Unit))
  /-- `doHandle`, in `PostponeDelivery`. -/
  | postponing (o : Outcome) (call : Tx Key Row E (Except Error Unit))

/-- What executes a transaction: other code than the pump's, with what remains of its
program, or the pump. -/
inductive Code (A E α : Type) where
  | other (rest : Tx Key Row E α)
  | own (a : A) (stage : Stage E)

/-- With what outcome the transaction is to be committed, if it is. -/
def Stage.outcome : Stage E → Option Outcome
  | .acquiring (.pure (.ok none)) => some .idle
  | .unreadable del (.pure (.ok _)) => some (.unreadable del.messageID)
  | .handling del (.pure (.ok _)) => some (.delivered del.messageID)
  | .postponing o (.pure (.ok _)) => some o
  | _ => none

/-- A statement of the call that the code makes. -/
inductive Stage.Advance (free : Key → Prop) (rows : Database) :
    Stage E × Session Key Row E → Stage E × Session Key Row E → Prop where
  | acquiring {q q' : Tx Key Row E (Except Error (Option Delivery))} {s s' : Session Key Row E}
      (h : Foundation.Advance free rows (q, s) (q', s')) :
      Advance free rows (.acquiring q, s) (.acquiring q', s')
  | unreadable {del : Delivery} {q q' : Tx Key Row E (Except Error Unit)}
      {s s' : Session Key Row E} (h : Foundation.Advance free rows (q, s) (q', s')) :
      Advance free rows (.unreadable del q, s) (.unreadable del q', s')
  | handling {del : Delivery} {q q' : Tx Key Row E (Except Error Unit)}
      {s s' : Session Key Row E} (h : Foundation.Advance free rows (q, s) (q', s')) :
      Advance free rows (.handling del q, s) (.handling del q', s')
  | postponing {o : Outcome} {q q' : Tx Key Row E (Except Error Unit)}
      {s s' : Session Key Row E} (h : Foundation.Advance free rows (q, s) (q', s')) :
      Advance free rows (.postponing o q, s) (.postponing o q', s')

namespace Pump

variable (p : Pump A R E α)

/-- The number of workers. -/
def size : Nat := max 1 p.workers

/-- Commit with the outcome that `call` returns. -/
def finish (call : Stmt E Outcome) : Tx Key Row E α := transact do
  let o ← call
  return p.result o

/-- The whole of a transaction. -/
def program (a : A) : Tx Key Row E α :=
  p.finish (deliver (p.driver a) p.backoff (p.circumstances a))

/-- What follows `AcquireDelivery`. -/
def afterAcquire (a : A) : Option Delivery → Stmt E Outcome
  | none => return .idle
  | some del =>
      if (p.circumstances a).readable then
        doHandle (p.driver a) p.backoff (p.circumstances a) del del.envelope
      else do
        postponeFailure (p.driver a) p.backoff (p.circumstances a) del
        return .unreadable del.messageID

/-- What follows `HandleDelivery`. -/
def afterHandle (a : A) (del : Delivery) : Except Error Unit → Stmt E Outcome
  | .ok _ => return .delivered del.messageID
  | .error .failed => do
      postponeFailure (p.driver a) p.backoff (p.circumstances a) del
      return .failed del.messageID
  | .error .busy => do
      (p.driver a).postponeDelivery del p.backoff.backoffBase
      return .busy del.messageID

/-- What remains to be done. -/
def residual : Code A E α → Tx Key Row E α
  | .other rest => rest
  | .own a (.acquiring call) => call.bind (resume fun del => do
      let o ← p.afterAcquire a del
      return p.result o)
  | .own _ (.unreadable del call) =>
      call.bind (resume fun _ => return p.result (.unreadable del.messageID))
  | .own a (.acquired del) =>
      p.finish (doHandle (p.driver a) p.backoff (p.circumstances a) del del.envelope)
  | .own a (.handling del call) => call.bind fun x => p.finish (p.afterHandle a del x)
  | .own _ (.postponing o call) => call.bind (resume fun _ => return p.result o)

variable {p} {a : A} {del : Delivery}

/-- Postponing the delivery is the last call that a transaction makes. -/
theorem finish_last {call : Stmt E Unit} {o : Outcome} :
    p.finish (do call; return o) = call.run.bind (resume fun _ => return p.result o) := by
  unfold finish
  rw [bind_assoc, transact_bind]
  simp only [pure_bind]

theorem residual_begin :
    p.residual (.own a (.acquiring (p.driver a).acquireDelivery.run)) = p.program a := by
  unfold program finish deliver
  rw [bind_assoc, transact_bind]
  refine congrArg (Tx.bind _) (congrArg resume (funext fun acquired => ?_))
  cases acquired with
  | none => rfl
  | some del => rfl

theorem residual_readable (h : (p.circumstances a).readable = true) :
    p.residual (.own a (.acquired del)) =
      p.residual (.own a (.acquiring (.pure (.ok (some del))))) := by
  change _ = p.finish (p.afterAcquire a (some del))
  rw [afterAcquire, if_pos h]
  rfl

theorem residual_unreadable (h : (p.circumstances a).readable = false) :
    p.residual (.own a (.unreadable del
        (postponeFailure (p.driver a) p.backoff (p.circumstances a) del).run)) =
      p.residual (.own a (.acquiring (.pure (.ok (some del))))) := by
  change _ = p.finish (p.afterAcquire a (some del))
  rw [afterAcquire, if_neg (by simp [h]), finish_last]
  rfl

theorem residual_handle :
    p.residual (.own a (.handling del ((p.driver a).handleDelivery del del.envelope).run)) =
      p.residual (.own a (.acquired del)) := by
  change _ = p.finish (doHandle _ _ _ _ _)
  unfold finish doHandle
  rw [bind_assoc, transact_attempt_bind]
  refine congrArg (Tx.bind _) (funext fun x => ?_)
  rcases x with (_ | _) | _
  · rfl
  · rfl
  · rfl

theorem residual_failed :
    p.residual (.own a (.postponing (.failed del.messageID)
        (postponeFailure (p.driver a) p.backoff (p.circumstances a) del).run)) =
      p.residual (.own a (.handling del (.pure (.error .failed)))) :=
  finish_last.symm

theorem residual_busy :
    p.residual (.own a (.postponing (.busy del.messageID)
        ((p.driver a).postponeDelivery del p.backoff.backoffBase).run)) =
      p.residual (.own a (.handling del (.pure (.error .busy)))) :=
  finish_last.symm

theorem residual_outcome {stage : Stage E} {o : Outcome} (h : stage.outcome = some o) :
    p.residual (.own a stage) = .pure (p.result o) := by
  unfold Stage.outcome at h
  split at h <;> cases h <;> rfl

theorem residual_advance {free : Key → Prop} {rows : Database} {stage stage' : Stage E}
    {s s' : Session Key Row E} (h : Stage.Advance free rows (stage, s) (stage', s')) :
    Foundation.Advance free rows (p.residual (.own a stage), s)
      (p.residual (.own a stage'), s') := by
  cases h with
  | acquiring h => exact h.bind _
  | unreadable h => exact h.bind _
  | handling h => exact h.bind _
  | postponing h => exact h.bind _

end Pump

/-! ## Goroutines -/

/-- The goroutines of a pump with `n` workers: the dispatcher is `none`, and the workers
are numbered. -/
abbrev Goroutine (n : Nat) := Option (Fin n)

/-- Where a goroutine is, with the transaction that it holds. -/
inductive Phase (T : Type) where
  /-- The dispatcher, before `BeginTx`. -/
  | beginning
  /-- The dispatcher, in `doAcquireTask`. -/
  | acquiring (t : T)
  /-- The dispatcher, waiting for a worker. -/
  | sending (t : T)
  /-- The dispatcher, waiting for `PollInterval`. -/
  | polling
  /-- A worker, waiting for a task. -/
  | receiving
  /-- A worker, in `doHandle`. -/
  | handling (t : T)
  | returned

namespace Phase

/-- The transaction that the goroutine holds. -/
def tx : Phase T → Option T
  | .acquiring t | .sending t | .handling t => some t
  | _ => none

/-- The transaction whose statements the goroutine executes. -/
def executes : Phase T → Option T
  | .acquiring t | .handling t => some t
  | _ => none

/-- The stages at which the transaction can be while the goroutine holds it. -/
def Allows : Phase T → Stage E → Prop
  | .acquiring _, .acquiring _ | .acquiring _, .unreadable _ _ => True
  | .sending _, .acquired _ => True
  | .handling _, .acquired _ | .handling _, .handling _ _ | .handling _, .postponing _ _ => True
  | _, _ => False

theorem tx_of_executes {phase : Phase T} {t : T} (h : phase.executes = some t) :
    phase.tx = some t := by
  unfold executes at h
  split at h
  · exact h
  · exact h
  · cases h

theorem Allows.advance {phase : Phase T} {free : Key → Prop} {rows : Database}
    {stage stage' : Stage E} {s s' : Session Key Row E} (h : phase.Allows stage)
    (hadvance : Stage.Advance free rows (stage, s) (stage', s')) : phase.Allows stage' := by
  cases hadvance <;> cases phase <;> exact h

/-- What is sent can be handled. -/
theorem Allows.handOver {t : T} {stage : Stage E} (h : (Phase.sending t).Allows stage) :
    (Phase.handling t).Allows stage := by
  cases stage with
  | acquired del => trivial
  | _ => exact False.elim h

end Phase

/-- Why a goroutine returned. -/
inductive StopReason where
  /-- It returned `ctx.Err()`. -/
  | canceled
  /-- It returned any other error. -/
  | failed
  deriving DecidableEq, Repr

/-- The database and the goroutines of a pump. -/
structure Pumping (T : Type) (p : Pump A R E α) where
  db : Server T R (Code A E α) Key Row E α
  phase : Goroutine p.size → Phase T
  group : ErrGroup (Goroutine p.size) StopReason

namespace Pumping

variable {p : Pump A R E α}

/-- Where `run` starts each goroutine. -/
def started : Goroutine p.size → Phase T
  | none => .beginning
  | some _ => .receiving

/-- `run` has been called for the first time. -/
def initial (rows : Database) (canceled : Bool) : Pumping T p where
  db := .initial rows
  phase := started
  group := .start canceled

/-- The supervisor has called `run` once more. -/
def restarted (s : Pumping T p) : Pumping T p where
  db := s.db
  phase := started
  group := .start s.group.canceled

/-- The transaction that each goroutine holds. -/
def held (s : Pumping T p) (g : Goroutine p.size) : Option T := (s.phase g).tx

/-- No transaction is open under the given handle, and no goroutine has kept it. -/
def Fresh (s : Pumping T p) (t : T) : Prop := s.db.clients t = none ∧ ∀ g, s.held g ≠ some t

/-- The goroutine goes on. -/
def goto (s : Pumping T p) (g : Goroutine p.size) (phase : Phase T) : Pumping T p :=
  { s with phase := Function.update s.phase g phase }

/-- The goroutine returns an error. -/
def stop (s : Pumping T p) (g : Goroutine p.size) (reason : StopReason) : Pumping T p :=
  { s with
    phase := Function.update s.phase g .returned
    group := s.group.ret g (some reason) }

def withDB (s : Pumping T p) (db : Server T R (Code A E α) Key Row E α) : Pumping T p :=
  { s with db := db }

/-- What a goroutine does after it has committed. -/
def afterCommit : Goroutine p.size → Outcome → Phase T
  | none, .idle => .polling
  | none, _ => .beginning
  | some _, _ => .receiving

theorem afterCommit_tx (g : Goroutine p.size) (o : Outcome) :
    (afterCommit g o : Phase T).tx = none := by
  cases g <;> cases o <;> rfl

theorem afterCommit_ne_returned (g : Goroutine p.size) (o : Outcome) :
    (afterCommit g o : Phase T) ≠ .returned := by
  cases g <;> cases o <;> simp [afterCommit]

variable [DecidableEq T]

/-- One step of a goroutine, or of the rest of the system.  Transactions other than those
of the pump have the programs `prog`. -/
inductive Step (prog : R → Tx Key Row E α) (allow : List R → R → Prop) :
    Pumping T p → Pumping T p → Prop where
  /-- Other code begins a transaction. -/
  | otherBegin {s : Pumping T p} {t : T} {r : R} (hfresh : s.Fresh t)
      (hallowed : allow s.db.begun r) :
      Step prog allow s (s.withDB (s.db.begin t r (.other (prog r))))
  | otherAdvance {s : Pumping T p} {t : T} {r : R} {q q' : Tx Key Row E α}
      {session session' : Session Key Row E}
      (hclient : s.db.clients t = some ⟨r, .other q, session⟩)
      (hadvance : Foundation.Advance (s.db.Free t) s.db.rows (q, session) (q', session')) :
      Step prog allow s (s.withDB (s.db.set t ⟨r, .other q', session'⟩))
  | otherCommit {s : Pumping T p} {t : T} {r : R} {b : α} {session : Session Key Row E}
      (hclient : s.db.clients t = some ⟨r, .other (.pure b), session⟩) :
      Step prog allow s (s.withDB (s.db.commit t ⟨r, .other (.pure b), session⟩ b))
  /-- The database rolls back a transaction: its connection is lost, or its context is
  done, or other code asks for it. -/
  | lost {s : Pumping T p} (t : T) : Step prog allow s (s.withDB (s.db.rollback t))
  /-- The supervisor calls `run` again after it has returned. -/
  | restart {s : Pumping T p} (hfinished : s.group.Finished) : Step prog allow s s.restarted
  /-- The context of `run` becomes done. -/
  | cancel {s : Pumping T p} : Step prog allow s { s with group := s.group.cancel }
  /-- `BeginTx`, then `AcquireDelivery`. -/
  | begin {s : Pumping T p} {t : T} (a : A) (hphase : s.phase none = .beginning)
      (hfresh : s.Fresh t) (hallowed : allow s.db.begun (p.request a)) :
      Step prog allow s ((s.withDB (s.db.begin t (p.request a)
        (.own a (.acquiring (p.driver a).acquireDelivery.run)))).goto none (.acquiring t))
  /-- `BeginTx` fails. -/
  | beginFailed {s : Pumping T p} (hphase : s.phase none = .beginning) :
      Step prog allow s (s.stop none .failed)
  /-- A statement of a call of the driver. -/
  | statement {s : Pumping T p} {g : Goroutine p.size} {t : T} {r : R} {a : A}
      {stage stage' : Stage E} {session session' : Session Key Row E}
      (hphase : (s.phase g).executes = some t)
      (hclient : s.db.clients t = some ⟨r, .own a stage, session⟩)
      (hadvance : Stage.Advance (s.db.Free t) s.db.rows (stage, session) (stage', session')) :
      Step prog allow s (s.withDB (s.db.set t ⟨r, .own a stage', session'⟩))
  /-- `AcquireDelivery` has returned a delivery with a valid envelope. -/
  | readable {s : Pumping T p} {t : T} {r : R} {a : A} {del : Delivery}
      {session : Session Key Row E} (hphase : s.phase none = .acquiring t)
      (hclient : s.db.clients t =
        some ⟨r, .own a (.acquiring (.pure (.ok (some del)))), session⟩)
      (hreadable : (p.circumstances a).readable = true) :
      Step prog allow s ((s.withDB (s.db.set t ⟨r, .own a (.acquired del), session⟩)).goto none
        (.sending t))
  /-- The envelope cannot be unmarshaled or is invalid. -/
  | unreadable {s : Pumping T p} {t : T} {r : R} {a : A} {del : Delivery}
      {session : Session Key Row E} (hphase : s.phase none = .acquiring t)
      (hclient : s.db.clients t =
        some ⟨r, .own a (.acquiring (.pure (.ok (some del)))), session⟩)
      (hreadable : (p.circumstances a).readable = false) :
      Step prog allow s (s.withDB (s.db.set t ⟨r, .own a (.unreadable del
        (postponeFailure (p.driver a) p.backoff (p.circumstances a) del).run), session⟩))
  | commit {s : Pumping T p} {g : Goroutine p.size} {t : T} {r : R} {a : A} {stage : Stage E}
      {session : Session Key Row E} {o : Outcome} (hphase : (s.phase g).executes = some t)
      (hclient : s.db.clients t = some ⟨r, .own a stage, session⟩)
      (hdone : stage.outcome = some o) :
      Step prog allow s
        ((s.withDB (s.db.commit t ⟨r, .own a stage, session⟩ (p.result o))).goto g
          (afterCommit g o))
  /-- The database commits, but the goroutine does not learn of it. -/
  | commitLost {s : Pumping T p} {g : Goroutine p.size} {t : T} {r : R} {a : A}
      {stage : Stage E} {session : Session Key Row E} {o : Outcome}
      (hphase : (s.phase g).executes = some t)
      (hclient : s.db.clients t = some ⟨r, .own a stage, session⟩)
      (hdone : stage.outcome = some o) :
      Step prog allow s
        ((s.withDB (s.db.commit t ⟨r, .own a stage, session⟩ (p.result o))).stop g .failed)
  /-- A call of the driver or the commit fails, for whatever reason. -/
  | fail {s : Pumping T p} {g : Goroutine p.size} {t : T}
      (hphase : (s.phase g).executes = some t) :
      Step prog allow s ((s.withDB (s.db.rollback t)).stop g .failed)
  /-- The dispatcher sends a task to a worker. -/
  | send {s : Pumping T p} {t : T} {i : Fin p.size} (hphase : s.phase none = .sending t)
      (hworker : s.phase (some i) = .receiving) :
      Step prog allow s ((s.goto none .beginning).goto (some i) (.handling t))
  | sendCanceled {s : Pumping T p} {t : T} (hphase : s.phase none = .sending t)
      (hdone : s.group.done = true) :
      Step prog allow s ((s.withDB (s.db.rollback t)).stop none .canceled)
  | pollOver {s : Pumping T p} (hphase : s.phase none = .polling) :
      Step prog allow s (s.goto none .beginning)
  | pollCanceled {s : Pumping T p} (hphase : s.phase none = .polling)
      (hdone : s.group.done = true) : Step prog allow s (s.stop none .canceled)
  | receiveCanceled {s : Pumping T p} {i : Fin p.size} (hphase : s.phase (some i) = .receiving)
      (hdone : s.group.done = true) : Step prog allow s (s.stop (some i) .canceled)
  /-- The worker calls `HandleDelivery`. -/
  | handle {s : Pumping T p} {i : Fin p.size} {t : T} {r : R} {a : A} {del : Delivery}
      {session : Session Key Row E} (hphase : s.phase (some i) = .handling t)
      (hclient : s.db.clients t = some ⟨r, .own a (.acquired del), session⟩) :
      Step prog allow s (s.withDB (s.db.set t ⟨r, .own a (.handling del
        ((p.driver a).handleDelivery del del.envelope).run), session⟩))
  /-- `HandleDelivery` has returned `ErrFailed`. -/
  | failed {s : Pumping T p} {i : Fin p.size} {t : T} {r : R} {a : A} {del : Delivery}
      {session : Session Key Row E} (hphase : s.phase (some i) = .handling t)
      (hclient : s.db.clients t =
        some ⟨r, .own a (.handling del (.pure (.error .failed))), session⟩) :
      Step prog allow s (s.withDB (s.db.set t ⟨r, .own a (.postponing (.failed del.messageID)
        (postponeFailure (p.driver a) p.backoff (p.circumstances a) del).run), session⟩))
  /-- `HandleDelivery` has returned `ErrBusy`. -/
  | busy {s : Pumping T p} {i : Fin p.size} {t : T} {r : R} {a : A} {del : Delivery}
      {session : Session Key Row E} (hphase : s.phase (some i) = .handling t)
      (hclient : s.db.clients t =
        some ⟨r, .own a (.handling del (.pure (.error .busy))), session⟩) :
      Step prog allow s (s.withDB (s.db.set t ⟨r, .own a (.postponing (.busy del.messageID)
        ((p.driver a).postponeDelivery del p.backoff.backoffBase).run), session⟩))

/-! ## What the goroutines do together -/

/-- What the goroutines do is what transactions do that have the programs `Pump.program`. -/
theorem Step.pool {prog : R → Tx Key Row E α} {allow : List R → R → Prop} {s s' : Pumping T p}
    (hprog : ∀ a, prog (p.request a) = p.program a) (h : Step prog allow s s') :
    Relation.ReflTransGen (Pool.Step prog allow) (s.db.pool p.residual)
      (s'.db.pool p.residual) := by
  cases h with
  | otherBegin hfresh hallowed => exact .single (Server.pool_begin hfresh.1 hallowed rfl)
  | otherAdvance hclient hadvance => exact .single (Server.pool_advance hclient hadvance)
  | otherCommit hclient => exact .single (Server.pool_commit hclient rfl)
  | lost t => exact Server.pool_rollback_reaches t
  | restart hfinished => exact .refl
  | cancel => exact .refl
  | begin a hphase hfresh hallowed =>
      have hcode := Pump.residual_begin.trans (hprog a).symm
      exact .single (Server.pool_begin hfresh.1 hallowed hcode)
  | beginFailed hphase => exact .refl
  | statement hphase hclient hadvance =>
      exact .single (Server.pool_advance hclient (Pump.residual_advance hadvance))
  | readable hphase hclient hreadable =>
      exact Server.pool_relabel_reaches hclient (Pump.residual_readable hreadable)
  | unreadable hphase hclient hreadable =>
      exact Server.pool_relabel_reaches hclient (Pump.residual_unreadable hreadable)
  | commit hphase hclient hdone =>
      exact .single (Server.pool_commit hclient (Pump.residual_outcome hdone))
  | commitLost hphase hclient hdone =>
      exact .single (Server.pool_commit hclient (Pump.residual_outcome hdone))
  | fail hphase => exact Server.pool_rollback_reaches _
  | send hphase hworker => exact .refl
  | sendCanceled hphase hdone => exact Server.pool_rollback_reaches _
  | pollOver hphase => exact .refl
  | pollCanceled hphase hdone => exact .refl
  | receiveCanceled hphase hdone => exact .refl
  | handle hphase hclient =>
      exact Server.pool_relabel_reaches hclient Pump.residual_handle
  | failed hphase hclient =>
      exact Server.pool_relabel_reaches hclient Pump.residual_failed
  | busy hphase hclient =>
      exact Server.pool_relabel_reaches hclient Pump.residual_busy

end Pumping

/-! ## Who holds a transaction -/

section Held

variable {G : Type} {clients : T → Option (Client R (Code A E α) Key Row E)}
  {phase : G → Phase T}

/-- An open transaction of the pump. -/
def Own (clients : T → Option (Client R (Code A E α) Key Row E)) (t : T) : Prop :=
  ∃ client a stage, clients t = some client ∧ client.code = .own a stage

/-- Each open transaction of the pump is held by one goroutine, which is where the
transaction's stage says. -/
structure Held (clients : T → Option (Client R (Code A E α) Key Row E)) (phase : G → Phase T) :
    Prop where
  ownership : Ownership (Own clients) (Phase.tx ∘ phase)
  fits : ∀ g t client, (phase g).tx = some t → clients t = some client →
    ∃ a stage, client.code = .own a stage ∧ (phase g).Allows stage

namespace Held

variable {g : G} {t : T} {φ : Phase T} {r : R} {a : A} {stage : Stage E}
  {session : Session Key Row E}

/-- A goroutine does not hold a transaction of other code. -/
theorem not_other (h : Held clients phase) {q : Tx Key Row E α}
    (hclient : clients t = some ⟨r, .other q, session⟩) (g : G) : (phase g).tx ≠ some t := by
  intro hheld
  obtain ⟨a, stage, hcode, -⟩ := h.fits g t _ hheld hclient
  cases hcode

variable [DecidableEq T]

/-- Once a transaction has ended, all others are as before. -/
theorem drop (h : Held clients phase) (t : T) : Held (Function.update clients t none) phase where
  ownership := by
    apply h.ownership.mono
    rintro t' ⟨client, a, stage, hclient, hcode⟩
    rcases update_eq_some hclient with ⟨-, hnone⟩ | ⟨-, hclient⟩
    · cases hnone
    · exact ⟨client, a, stage, hclient, hcode⟩
  fits := by
    intro g t' client hheld hclient
    rcases update_eq_some hclient with ⟨-, hnone⟩ | ⟨-, hclient⟩
    · cases hnone
    · exact h.fits g t' client hheld hclient

/-- Other code begins a transaction, or goes on with it. -/
theorem other (h : Held clients phase) (hfree : ∀ g, (phase g).tx ≠ some t)
    (q : Tx Key Row E α) :
    Held (Function.update clients t (some ⟨r, .other q, session⟩)) phase where
  ownership := by
    apply h.ownership.mono
    rintro t' ⟨client, a, stage, hclient, hcode⟩
    rcases update_eq_some hclient with ⟨-, hother⟩ | ⟨-, hclient⟩
    · cases hother
      cases hcode
    · exact ⟨client, a, stage, hclient, hcode⟩
  fits := by
    intro g t' client hheld hclient
    rcases update_eq_some hclient with ⟨rfl, -⟩ | ⟨-, hclient⟩
    · exact absurd hheld (hfree g)
    · exact h.fits g t' client hheld hclient

omit [DecidableEq T] in
theorem tx_comp_update [DecidableEq G] :
    Phase.tx ∘ Function.update phase g φ = Function.update (Phase.tx ∘ phase) g φ.tx :=
  Function.comp_update ..

/-- An open transaction of the pump is the one that has just been changed, or was open
before. -/
theorem own_update {client : Client R (Code A E α) Key Row E} {t' : T}
    (h : Own (Function.update clients t (some client)) t') : t' = t ∨ Own clients t' := by
  obtain ⟨client', a, stage, hclient, hcode⟩ := h
  rcases update_eq_some hclient with ⟨heq, -⟩ | ⟨-, hclient⟩
  · exact Or.inl heq
  · exact Or.inr ⟨client', a, stage, hclient, hcode⟩

variable [DecidableEq G]

/-- If only `g` holds `t`, which has got to the given stage, the others are as before. -/
theorem fits_update (h : Held clients phase) (hnew : ∀ g', g' ≠ g → (phase g').tx ≠ some t)
    (htx : φ.tx = some t) (hallows : φ.Allows stage) (g' : G) (t' : T)
    (client : Client R (Code A E α) Key Row E)
    (hheld : (Function.update phase g φ g').tx = some t')
    (hclient : Function.update clients t (some ⟨r, .own a stage, session⟩) t' = some client) :
    ∃ a stage, client.code = .own a stage ∧ (Function.update phase g φ g').Allows stage := by
  by_cases hg : g' = g
  · subst hg
    rw [Function.update_self] at hheld ⊢
    rw [htx] at hheld
    cases hheld
    rw [Function.update_self] at hclient
    cases hclient
    exact ⟨a, stage, rfl, hallows⟩
  · rw [Function.update_of_ne hg] at hheld ⊢
    rcases update_eq_some hclient with ⟨rfl, -⟩ | ⟨-, hclient⟩
    · exact absurd hheld (hnew g' hg)
    · exact h.fits g' t' client hheld hclient

/-- The dispatcher begins a transaction. -/
theorem take (h : Held clients phase) (hidle : (phase g).tx = none)
    (hfresh : ∀ g, (phase g).tx ≠ some t) (htx : φ.tx = some t) (hallows : φ.Allows stage) :
    Held (Function.update clients t (some ⟨r, .own a stage, session⟩))
      (Function.update phase g φ) where
  ownership := by
    rw [tx_comp_update, htx]
    exact h.ownership.take hidle hfresh fun t' => own_update
  fits := h.fits_update (fun g' _ => hfresh g') htx hallows

/-- The goroutine that holds a transaction goes on with it, to another phase. -/
theorem move (h : Held clients phase) (hheld : (phase g).tx = some t) (htx : φ.tx = some t)
    (hallows : φ.Allows stage) :
    Held (Function.update clients t (some ⟨r, .own a stage, session⟩))
      (Function.update phase g φ) where
  ownership := by
    rw [tx_comp_update, htx, ← hheld, ← Function.comp_apply (f := Phase.tx),
      Function.update_eq_self]
    refine ⟨fun t' ht' => ?_, h.ownership.unique⟩
    rcases own_update ht' with rfl | hold
    · exact ⟨g, hheld⟩
    · exact h.ownership.owned t' hold
  fits := by
    refine h.fits_update (fun g' hne hg' => ?_) htx hallows
    exact hne (h.ownership.unique g' g t hg' hheld)

/-- The goroutine that holds a transaction goes on with it. -/
theorem set (h : Held clients phase) (hphase : phase g = φ) (htx : φ.tx = some t)
    (hallows : φ.Allows stage) :
    Held (Function.update clients t (some ⟨r, .own a stage, session⟩)) phase := by
  have hsame : Function.update phase g φ = phase := by
    rw [← hphase, Function.update_eq_self]
  exact hsame ▸ h.move (by rw [hphase, htx]) htx hallows

omit [DecidableEq T] in
/-- A goroutine that no longer holds anything goes on. -/
theorem idle (h : Held clients phase) (hown : ∀ t, (phase g).tx = some t → ¬ Own clients t)
    (htx : φ.tx = none) : Held clients (Function.update phase g φ) where
  ownership := by
    rw [tx_comp_update, htx]
    exact h.ownership.release fun t ht => ⟨ht, fun hheld => hown t hheld ht⟩
  fits := by
    intro g' t client hheld hclient
    by_cases hg : g' = g
    · subst hg
      rw [Function.update_self, htx] at hheld
      cases hheld
    · rw [Function.update_of_ne hg] at hheld ⊢
      exact h.fits g' t client hheld hclient

/-- A goroutine ends the transaction that it holds. -/
theorem release (h : Held clients phase) (hheld : (phase g).tx = some t) (htx : φ.tx = none) :
    Held (Function.update clients t none) (Function.update phase g φ) := by
  apply (h.drop t).idle _ htx
  rintro t' ht' ⟨client, a, stage, hclient, -⟩
  rw [hheld] at ht'
  cases ht'
  rw [Function.update_self] at hclient
  cases hclient

omit [DecidableEq T] in
/-- The dispatcher passes on the transaction to a worker. -/
theorem pass (h : Held clients phase) {g' : G} (hfrom : phase g = .sending t)
    (hto : (phase g').tx = none) :
    Held clients (Function.update (Function.update phase g .beginning) g' (.handling t)) where
  ownership := by
    have hsent : (Phase.tx ∘ phase) g = some t := by simp [hfrom, Phase.tx]
    have hfree : (Phase.tx ∘ phase) g' = none := hto
    have hpass := h.ownership.pass hsent hfree
    rwa [tx_comp_update, tx_comp_update]
  fits := by
    intro g'' t'' client hheld hclient
    by_cases hg' : g'' = g'
    · subst hg'
      rw [Function.update_self] at hheld ⊢
      cases hheld
      obtain ⟨a, stage, hcode, hallows⟩ := h.fits g t client (by rw [hfrom]; rfl) hclient
      rw [hfrom] at hallows
      exact ⟨a, stage, hcode, hallows.handOver⟩
    · rw [Function.update_of_ne hg'] at hheld ⊢
      by_cases hg : g'' = g
      · subst hg
        rw [Function.update_self] at hheld
        cases hheld
      · rw [Function.update_of_ne hg] at hheld ⊢
        exact h.fits g'' t'' client hheld hclient

end Held

end Held

namespace Pumping

variable {p : Pump A R E α}

/-! ## Invariants -/

/-- No goroutine holds anything when `run` starts it. -/
theorem held_started {clients : T → Option (Client R (Code A E α) Key Row E)}
    (h : ∀ t, ¬ Own clients t) : Held clients (started : Goroutine p.size → Phase T) where
  ownership :=
    { owned := fun t ht => absurd ht (h t)
      unique := by
        intro g g' t hg
        cases g <;> cases hg }
  fits := by
    intro g t client hg
    cases g <;> cases hg

/-- What the group records agrees with where the goroutines are.  None of them returns
without an error, and the first error is `ctx.Err()` only if the context of `run` is done. -/
structure Supervised (s : Pumping T p) : Prop where
  sound : s.group.Sound
  returned_iff : ∀ g, s.phase g = .returned ↔ s.group.returned g ≠ none
  ne_nil : ∀ g, s.group.returned g ≠ some none
  canceled : s.group.err = some .canceled → s.group.canceled = true

namespace Supervised

variable {s : Pumping T p} {g : Goroutine p.size}

theorem started (db : Server T R (Code A E α) Key Row E α) (canceled : Bool) :
    Supervised (p := p) ⟨db, started, .start canceled⟩ where
  sound := .start canceled
  returned_iff := by
    intro g
    cases g <;> simp [Pumping.started, ErrGroup.start]
  ne_nil := by simp [ErrGroup.start]
  canceled := by simp [ErrGroup.start]

theorem goto (h : s.Supervised) {φ : Phase T} (hphase : s.phase g ≠ .returned)
    (hφ : φ ≠ .returned) : (s.goto g φ).Supervised where
  sound := h.sound
  returned_iff := by
    intro g'
    rw [← show s.group = (s.goto g φ).group from rfl, ← h.returned_iff g']
    by_cases hg : g' = g
    · subst hg
      simp [Pumping.goto, hφ, hphase]
    · simp [Pumping.goto, Function.update_of_ne hg]
  ne_nil := h.ne_nil
  canceled := h.canceled

theorem stop (h : s.Supervised) {reason : StopReason} (hphase : s.phase g ≠ .returned)
    (hreason : reason = .canceled → s.group.done = true) : (s.stop g reason).Supervised where
  sound := by
    apply h.sound.ret
    by_contra hreturned
    exact hphase ((h.returned_iff g).mpr hreturned)
  returned_iff := by
    intro g'
    by_cases hg : g' = g
    · subst hg
      simp [Pumping.stop]
    · simp only [Pumping.stop, Function.update_of_ne hg, ErrGroup.ret_returned_of_ne hg]
      exact h.returned_iff g'
  ne_nil := by
    intro g'
    by_cases hg : g' = g
    · subst hg
      simp [Pumping.stop]
    · simp only [Pumping.stop, ErrGroup.ret_returned_of_ne hg]
      exact h.ne_nil g'
  canceled := by
    intro herr
    cases hfirst : s.group.err with
    | some e =>
        have hsame : e = .canceled := by
          simpa [Pumping.stop, ErrGroup.ret_err_of_some hfirst] using herr
        exact h.canceled (hsame ▸ hfirst)
    | none =>
        -- The group's context can only be done because that of `run` is.
        have hsame : reason = .canceled := by
          simpa [Pumping.stop, ErrGroup.ret_err_of_none hfirst] using herr
        rcases ErrGroup.done_iff.mp (hreason hsame) with hcanceled | ⟨e, he⟩
        · exact hcanceled
        · rw [hfirst] at he
          cases he

theorem withDB (h : s.Supervised) (db : Server T R (Code A E α) Key Row E α) :
    (s.withDB db).Supervised := ⟨h.sound, h.returned_iff, h.ne_nil, h.canceled⟩

/-- Once all goroutines have returned, `run` returns an error. -/
theorem finished (h : s.Supervised) (hfinished : s.group.Finished) :
    ∃ reason, s.group.err = some reason := by
  by_contra hnone
  have herr : s.group.err = none := by
    by_contra hsome
    exact hnone (Option.ne_none_iff_exists'.mp hsome)
  obtain ⟨r, hr⟩ := Option.ne_none_iff_exists'.mp (hfinished none)
  have hnil := h.sound.of_none herr none r hr
  exact h.ne_nil none (hnil ▸ hr)

end Supervised

/-- What holds in every state of a pump. -/
structure Invariant (s : Pumping T p) : Prop where
  held : Held s.db.clients s.phase
  supervised : s.Supervised

/-- Nothing is held by a goroutine that has returned. -/
theorem Invariant.released {s : Pumping T p} (h : s.Invariant) (hfinished : s.group.Finished)
    (t : T) : ¬ Own s.db.clients t := by
  apply h.held.ownership.not_open
  intro g
  have hreturned := (h.supervised.returned_iff g).mpr (hfinished g)
  rw [Function.comp_apply, hreturned]
  rfl

section Runs

variable [DecidableEq T] {prog : R → Tx Key Row E α} {allow : List R → R → Prop}

theorem Step.held {s s' : Pumping T p} (h : Step prog allow s s') (hs : s.Invariant) :
    Held s'.db.clients s'.phase := by
  have hheld := hs.held
  cases h with
  | otherBegin hfresh hallowed => exact hheld.other hfresh.2 _
  | otherAdvance hclient hadvance => exact hheld.other (hheld.not_other hclient) _
  | otherCommit hclient => exact hheld.drop _
  | lost t => exact hheld.drop t
  | restart hfinished => exact held_started (hs.released hfinished)
  | cancel => exact hheld
  | begin a hphase hfresh hallowed =>
      exact hheld.take (by rw [hphase]; rfl) hfresh.2 rfl trivial
  | beginFailed hphase => exact hheld.idle (by simp [hphase, Phase.tx]) rfl
  | statement hphase hclient hadvance =>
      have htx := Phase.tx_of_executes hphase
      obtain ⟨_, _, hcode, hallows⟩ := hheld.fits _ _ _ htx hclient
      cases hcode
      exact hheld.set rfl htx (hallows.advance hadvance)
  | readable hphase hclient hreadable =>
      exact hheld.move (by rw [hphase]; rfl) rfl trivial
  | unreadable hphase hclient hreadable =>
      exact hheld.set hphase rfl trivial
  | commit hphase hclient hdone =>
      exact hheld.release (Phase.tx_of_executes hphase) (afterCommit_tx ..)
  | commitLost hphase hclient hdone => exact hheld.release (Phase.tx_of_executes hphase) rfl
  | fail hphase => exact hheld.release (Phase.tx_of_executes hphase) rfl
  | send hphase hworker => exact hheld.pass hphase (by rw [hworker]; rfl)
  | sendCanceled hphase hdone => exact hheld.release (by rw [hphase]; rfl) rfl
  | pollOver hphase => exact hheld.idle (by simp [hphase, Phase.tx]) rfl
  | pollCanceled hphase hdone => exact hheld.idle (by simp [hphase, Phase.tx]) rfl
  | receiveCanceled hphase hdone => exact hheld.idle (by simp [hphase, Phase.tx]) rfl
  | handle hphase hclient => exact hheld.set hphase rfl trivial
  | failed hphase hclient => exact hheld.set hphase rfl trivial
  | busy hphase hclient => exact hheld.set hphase rfl trivial

theorem Step.supervised {s s' : Pumping T p} (h : Step prog allow s s') (hs : s.Supervised) :
    s'.Supervised := by
  have hexecutes : ∀ {g : Goroutine p.size} {t : T}, (s.phase g).executes = some t →
      s.phase g ≠ .returned := by
    intro g t hphase hreturned
    rw [hreturned] at hphase
    cases hphase
  cases h with
  | otherBegin hfresh hallowed => exact hs.withDB _
  | otherAdvance hclient hadvance => exact hs.withDB _
  | otherCommit hclient => exact hs.withDB _
  | lost t => exact hs.withDB _
  | restart hfinished => exact .started _ _
  | cancel => exact ⟨hs.sound.cancel, hs.returned_iff, hs.ne_nil, fun _ => rfl⟩
  | begin a hphase hfresh hallowed =>
      exact (hs.withDB _).goto (by simp [Pumping.withDB, hphase]) (by simp)
  | beginFailed hphase => exact hs.stop (by simp [hphase]) (by simp)
  | statement hphase hclient hadvance => exact hs.withDB _
  | readable hphase hclient hreadable =>
      exact (hs.withDB _).goto (by simp [Pumping.withDB, hphase]) (by simp)
  | unreadable hphase hclient hreadable => exact hs.withDB _
  | commit hphase hclient hdone =>
      exact (hs.withDB _).goto (hexecutes hphase) (afterCommit_ne_returned _ _)
  | commitLost hphase hclient hdone =>
      exact (hs.withDB _).stop (hexecutes hphase) (by simp)
  | fail hphase => exact (hs.withDB _).stop (hexecutes hphase) (by simp)
  | send hphase hworker =>
      refine (hs.goto (by simp [hphase]) (by simp)).goto ?_ (by simp)
      simp [Pumping.goto, hworker]
  | sendCanceled hphase hdone =>
      exact (hs.withDB _).stop (by simp [Pumping.withDB, hphase]) fun _ => hdone
  | pollOver hphase => exact hs.goto (by simp [hphase]) (by simp)
  | pollCanceled hphase hdone => exact hs.stop (by simp [hphase]) fun _ => hdone
  | receiveCanceled hphase hdone => exact hs.stop (by simp [hphase]) fun _ => hdone
  | handle hphase hclient => exact hs.withDB _
  | failed hphase hclient => exact hs.withDB _
  | busy hphase hclient => exact hs.withDB _

theorem reaches_invariant {rows : Database} {canceled : Bool} {s : Pumping T p}
    (hrun : Relation.ReflTransGen (Step prog allow) (initial rows canceled) s) :
    s.Invariant := by
  have hnone : ∀ t, ¬ Own (initial rows canceled : Pumping T p).db.clients t := by
    rintro t ⟨client, a, stage, hclient, -⟩
    cases hclient
  refine run_preserves ?_ hrun ⟨held_started hnone, .started _ _⟩
  intro s s' hs hstep
  exact ⟨hstep.held hs, hstep.supervised hs.supervised⟩

/-- Whatever happens, and in whichever order, each open transaction of the pump is held by
exactly one goroutine, which is executing it or about to hand it over.  No more
transactions are open than there are workers and the dispatcher.  Once `run` has returned,
none is; it returns an error, which is `ctx.Err()` only if its own context is done. -/
theorem pump_releases_transactions {rows : Database} {canceled : Bool} {s : Pumping T p}
    (hrun : Relation.ReflTransGen (Step prog allow) (initial rows canceled) s) :
    (∀ t r a stage session, s.db.clients t = some ⟨r, .own a stage, session⟩ →
      ∃ g, s.held g = some t ∧ (s.phase g).Allows stage ∧ ∀ g', s.held g' = some t → g' = g) ∧
    (∀ ts : Finset T, (∀ t ∈ ts, Own s.db.clients t) → ts.card ≤ max 1 p.workers + 1) ∧
    (s.group.Finished → (∀ t, ¬ Own s.db.clients t) ∧
      ∃ reason, s.group.err = some reason ∧
        (reason = .canceled → s.group.canceled = true)) := by
  have hinv := reaches_invariant hrun
  refine ⟨?_, ?_, ?_⟩
  · intro t r a stage session hclient
    obtain ⟨g, hg⟩ := hinv.held.ownership.owned t ⟨_, a, stage, hclient, rfl⟩
    obtain ⟨_, _, hcode, hallows⟩ := hinv.held.fits g t _ hg hclient
    cases hcode
    exact ⟨g, hg, hallows, fun g' hg' => hinv.held.ownership.unique g' g t hg' hg⟩
  · intro ts hts
    have hcard := hinv.held.ownership.card_le ts hts
    rwa [Fintype.card_option, Fintype.card_fin] at hcard
  · intro hfinished
    obtain ⟨reason, herr⟩ := hinv.supervised.finished hfinished
    refine ⟨hinv.released hfinished, reason, herr, ?_⟩
    rintro rfl
    exact hinv.supervised.canceled herr

end Runs

/-- A pump with one worker, whose driver always has something to deliver. -/
def busyPump : Pump Unit Unit Unit Outcome where
  driver _ :=
    { acquireDelivery := return some ⟨uuid 1, uuid 2, default, 0⟩
      postponeDelivery := fun _ _ => return ()
      handleDelivery := fun _ _ => return () }
  circumstances _ := { (default : Circumstances) with readable := true }
  backoff := { backoffBase := 1, backoffCap := 10 }
  workers := 1
  request _ := ()
  result := id

/-- The goroutines of a pump with one worker. -/
theorem goroutine_one (g : Goroutine 1) : g = none ∨ g = some 0 := by
  cases g with
  | none => exact Or.inl rfl
  | some i => exact Or.inr (congrArg some (Subsingleton.elim i 0))

/-- The pump is stopped while the worker handles one delivery and the dispatcher has
already acquired another one. -/
theorem pump_releases_transactions_busy :
    ∃ s : Pumping Nat busyPump, s.group.Finished ∧ s.group.err = some .canceled ∧
      s.db.history.length = 1 ∧ ∀ t, ¬ Own s.db.clients t := by
  have hstart : Relation.ReflTransGen (Step busyPump.program fun _ _ => True)
      (initial emptyDatabase false : Pumping Nat busyPump) (initial emptyDatabase false) := .refl
  have hbegun := hstart.tail (.begin (t := 0) () rfl
    ⟨rfl, fun g => by rcases goroutine_one g with rfl | rfl <;> decide⟩ trivial)
  have hacquired := hbegun.tail (.readable rfl rfl rfl)
  have hsent := hacquired.tail (.send (i := ⟨0, by decide⟩) rfl rfl)
  have hagain := hsent.tail (.begin (t := 1) () rfl
    ⟨rfl, fun g => by rcases goroutine_one g with rfl | rfl <;> decide⟩ trivial)
  have hpending := (hagain.tail (.readable rfl rfl rfl)).tail .cancel
  have hdispatcher := hpending.tail (.sendCanceled rfl rfl)
  have hhandled := hdispatcher.tail (.handle (i := ⟨0, by decide⟩) rfl rfl)
  have hcommitted := hhandled.tail (.commit (g := some ⟨0, by decide⟩) rfl rfl rfl)
  have hworker := hcommitted.tail (.receiveCanceled (i := ⟨0, by decide⟩) rfl rfl)
  refine ⟨_, ?_, rfl, rfl, ((pump_releases_transactions hworker).2.2 ?_).1⟩ <;>
    (intro g; rcases goroutine_one g with rfl | rfl <;> exact Option.some_ne_none _)

end Pumping

end Runkit.MessagePump
