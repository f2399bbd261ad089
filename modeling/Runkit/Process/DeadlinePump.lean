/-
  Process/DeadlinePump.lean --- delivering deadlines to process instances.

  Source: internal/process/deadlinepump.go.
-/
import Runkit.Process.Instance

set_option autoImplicit false

namespace Runkit.Process

open Runkit.Foundation Runkit.Schema Runkit.Schema.Stmt Runkit.MessagePump

variable {ρ E : Type}

/-- What is not decided by the engine while a deadline is delivered. -/
structure DeadlineAttempt (ρ : Type) where
  /-- The deadline can be unpacked. -/
  unpacks : Bool
  behavior : Behavior ρ

/-- Whether a pending deadline is due and of one of the handler's types. -/
def deadlineIsDue (h : ProcessHandler ρ) (now : Time) (row : Option DeadlineRow) : Bool :=
  match row with
  | none => false
  | some row =>
      decide (row.handlerKey = h.key) && decide (row.deliverAt ≤ now) &&
        decide (row.messageTypeID ∈ h.deadlineTypeIDs)

/-- The delivery of the deadline in the given row. -/
def deadlineDelivery (messageID : UUID) (row : DeadlineRow) : Delivery where
  messageID := messageID
  messageTypeID := row.messageTypeID
  envelope := row.envelope
  failures := row.failures

/-- `DeadlinePump.AcquireDelivery`: the first of the visited deadlines that is
due, and neither of whose deadline row and instance row is locked by another
transaction.  A deadline row stays locked even if the instance row had to be
skipped. -/
def acquireDelivery (h : ProcessHandler ρ) (now : Time) :
    List UUID → Stmt E (Option Delivery)
  | [] => return none
  | messageID :: rest => do
      match ← tryLock (.deadline messageID) (deadlineIsDue h now) with
      | some (some row) =>
          match ← tryLock (.processInstance row.handlerKey row.instanceID)
              (fun row => row.isSome) with
          | some _ => return some (deadlineDelivery messageID row)
          | none => acquireDelivery h now rest
      | _ => acquireDelivery h now rest

/-- `DeadlinePump.PostponeDelivery`, at the time `now` of the database's clock. -/
def postponeDelivery (now : Time) (del : Delivery) (delay : Int) : Stmt E Unit := do
  match ← lock (.deadline del.messageID) with
  | none => abort
  | some row =>
      write (.deadline del.messageID)
        (some { row with failures := del.failures, deliverAt := now + delay })

/-- `DeadlinePump.deleteDeadline`. -/
def deleteDeadline (messageID : UUID) : Stmt E Unit := do
  match ← lock (.deadline messageID) with
  | none => abort
  | some _ => write (.deadline messageID) none

/-- The part of `DeadlinePump.HandleDelivery` that follows `HandleDeadline`. -/
def completeDeadline (h : ProcessHandler ρ) (b : Behavior ρ) (messageID : UUID)
    (instanceID : String) (scope : Scope ρ) : Stmt E Unit := do
  addCommandsToQueue b.now scope.commands
  if scope.ended then
    endInstance h.key instanceID
  else
    saveScope h b instanceID scope
    deleteDeadline messageID

/-- The part of `DeadlinePump.HandleDelivery` that follows `newRoot`. -/
def handleDeadline (h : ProcessHandler ρ) (b : Behavior ρ) (messageID : UUID)
    (env : Envelope) (root : ρ) : Stmt (Observation ρ) Unit := do
  match ← loadInstance h b env.header.instanceID root with
  | none => throw .failed
  | some root =>
      emit (.handleMessage h.key env.header.instanceID root)
      match handleMessage h b env env.header.instanceID root with
      | none => throw .failed
      | some scope => completeDeadline h b messageID env.header.instanceID scope

/-- `DeadlinePump.HandleDelivery`. -/
def handleDelivery (h : ProcessHandler ρ) (a : DeadlineAttempt ρ) (del : Delivery)
    (env : Envelope) : Stmt (Observation ρ) Unit := do
  if a.unpacks then
    let root ← newRoot h a.behavior
    handleDeadline h a.behavior del.messageID env root
  else
    throw .failed

/-- `DeadlinePump` as a driver of a message pump. -/
def deadlinePump (h : ProcessHandler ρ) (c : Circumstances) (a : DeadlineAttempt ρ) :
    Driver (Observation ρ) where
  acquireDelivery := acquireDelivery h c.acquiredAt c.visited
  postponeDelivery := postponeDelivery c.postponedAt
  handleDelivery := handleDelivery h a

end Runkit.Process
