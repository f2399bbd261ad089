/-
  Process/Sink.lean --- consuming events into process instances.

  Source: internal/process/sink.go.
-/
import Runkit.Process.Instance

set_option autoImplicit false

namespace Runkit.Process

open Runkit.Foundation Runkit.Schema Runkit.Schema.Stmt Runkit.MessagePump

variable {ρ E : Type}

/-- What the handler's `RouteEventToInstance` does. -/
inductive Routing where
  /-- It returns an error or panics. -/
  | failed
  | declined
  | routed (instanceID : String)
  deriving DecidableEq, Repr

/-- What is not decided by the engine while an event is dispatched. -/
structure EventAttempt (ρ : Type) where
  /-- The event can be unpacked. -/
  unpacks : Bool
  routing : Routing
  behavior : Behavior ρ

/-- The value of a checkpoint that may not have been stored yet. -/
def checkpointOffset (row : Option Nat) : Nat := row.getD 0

/-- `Sink.routeEventToInstance`, or `none` if the event is not routed. -/
def routeEventToInstance (a : EventAttempt ρ) : Stmt E (Option String) :=
  match a.routing with
  | .failed => abort
  | .declined => return none
  | .routed instanceID => if instanceID = "" then abort else return some instanceID

/-- The part of `Sink.dispatch` that follows `HandleEvent`. -/
def completeEvent (h : ProcessHandler ρ) (b : Behavior ρ) (instanceID : String)
    (scope : Scope ρ) : Stmt E Unit := do
  addCommandsToQueue b.now scope.commands
  if scope.ended then
    endInstance h.key instanceID
  else
    saveScope h b instanceID scope

/-- The part of `Sink.dispatch` that follows `newRoot`. -/
def handleEvent (h : ProcessHandler ρ) (b : Behavior ρ) (env : Envelope) (instanceID : String)
    (root : ρ) : Stmt (Observation ρ) Disposition := do
  match ← loadInstance h b instanceID root with
  | none => return .ended
  | some root =>
      emit (.handleMessage h.key instanceID root)
      match handleMessage h b env instanceID root with
      | none => abort
      | some scope =>
          completeEvent h b instanceID scope
          return .handled

/-- `Sink.dispatch`.  It returns how it disposed of the event. -/
def dispatch (h : ProcessHandler ρ) (a : EventAttempt ρ) (env : Envelope) :
    Stmt (Observation ρ) Disposition := do
  if a.unpacks then
    match ← routeEventToInstance a with
    | none => return .unrouted
    | some instanceID =>
        let root ← newRoot h a.behavior
        handleEvent h a.behavior env instanceID root
  else
    abort

/-- The upsert in `Sink.consume`, which locks the checkpoint. -/
def upsertCheckpoint (handlerKey streamID : UUID) : Stmt E Nat := do
  match ← lock (.handlerCheckpoint handlerKey streamID) with
  | some offset => return offset
  | none =>
      write (.handlerCheckpoint handlerKey streamID) (some 0)
      return 0

/-- The last statement of `Sink.consume`. -/
def updateCheckpoint (handlerKey streamID : UUID) (next : Nat) : Stmt E Unit := do
  match ← lock (.handlerCheckpoint handlerKey streamID) with
  | none => abort
  | some _ => write (.handlerCheckpoint handlerKey streamID) (some next)

/-- A call of `Sink.consume`. -/
structure ConsumeCall (ρ : Type) where
  streamID : UUID
  cp : Nat
  next : Nat
  env : Option Envelope
  attempt : EventAttempt ρ

/-- The transaction of `Sink.consume`, which returns the actual checkpoint that
it found. -/
def consume (h : ProcessHandler ρ) (call : ConsumeCall ρ) : Stmt (Observation ρ) Nat := do
  let actual ← upsertCheckpoint h.key call.streamID
  if actual ≠ call.cp then
    return actual
  else
    match call.env with
    | none =>
        updateCheckpoint h.key call.streamID call.next
        return actual
    | some env =>
        let disposition ← dispatch h call.attempt env
        emit (.processed h.key call.streamID env disposition)
        updateCheckpoint h.key call.streamID call.next
        return actual

/-- The next call of `Sink.consume` that `Sink.ConsumeSegment` makes, when it has
the checkpoint `cp` and the events `pending` are left of a segment that ends at
`segEnd`: the `next` and the `env` that it passes, and the events that are left
after that.  It is `none` if `Sink.ConsumeSegment` returns. -/
def nextConsume (cp segEnd : Nat) :
    List Envelope → Option (Nat × Option Envelope × List Envelope)
  | env :: pending =>
      if env.offset < cp then
        nextConsume cp segEnd pending
      else
        some (env.offset + 1, some env, pending)
  | [] => if cp < segEnd then some (segEnd, none, []) else none

end Runkit.Process
