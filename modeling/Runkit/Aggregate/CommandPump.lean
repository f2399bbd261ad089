/-
  Aggregate/CommandPump.lean --- delivering commands to aggregates.

  Source: internal/aggregate/commandpump.go and commandscope.go.
-/
import Mathlib.Data.List.Sort
import Runkit.Application
import Runkit.MessagePump

set_option autoImplicit false

namespace Runkit.Aggregate

open Runkit.Foundation Runkit.Schema Runkit.Schema.Stmt Runkit.MessagePump

variable {ρ : Type}

/-! ## The command scope -/

/-- A call of `RecordEvent`, with what is not decided by the engine: whether the
event is valid, whether `ApplyEvent` returns, and whether the handler recovers
if the call panics. -/
structure RecordCall where
  event : Effect
  valid : Bool := true
  applies : Bool := true
  recovers : Bool := false
  deriving DecidableEq, Repr

/-- The parts of `commandScope` that change: the root, and the events that have
been packed. -/
structure Scope (ρ : Type) where
  root : ρ
  events : List Envelope

/-- `commandScope.RecordEvent`.  The second component says whether it panics. -/
def recordEvent (h : AggregateHandler ρ) (cause : Envelope) (instanceID : String)
    (call : RecordCall) (scope : Scope ρ) : Scope ρ × Bool :=
  if call.event.message.typeID ∉ h.outboundMessageTypes then
    (scope, true)
  else
    let packed := { scope with
      events := scope.events ++ [h.packer.packEffect cause h.key instanceID call.event] }
    if !call.valid then
      (packed, true)
    else if !call.applies then
      (packed, true)
    else
      ({ packed with root := h.applyEvent scope.root call.event.message }, false)

/-- What `HandleCommand` does with its scope, or `none` if it panics. -/
def recordEvents (h : AggregateHandler ρ) (cause : Envelope) (instanceID : String) :
    List RecordCall → Scope ρ → Option (Scope ρ)
  | [], scope => some scope
  | call :: rest, scope =>
      match recordEvent h cause instanceID call scope with
      | (scope, false) => recordEvents h cause instanceID rest scope
      | (scope, true) =>
          if call.recovers then recordEvents h cause instanceID rest scope else none

/-- The envelopes of the events that are recorded by the given calls, in
recording order.  An event is packed unless the handler is not configured to
record it, even if the call panics afterwards. -/
def packedEvents (h : AggregateHandler ρ) (cause : Envelope) (instanceID : String)
    (calls : List RecordCall) : List Envelope :=
  (calls.filter fun call => decide (call.event.message.typeID ∈ h.outboundMessageTypes)).map
    fun call => h.packer.packEffect cause h.key instanceID call.event

theorem recordEvent_events {h : AggregateHandler ρ} {cause : Envelope} {instanceID : String}
    {call : RecordCall} {scope : Scope ρ} :
    (recordEvent h cause instanceID call scope).1.events =
      scope.events ++ packedEvents h cause instanceID [call] := by
  unfold recordEvent packedEvents
  by_cases htype : call.event.message.typeID ∈ h.outboundMessageTypes
  · rw [if_neg (not_not.mpr htype)]
    dsimp only
    split_ifs <;> simp [htype]
  · rw [if_pos htype]
    simp [htype]

theorem packedEvents_cons {h : AggregateHandler ρ} {cause : Envelope} {instanceID : String}
    {call : RecordCall} {rest : List RecordCall} :
    packedEvents h cause instanceID (call :: rest) =
      packedEvents h cause instanceID [call] ++ packedEvents h cause instanceID rest := by
  unfold packedEvents
  rw [← List.map_append, ← List.filter_append, List.singleton_append]

/-- A handler that does not panic has recorded all of its events. -/
theorem recordEvents_events {h : AggregateHandler ρ} {cause : Envelope} {instanceID : String}
    {calls : List RecordCall} {scope scope' : Scope ρ}
    (hrecord : recordEvents h cause instanceID calls scope = some scope') :
    scope'.events = scope.events ++ packedEvents h cause instanceID calls := by
  induction calls generalizing scope with
  | nil =>
      cases hrecord
      simp [packedEvents]
  | cons call rest ih =>
      have hcall := @recordEvent_events ρ h cause instanceID call scope
      rw [packedEvents_cons, ← List.append_assoc, ← hcall]
      unfold recordEvents at hrecord
      split at hrecord
      · rename_i next hnext
        rw [hnext]
        exact ih hrecord
      · rename_i next hnext
        rw [hnext]
        split at hrecord
        · exact ih hrecord
        · cases hrecord

/-! ## Handling a delivery -/

/-- What is not decided by the engine while a command is delivered: whether each
call into the application's code succeeds, and what the handler records. -/
structure Attempt where
  /-- The command can be unpacked. -/
  unpacks : Bool
  /-- The instance ID that the handler returns, or `none` if it panics. -/
  route : Option String
  /-- `New()` returns, when it is called first and when it is called again. -/
  constructs : Bool
  reconstructs : Bool
  /-- `UnmarshalBinary()` succeeds. -/
  unmarshals : Bool
  /-- The historical event can be unpacked. -/
  unpacksEvent : EventRow → Bool
  /-- `ApplyEvent()` returns when it is called with the historical event. -/
  appliesEvent : EventRow → Bool
  /-- The events that `HandleCommand()` records. -/
  records : List RecordCall
  /-- `HandleCommand()` returns. -/
  returns : Bool
  /-- `MarshalBinary()` succeeds. -/
  marshals : Bool
  acquisition : EventStream.Acquisition

/-- `CommandPump.routeCommandToInstance`. -/
def routeCommandToInstance {E : Type} (a : Attempt) : Stmt E String :=
  match a.route with
  | none => throw .failed
  | some instanceID => if instanceID = "" then throw .failed else return instanceID

/-- `CommandPump.newRoot`. -/
def newRoot {E : Type} (h : AggregateHandler ρ) (constructs : Bool) : Stmt E ρ :=
  if constructs then return h.new else throw .failed

/-- The row that is inserted by `tryCreateInstance`. -/
def newInstanceRow : AggregateInstanceRow where
  streamID := none
  snapshot := none
  snapshotOffset := none

/-- `CommandPump.tryLockInstance`, or `none` if the instance does not exist.
Whether it exists is decided by the snapshot of the statement, whereas a row
that is locked is the latest one. -/
def tryLockInstance {E : Type} (handlerKey : UUID) (instanceID : String) :
    Stmt E (Option AggregateInstanceRow) := do
  match ← peek (.aggregateInstance handlerKey instanceID) with
  | none => return none
  | some _ =>
      match ← tryLock (.aggregateInstance handlerKey instanceID) (fun row => row.isSome) with
      | some (some row) => return some row
      | _ => throw .busy

/-- `CommandPump.tryCreateInstance`. -/
def tryCreateInstance {E : Type} (handlerKey : UUID) (instanceID : String) :
    Stmt E AggregateInstanceRow := do
  match ← lock (.aggregateInstance handlerKey instanceID) with
  | some row => return row
  | none =>
      write (.aggregateInstance handlerKey instanceID) (some newInstanceRow)
      return newInstanceRow

/-- The first part of `CommandPump.loadInstance`, which locks the instance. -/
def lockInstance {E : Type} (handlerKey : UUID) (instanceID : String) :
    Stmt E AggregateInstanceRow := do
  match ← tryLockInstance handlerKey instanceID with
  | some row => return row
  | none => tryCreateInstance handlerKey instanceID

/-- The offset of the first event that is not part of the snapshot. -/
def nextOffset (row : AggregateInstanceRow) : Nat :=
  match row.snapshotOffset with
  | none => 0
  | some offset => offset + 1

/-- The part of `CommandPump.loadInstance` that restores the snapshot.  It
returns the root and the offset to replay events from. -/
def restoreSnapshot {E : Type} (h : AggregateHandler ρ) (a : Attempt)
    (row : AggregateInstanceRow) (root : ρ) : Stmt E (ρ × Nat) := do
  if nextOffset row = 0 then
    return (root, 0)
  else if a.unmarshals then
    return (h.unmarshalBinary root row.snapshot, nextOffset row)
  else
    let root ← newRoot h a.reconstructs
    return (root, 0)

/-- Whether the event was recorded by the given instance. -/
def recordedBy (handlerKey : UUID) (instanceID : String) (row : EventRow) : Bool :=
  decide (row.aggregate = some (handlerKey, instanceID))

/-- The events that `applyHistoricalEvents` queries. -/
def historicalEvents (handlerKey : UUID) (instanceID : String) (offset : Nat)
    (stream : Stream) : List EventRow :=
  (stream.events.filter fun row =>
    recordedBy handlerKey instanceID row && decide (offset ≤ row.streamOffset)).insertionSort
      fun a b => a.streamOffset ≤ b.streamOffset

/-- The loop of `CommandPump.applyHistoricalEvents`. -/
def applyEach {E : Type} (h : AggregateHandler ρ) (a : Attempt) :
    List EventRow → ρ → Stmt E ρ
  | [], root => return root
  | row :: rest, root =>
      if !a.unpacksEvent row then
        throw .failed
      else if !a.appliesEvent row then
        throw .failed
      else
        applyEach h a rest (h.applyEvent root row.envelope.body.message)

/-- `CommandPump.applyHistoricalEvents`. -/
def applyHistoricalEvents {E : Type} (h : AggregateHandler ρ) (a : Attempt) (streamID : UUID)
    (offset : Nat) (instanceID : String) (root : ρ) : Stmt E ρ := do
  let stream ← peek (.stream streamID)
  applyEach h a (historicalEvents h.key instanceID offset stream) root

/-- `CommandPump.loadInstance`. -/
def loadInstance (h : AggregateHandler ρ) (a : Attempt) (instanceID : String) :
    Stmt (Observation ρ) (ρ × Option UUID) := do
  let row ← lockInstance h.key instanceID
  emit (.loading h.key instanceID)
  let root ← newRoot h a.constructs
  match row.streamID with
  | none => return (root, none)
  | some streamID =>
      let (root, offset) ← restoreSnapshot h a row root
      let root ← applyHistoricalEvents h a streamID offset instanceID root
      return (root, some streamID)

/-- What `HandleCommand` leaves in its scope, or `none` if it panics. -/
def handleCommand (h : AggregateHandler ρ) (a : Attempt) (cause : Envelope)
    (instanceID : String) (root : ρ) : Option (Scope ρ) :=
  match recordEvents h cause instanceID a.records { root := root, events := [] } with
  | none => none
  | some scope => if a.returns then some scope else none

theorem handleCommand_events {h : AggregateHandler ρ} {a : Attempt} {cause : Envelope}
    {instanceID : String} {root : ρ} {scope : Scope ρ}
    (hscope : handleCommand h a cause instanceID root = some scope) :
    scope.events = packedEvents h cause instanceID a.records := by
  unfold handleCommand at hscope
  split at hscope
  · cases hscope
  · rename_i scope' hrecord
    split at hscope
    · cases hscope
      simpa using recordEvents_events hrecord
    · cases hscope

/-- `CommandPump.marshalSnapshot`.  There is no difference between a snapshot
that is a nil slice and no snapshot, since both are stored as NULL. -/
def marshalSnapshot (h : AggregateHandler ρ) (a : Attempt) (root : ρ) : Option Bytes :=
  if a.marshals then h.marshalBinary root else none

/-- The part of `CommandPump.HandleDelivery` that follows `HandleCommand`. -/
def complete {E : Type} (h : AggregateHandler ρ) (a : Attempt) (messageID : UUID)
    (cause : Envelope) (instanceID : String) (streamID : Option UUID) (scope : Scope ρ) :
    Stmt E Unit :=
  if scope.events = [] then
    Schema.Aggregate.completeWithoutEvents messageID h.key instanceID
  else
    Schema.Aggregate.completeWithEvents a.acquisition messageID h.key instanceID streamID
      (h.packer.sealedHeader cause h.key instanceID).correlationID
      (marshalSnapshot h a scope.root) scope.events

/-- The part of `CommandPump.HandleDelivery` that follows `loadInstance`. -/
def handleLoaded (h : AggregateHandler ρ) (a : Attempt) (messageID : UUID)
    (cause : Envelope) (instanceID : String) (root : ρ) (streamID : Option UUID) :
    Stmt (Observation ρ) Unit := do
  emit (.handleCommand h.key instanceID root)
  match handleCommand h a cause instanceID root with
  | none => throw .failed
  | some scope => complete h a messageID cause instanceID streamID scope

/-- `CommandPump.HandleDelivery`. -/
def handleDelivery (h : AggregateHandler ρ) (a : Attempt) (del : Delivery) (env : Envelope) :
    Stmt (Observation ρ) Unit := do
  if a.unpacks then
    let instanceID ← routeCommandToInstance a
    let (root, streamID) ← loadInstance h a instanceID
    handleLoaded h a del.messageID env instanceID root streamID
  else
    throw .failed

/-- `CommandPump` as a driver of a message pump. -/
def commandPump (h : AggregateHandler ρ) (c : Circumstances) (a : Attempt) :
    Driver (Observation ρ) where
  acquireDelivery := acquireCommandDelivery h.commandTypeIDs c.acquiredAt c.visited
  postponeDelivery := postponeCommandDelivery c.postponedAt
  handleDelivery := handleDelivery h a

end Runkit.Aggregate
