/-
  Integration/CommandPump.lean --- delivering commands to integrations.

  Source: internal/integration/commandpump.go and commandscope.go.

  `concurrency.EnforceConcurrencyPreference` only delays the call of the handler
  and touches no row, so it is left out.
-/
import Runkit.Application
import Runkit.MessagePump

set_option autoImplicit false

namespace Runkit.Integration

open Runkit.Foundation Runkit.Schema Runkit.Schema.Stmt Runkit.MessagePump

variable {E : Type}

/-- A call of `RecordEvent`, with what is not decided by the engine: whether the
event is valid, and whether the handler recovers if the call panics. -/
structure RecordCall where
  event : Effect
  valid : Bool := true
  recovers : Bool := false
  deriving DecidableEq, Repr

/-- `commandScope.RecordEvent`, given the events that have been packed so far.
The second component says whether it panics. -/
def recordEvent (h : IntegrationHandler) (cause : Envelope) (call : RecordCall)
    (events : List Envelope) : List Envelope × Bool :=
  if call.event.message.typeID ∉ h.outboundMessageTypes then
    (events, true)
  else
    (events ++ [h.packer.packEffect cause h.key "" call.event], !call.valid)

/-- What `HandleCommand` records, or `none` if it panics. -/
def recordEvents (h : IntegrationHandler) (cause : Envelope) :
    List RecordCall → List Envelope → Option (List Envelope)
  | [], events => some events
  | call :: rest, events =>
      match recordEvent h cause call events with
      | (events, false) => recordEvents h cause rest events
      | (events, true) => if call.recovers then recordEvents h cause rest events else none

/-- The envelopes of the events that are recorded by the given calls, in
recording order. -/
def packedEvents (h : IntegrationHandler) (cause : Envelope) (calls : List RecordCall) :
    List Envelope :=
  (calls.filter fun call => decide (call.event.message.typeID ∈ h.outboundMessageTypes)).map
    fun call => h.packer.packEffect cause h.key "" call.event

/-- A handler that does not panic has recorded all of its events. -/
theorem recordEvents_events {h : IntegrationHandler} {cause : Envelope}
    {calls : List RecordCall} {events events' : List Envelope}
    (hrecord : recordEvents h cause calls events = some events') :
    events' = events ++ packedEvents h cause calls := by
  induction calls generalizing events with
  | nil =>
      cases hrecord
      simp [packedEvents]
  | cons call rest ih =>
      have hcall : (recordEvent h cause call events).1 ++ packedEvents h cause rest =
          events ++ packedEvents h cause (call :: rest) := by
        unfold recordEvent packedEvents
        by_cases htype : call.event.message.typeID ∈ h.outboundMessageTypes
        · rw [if_neg (not_not.mpr htype)]
          simp [htype]
        · rw [if_pos htype]
          simp [htype]
      unfold recordEvents at hrecord
      split at hrecord
      · rename_i next hnext
        rw [← hcall, hnext]
        exact ih hrecord
      · rename_i next hnext
        rw [← hcall, hnext]
        split at hrecord
        · exact ih hrecord
        · cases hrecord

/-- What is not decided by the engine while a command is delivered. -/
structure Attempt where
  /-- The command can be unpacked. -/
  unpacks : Bool
  /-- The events that `HandleCommand()` records. -/
  records : List RecordCall
  /-- `HandleCommand()` returns without an error. -/
  returns : Bool
  acquisition : EventStream.Acquisition

/-- The events recorded by `HandleCommand`, or `none` if it fails. -/
def handleCommand (h : IntegrationHandler) (a : Attempt) (cause : Envelope) :
    Option (List Envelope) :=
  match recordEvents h cause a.records [] with
  | none => none
  | some events => if a.returns then some events else none

theorem handleCommand_events {h : IntegrationHandler} {a : Attempt} {cause : Envelope}
    {events : List Envelope} (hhandled : handleCommand h a cause = some events) :
    events = packedEvents h cause a.records := by
  unfold handleCommand at hhandled
  split at hhandled
  · cases hhandled
  · rename_i events' hrecord
    split at hhandled
    · cases hhandled
      simpa using recordEvents_events hrecord
    · cases hhandled

/-- `CommandPump.HandleDelivery`. -/
def handleDelivery (h : IntegrationHandler) (a : Attempt) (del : Delivery) (env : Envelope) :
    Stmt E Unit :=
  if a.unpacks then
    match handleCommand h a env with
    | none => throw .failed
    | some events =>
        if events = [] then
          Schema.Integration.completeWithoutEvents del.messageID
        else
          Schema.Integration.completeWithEvents a.acquisition del.messageID
            (h.packer.sealedHeader env h.key "").correlationID events
  else
    throw .failed

/-- `CommandPump` as a driver of a message pump. -/
def commandPump (h : IntegrationHandler) (c : Circumstances) (a : Attempt) : Driver E where
  acquireDelivery := acquireCommandDelivery h.commandTypeIDs c.acquiredAt c.visited
  postponeDelivery := postponeCommandDelivery c.postponedAt
  handleDelivery := handleDelivery h a

/-! ## What is committed -/

section Commit

variable {before : Database} {s t : Session Key Row E}

/-- What handling a command successfully does to the database. -/
inductive Completes (h : IntegrationHandler) (a : Attempt) (messageID : UUID)
    (cause : Envelope) (before : Database) : Database → Prop where
  | withoutEvents (hhandled : handleCommand h a cause = some []) :
      Completes h a messageID cause before (Function.update before (.command messageID) none)
  | withEvents {events : List Envelope} {streamID : UUID} {base : Nat} {after : Database}
      (hhandled : handleCommand h a cause = some events)
      (hcompleted : Schema.Integration.CompletedWithEvents messageID
        (h.packer.sealedHeader cause h.key "").correlationID events streamID base before after) :
      Completes h a messageID cause before after

/-- What a run of `HandleDelivery` can do. -/
theorem handleDelivery_runs {h : IntegrationHandler} {a : Attempt} {del : Delivery}
    {env : Envelope} {rely : Rely Key Row} {r : Except Error Unit}
    (hview : s.view before = before)
    (hruns : Tx.Runs rely before (handleDelivery h a del env : Stmt E _).run s r t) :
    (r = .ok () ∧ Completes h a del.messageID env before (t.view before)) ∨
      (r = .error .failed ∧ t = s) := by
  unfold handleDelivery at hruns
  split at hruns
  swap
  · exact Or.inr (Tx.runs_throw.mp hruns)
  split at hruns
  · exact Or.inr (Tx.runs_throw.mp hruns)
  · rename_i events hhandled
    split at hruns
    · rename_i hevents
      subst hevents
      obtain ⟨-, hr, rfl⟩ := CommandQueue.remove_runs hruns
      refine Or.inl ⟨hr, ?_⟩
      rw [Session.put_view, Session.acquire_view, hview]
      exact .withoutEvents hhandled
    · obtain ⟨hr, streamID, base, hcompleted⟩ :=
        Schema.Integration.completeWithEvents_runs hruns
      rw [hview] at hcompleted
      exact Or.inl ⟨hr, .withEvents hhandled hcompleted⟩

/-- What a transaction of the integration command pump can commit. -/
theorem commandPump_committed {h : IntegrationHandler} {p : Backoff} {c : Circumstances}
    {a : Attempt} {rely : Rely Key Row} {o : Outcome}
    (hruns : Tx.Runs rely before (deliver (commandPump h c a : Driver E) p c).run .start
      (.ok o) s) :
    CommandCommitted (fun messageID env => Completes h a messageID env before)
      (fun e left => e = .failed ∧ left = before) before o (s.view before) := by
  have hdriver : (commandPump h c a : Driver E).OfCommands h.commandTypeIDs c := ⟨rfl, rfl⟩
  refine hdriver.committed (fun _ messageID env => Completes h a messageID env before)
    _ ?_ ?_ hruns
  · intro messageID row t hrow hhandle
    obtain ⟨-, hcompletes⟩ | ⟨hr, -⟩ := handleDelivery_runs rfl hhandle
    · exact hcompletes
    · cases hr
  · intro messageID row e t hrow hhandle
    obtain ⟨hr, -⟩ | ⟨hr, rfl⟩ := handleDelivery_runs rfl hhandle
    · cases hr
    · cases hr
      exact ⟨⟨rfl, rfl⟩, hrow⟩

end Commit

end Runkit.Integration
