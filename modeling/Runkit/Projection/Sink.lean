/-
  Projection/Sink.lean --- projection handlers, and the attempts to consume streams
  into them.

  Source: internal/projection/sink.go, eventscope.go, and `startStreamConsumer` in
  internal/eventstream/consumer.go.

  A projection is kept by the application.  The engine knows of it what the handler's
  methods return, and they may return anything: the handler is a relation between the
  state of the projection before and after a call.  The projection is one for all nodes,
  whereas each node has a catalog of its own.

  One attempt to consume a stream is one call of the function that `startStreamConsumer`
  hands to the supervisor.  Any number of attempts may be in progress, on one node or on
  several, for one stream or for several.
-/
import Runkit.EventStream.Delivery

set_option autoImplicit false

namespace Runkit.Projection

open Runkit.Foundation Runkit.EventStream

variable {N S W C H : Type}

/-! ## Handlers -/

/-- `eventScope`. -/
structure EventScope where
  streamID : String
  offset : Nat
  checkpointOffset : Nat
  deriving DecidableEq, Repr

/-- A projection message handler.  What a method returns, or `none` if it returns an
error or panics, stands between the states of the projection before and after the
call. -/
structure ProjectionHandler (H : Type) where
  checkpointOffset : H → String → Option Nat → H → Prop
  handleEvent : H → EventScope → Message → Option Nat → H → Prop

/-- `Sink`. -/
structure Sink (H : Type) where
  handler : ProjectionHandler H
  eventTypes : Finset UUID
  /-- Whether there is a `HandlerLock`. -/
  handlerLock : Bool

/-! ## Attempts -/

/-- Where an attempt to consume a stream is.  In `Sink.ConsumeSegment`, `cp` is the
variable of that name there, and `streamID` is that of the segment. -/
inductive AttemptPhase where
  /-- About to call `Catalog.Consume`. -/
  | resuming
  /-- In `Catalog.Consume`, but not in `Sink.ConsumeSegment`. -/
  | consuming
  /-- In `Sink.ConsumeSegment`, with the events that remain to be dispatched. -/
  | handling (streamID : UUID) (cp : Nat) (rest : List Envelope)
  /-- In the handler's `HandleEvent`. -/
  | called (streamID : UUID) (cp : Nat) (env : Envelope) (rest : List Envelope)
  /-- `Sink.ConsumeSegment` has returned an error or reported a conflict. -/
  | failed
  deriving DecidableEq, Repr

/-- An attempt to consume a stream.  `cp` is the variable of that name in
`startStreamConsumer`. -/
structure Attempt where
  streamID : UUID
  cp : Nat
  phase : AttemptPhase
  deriving DecidableEq, Repr

/-- The scope that `Sink.dispatch` passes to the handler. -/
def dispatchScope (streamID : UUID) (offset cp : Nat) : EventScope where
  streamID := streamID.asString
  offset := offset
  checkpointOffset := cp

/-- What `Sink.ConsumeSegment` does once the handler has returned `next` for the event at
the offset: it goes on with the next event, or reports a conflict. -/
def afterDispatch (streamID : UUID) (offset next : Nat) (rest : List Envelope) : AttemptPhase :=
  if next ≠ offset + 1 then .failed else .handling streamID next rest

/-- What passes between an attempt and the handler. -/
inductive Exchange where
  /-- `CheckpointOffset` or `HandleEvent` returns the offset. -/
  | reported (offset : Nat)
  /-- `HandleEvent` is called. -/
  | called (scope : EventScope) (event : Message)
  deriving DecidableEq, Repr

/-! ## Nodes -/

/-- A node: its catalog with the calls of `Catalog.Watch` and `Catalog.Consume`, and the
attempts, each with the call of `Catalog.Consume` that it makes. -/
structure Node (S W C : Type) where
  catalog : Catalog S
  watches : W → Option (Watch S)
  consumers : C → Option Consumer
  attempts : C → Option Attempt
  /-- `HandlerLock` is held. -/
  locked : Bool

namespace Node

/-- The node without its attempts. -/
def world (node : Node S W C) (logs : UUID → EventLog) : World S W C where
  logs := logs
  catalog := node.catalog
  watches := node.watches
  consumers := node.consumers

def setWorld (node : Node S W C) (w : World S W C) : Node S W C :=
  { node with catalog := w.catalog, watches := w.watches, consumers := w.consumers }

def setAttempt [DecidableEq C] (node : Node S W C) (i : C) (a : Attempt) : Node S W C :=
  { node with attempts := Function.update node.attempts i (some a) }

def setConsumer [DecidableEq C] (node : Node S W C) (i : C) (k : Consumer) : Node S W C :=
  { node with consumers := Function.update node.consumers i (some k) }

/-- A node without streams. -/
def start (cacheSize : Nat) : Node S W C where
  catalog := .empty cacheSize
  watches := fun _ => none
  consumers := fun _ => none
  attempts := fun _ => none
  locked := false

/-- `Catalog.Consume` is called by the attempt, and while it passes a segment to the
attempt, it goes on only when the attempt does. -/
structure Undisturbed (node : Node S W C) (w : World S W C) : Prop where
  uncalled : ∀ i a, node.attempts i = some a → node.consumers i = none → w.consumers i = none
  delivering : ∀ i a k seg, node.attempts i = some a → node.consumers i = some k →
    k.delivering = some seg → w.consumers i = some k

/-- One step of a node, and what passes between an attempt and the handler in it. -/
inductive Step [DecidableEq W] [DecidableEq C] (sink : Sink H) (logs : UUID → EventLog) :
    H → Node S W C → Option (C × Exchange) → H → Node S W C → Prop where
  /-- The catalog goes on. -/
  | background {h : H} {node : Node S W C} {w : World S W C}
      (hstep : World.Step (node.world logs) w) (hlogs : w.logs = logs)
      (hattempts : node.Undisturbed w) :
      Step sink logs h node none h (node.setWorld w)
  /-- An attempt begins with `Sink.CheckpointOffset`. -/
  | resume {h h' : H} {node : Node S W C} {i : C} {streamID : UUID} {cp : Nat}
      (hnew : node.attempts i = none) (huncalled : node.consumers i = none)
      (hhandler : sink.handler.checkpointOffset h streamID.asString (some cp) h') :
      Step sink logs h node (some (i, .reported cp)) h'
        (node.setAttempt i { streamID := streamID, cp := cp, phase := .resuming })
  | resumeFailed {h h' : H} {node : Node S W C} {streamID : UUID}
      (hhandler : sink.handler.checkpointOffset h streamID.asString none h') :
      Step sink logs h node none h' node
  /-- `Catalog.Consume` is called. -/
  | consume {h : H} {node : Node S W C} {i : C} {a : Attempt}
      (hattempt : node.attempts i = some a) (hphase : a.phase = .resuming)
      (hnew : node.consumers i = none) (htypes : sink.eventTypes.Nonempty) :
      Step sink logs h node none h
        ((node.setConsumer i (.start a.streamID sink.eventTypes a.cp)).setAttempt i
          { a with phase := .consuming })
  /-- `Sink.ConsumeSegment` is called. -/
  | consumeSegment {h : H} {node : Node S W C} {i : C} {a : Attempt} {k : Consumer}
      {seg : Segment} (hattempt : node.attempts i = some a) (hphase : a.phase = .consuming)
      (hconsumer : node.consumers i = some k) (hseg : k.delivering = some seg) :
      Step sink logs h node none h
        (node.setAttempt i { a with phase := .handling seg.streamID a.cp seg.envelopes })
  /-- `Sink.dispatch` fails to unpack the event, or to acquire the lock. -/
  | dispatchFailed {h : H} {node : Node S W C} {i : C} {a : Attempt} {streamID : UUID}
      {cp : Nat} {env : Envelope} {rest : List Envelope} (hattempt : node.attempts i = some a)
      (hphase : a.phase = .handling streamID cp (env :: rest)) :
      Step sink logs h node none h (node.setAttempt i { a with phase := .failed })
  /-- `Sink.dispatch` calls the handler. -/
  | dispatch {h : H} {node : Node S W C} {i : C} {a : Attempt} {streamID : UUID}
      {cp : Nat} {env : Envelope} {rest : List Envelope} (hattempt : node.attempts i = some a)
      (hphase : a.phase = .handling streamID cp (env :: rest))
      (hlock : sink.handlerLock = true → node.locked = false) :
      Step sink logs h node
        (some (i, .called (dispatchScope streamID env.offset cp) env.body.message)) h
        { node.setAttempt i { a with phase := .called streamID cp env rest } with
          locked := sink.handlerLock }
  | handled {h h' : H} {node : Node S W C} {i : C} {a : Attempt} {streamID : UUID}
      {cp next : Nat} {env : Envelope} {rest : List Envelope}
      (hattempt : node.attempts i = some a) (hphase : a.phase = .called streamID cp env rest)
      (hhandler : sink.handler.handleEvent h (dispatchScope streamID env.offset cp)
        env.body.message (some next) h') :
      Step sink logs h node (some (i, .reported next)) h'
        { node.setAttempt i { a with phase := afterDispatch streamID env.offset next rest } with
          locked := false }
  | handleFailed {h h' : H} {node : Node S W C} {i : C} {a : Attempt} {streamID : UUID}
      {cp : Nat} {env : Envelope} {rest : List Envelope}
      (hattempt : node.attempts i = some a) (hphase : a.phase = .called streamID cp env rest)
      (hhandler : sink.handler.handleEvent h (dispatchScope streamID env.offset cp)
        env.body.message none h') :
      Step sink logs h node none h'
        { node.setAttempt i { a with phase := .failed } with locked := false }
  /-- `Sink.ConsumeSegment` has dispatched all events, and the segment is accepted. -/
  | accept {h : H} {node : Node S W C} {i : C} {a : Attempt} {streamID : UUID} {cp : Nat}
      {k k' : Consumer} {seg : Segment} {catalog : Catalog S}
      (hattempt : node.attempts i = some a) (hphase : a.phase = .handling streamID cp [])
      (hconsumer : node.consumers i = some k) (hseg : k.delivering = some seg)
      (hstep : Consumer.Step (logs k.streamID) node.catalog k catalog k')
      (haccepted : k'.accepted = k.accepted ++ [seg]) :
      Step sink logs h node none h
        ({ node.setConsumer i k' with catalog := catalog }.setAttempt i
          { a with cp := cp, phase := .consuming })
  /-- The segment is rejected, and the supervisor makes another attempt. -/
  | reject {h : H} {node : Node S W C} {i : C} {a : Attempt} {k k' : Consumer}
      {catalog : Catalog S} (hattempt : node.attempts i = some a) (hphase : a.phase = .failed)
      (hconsumer : node.consumers i = some k)
      (hstep : Consumer.Step (logs k.streamID) node.catalog k catalog k')
      (hrejected : k'.phase = .returned .rejected) :
      Step sink logs h node none h { node.setConsumer i k' with catalog := catalog }

end Node

/-! ## All nodes together -/

/-- The streams, the nodes, the projection, and what has passed between attempts and the
handler, with the latest first. -/
structure State (N S W C H : Type) where
  logs : UUID → EventLog
  nodes : N → Node S W C
  projection : H
  history : List (N × C × Exchange)

namespace State

/-- Nothing has happened yet, and all streams are empty. -/
def start (cacheSize : N → Nat) (h : H) : State N S W C H where
  logs := fun _ => Log.empty _ _
  nodes := fun n => .start (cacheSize n)
  projection := h
  history := []

/-- The history after a step of a node. -/
def record (history : List (N × C × Exchange)) (n : N) :
    Option (C × Exchange) → List (N × C × Exchange)
  | none => history
  | some e => (n, e) :: history

/-- One step of a stream or a node. -/
inductive Step [DecidableEq N] [DecidableEq W] [DecidableEq C] (sink : Sink H) :
    State N S W C H → State N S W C H → Prop where
  /-- Events are appended to a stream. -/
  | grow {st : State N S W C H} {id : UUID} {log : EventLog}
      (hextends : (st.logs id).Extends log) :
      Step sink st { st with logs := Function.update st.logs id log }
  | node {st : State N S W C H} {n : N} {node : Node S W C} {e : Option (C × Exchange)} {h : H}
      (hstep : Node.Step sink st.logs st.projection (st.nodes n) e h node) :
      Step sink st
        { st with
          nodes := Function.update st.nodes n node
          projection := h
          history := record st.history n e }

/-- The system gets from one state to another by any number of steps. -/
def Reaches [DecidableEq N] [DecidableEq W] [DecidableEq C] (sink : Sink H) :
    State N S W C H → State N S W C H → Prop :=
  Relation.ReflTransGen (Step sink)

end State

end Runkit.Projection
