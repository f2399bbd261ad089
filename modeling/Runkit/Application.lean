/-
  Application.lean --- what the engine knows of the application's handlers.

  Handlers are arbitrary code.  What they compute is given by the functions of
  a handler; that any call of theirs may also return an error or panic, and
  what they do with the scope they are given, is left open and decided for each
  attempt to deliver a message separately (`Aggregate.Attempt` and the like).

  Roots of all handlers are values of one type `ρ`.
-/
import Runkit.Message

set_option autoImplicit false

namespace Runkit

/-- An aggregate message handler and its configuration. -/
structure AggregateHandler (ρ : Type) where
  key : UUID
  packer : Packer
  commandTypeIDs : Finset UUID
  outboundMessageTypes : Finset UUID
  /-- What `New()` returns. -/
  new : ρ
  applyEvent : ρ → Message → ρ
  /-- What `MarshalBinary()` returns when it succeeds.  A nil slice is `none`. -/
  marshalBinary : ρ → Option Bytes
  /-- The root after `UnmarshalBinary()` succeeds. -/
  unmarshalBinary : ρ → Option Bytes → ρ

/-- An integration message handler and its configuration. -/
structure IntegrationHandler where
  key : UUID
  packer : Packer
  commandTypeIDs : Finset UUID
  outboundMessageTypes : Finset UUID

/-- A process message handler and its configuration. -/
structure ProcessHandler (ρ : Type) where
  key : UUID
  packer : Packer
  eventTypes : Finset UUID
  deadlineTypeIDs : Finset UUID
  outboundMessageTypes : Finset UUID
  /-- What `New()` returns. -/
  new : ρ
  /-- What `MarshalBinary()` returns when it succeeds.  A nil slice is `none`. -/
  marshalBinary : ρ → Option Bytes
  /-- The root after `UnmarshalBinary()` succeeds. -/
  unmarshalBinary : ρ → Option Bytes → ρ

/-- How a sink disposed of an event. -/
inductive Disposition where
  /-- The handler did not route the event to an instance. -/
  | unrouted
  /-- The event was routed to an instance that has ended. -/
  | ended
  | handled
  deriving DecidableEq, Repr

/-- What happens within transactions besides reading and writing rows. -/
inductive Observation (ρ : Type) where
  /-- An aggregate instance has been locked in order to load it. -/
  | loading (handlerKey : UUID) (instanceID : String)
  /-- `HandleCommand` has been called with the given root. -/
  | handleCommand (handlerKey : UUID) (instanceID : String) (root : ρ)
  /-- `HandleEvent` or `HandleDeadline` has been called with the given root. -/
  | handleMessage (handlerKey : UUID) (instanceID : String) (root : ρ)
  /-- A sink has disposed of an event. -/
  | processed (handlerKey streamID : UUID) (env : Envelope) (disposition : Disposition)
  deriving DecidableEq

end Runkit
