/-
  Schema/Tables.lean --- the rows of the database.

  Source: internal/schema/ddl/*/00-tables.sql.

  Each row is identified by its primary key, which is also the unit of locking.
  An absent row is `none`.  Two tables are held differently from how SQL lists
  them, without losing anything:

    * the rows of `eventstream.events` are kept with the row of
      `eventstream.streams` that they refer to, in the order in which they were
      inserted;
    * `commandqueue.idempotency_keys` has a second unique column, so it is kept
      together with the index on that column.

  Envelopes are stored as bytes.  Only what unmarshaling makes of the bytes is
  ever used, so a stored envelope is the envelope itself; whether a node can
  unmarshal it is left open wherever that is attempted.
-/
import Runkit.Message
import Runkit.Foundation.Program

set_option autoImplicit false

namespace Runkit.Schema

open Runkit.Foundation

/-- A row of `eventstream.events`. -/
structure EventRow where
  messageID : UUID
  correlationID : UUID
  messageTypeID : UUID
  envelope : Envelope
  streamID : UUID
  streamOffset : Nat
  /-- `aggregate_handler_key` and `aggregate_instance_id`, which are both NULL or
  both not NULL. -/
  aggregate : Option (UUID × String)
  deriving DecidableEq, Repr

/-- A stream: `next_offset` of its row in `eventstream.streams`, if there is one,
and the rows of `eventstream.events` that refer to it. -/
structure Stream where
  nextOffset : Option Nat
  events : List EventRow
  deriving DecidableEq, Repr

/-- The offset at which a stream ends. -/
def Stream.next (stream : Stream) : Nat := stream.nextOffset.getD 0

theorem Stream.next_of_some {stream : Stream} {offset : Nat}
    (h : stream.nextOffset = some offset) : stream.next = offset := by
  rw [Stream.next, h, Option.getD_some]

theorem Stream.next_of_none {stream : Stream} (h : stream.nextOffset = none) :
    stream.next = 0 := by
  rw [Stream.next, h, Option.getD_none]

/-- A row of `commandqueue.commands`. -/
structure CommandRow where
  messageTypeID : UUID
  envelope : Envelope
  failures : Nat
  deliverAt : Time
  deriving DecidableEq, Repr

/-- A row of `aggregate.instances`. -/
structure AggregateInstanceRow where
  streamID : Option UUID
  snapshot : Option Bytes
  snapshotOffset : Option Nat
  deriving DecidableEq, Repr

/-- A row of `process.instances`. -/
structure ProcessInstanceRow where
  ended : Bool
  state : Option Bytes
  deriving DecidableEq, Repr

/-- A row of `process.deadlines`. -/
structure DeadlineRow where
  messageTypeID : UUID
  handlerKey : UUID
  instanceID : String
  envelope : Envelope
  failures : Nat
  deliverAt : Time
  deriving DecidableEq, Repr

/-- The primary keys of all tables. -/
inductive Key where
  | stream (id : UUID)
  | handlerCheckpoint (handlerKey streamID : UUID)
  | command (messageID : UUID)
  | idempotencyKey (key : String)
  | idempotencyMessageID (messageID : UUID)
  | aggregateInstance (handlerKey : UUID) (instanceID : String)
  | processInstance (handlerKey : UUID) (instanceID : String)
  | deadline (messageID : UUID)
  deriving DecidableEq, Repr

/-- What is stored under each key. -/
@[reducible] def Row : Key → Type
  | .stream _ => Stream
  | .handlerCheckpoint _ _ => Option Nat
  | .command _ => Option CommandRow
  | .idempotencyKey _ => Option UUID
  | .idempotencyMessageID _ => Option String
  | .aggregateInstance _ _ => Option AggregateInstanceRow
  | .processInstance _ _ => Option ProcessInstanceRow
  | .deadline _ => Option DeadlineRow

/-- The contents of the database. -/
abbrev Database := ∀ k : Key, Row k

/-- The database after the schema has been created. -/
def emptyDatabase : Database
  | .stream _ => { nextOffset := none, events := [] }
  | .handlerCheckpoint _ _ => none
  | .command _ => none
  | .idempotencyKey _ => none
  | .idempotencyMessageID _ => none
  | .aggregateInstance _ _ => none
  | .processInstance _ _ => none
  | .deadline _ => none

/-- The errors that a transaction can be committed in spite of.  Any other error
rolls it back. -/
inductive Error where
  /-- `messagepump.ErrFailed` -/
  | failed
  /-- `messagepump.ErrBusy` -/
  | busy
  deriving DecidableEq, Repr

/-- A sequence of statements within a transaction, which may emit observations
of type `E`. -/
abbrev Stmt (E α : Type) := Program Key Row E Error α

namespace Stmt

variable {E α : Type}

abbrev lock (k : Key) : Stmt E (Row k) := Program.lock k

abbrev tryLock (k : Key) (visible : Row k → Bool) : Stmt E (Option (Row k)) :=
  Program.tryLock k visible

abbrev peek (k : Key) : Stmt E (Row k) := Program.peek k

abbrev write (k : Key) (row : Row k) : Stmt E Unit := Program.write k row

abbrev sweep (matching : ∀ k, Row k → Bool) (update : ∀ k, Row k → Row k) : Stmt E Unit :=
  Program.sweep matching update

abbrev emit (e : E) : Stmt E Unit := Program.emit e

abbrev abort : Stmt E α := Program.abort

end Stmt

end Runkit.Schema
