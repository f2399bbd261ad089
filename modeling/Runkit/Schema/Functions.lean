/-
  Schema/Functions.lean --- the SQL functions that write to the database.

  Source: internal/schema/ddl/*/10-funcs.sql and internal/x/xsql/exec.go.

  A statement that fails (a constraint is violated, RAISE EXCEPTION is executed,
  or `xsql.ExecOne` does not find exactly one row) aborts the transaction.  A
  statement may also fail for reasons that have nothing to do with the rows,
  which is covered by the rule that a transaction may be rolled back at any
  time.

  Each function is followed by a lemma that says everything a run of it can do.
-/
import Runkit.Foundation.Locking
import Runkit.Schema.Tables

set_option autoImplicit false

namespace Runkit.Schema

open Runkit.Foundation
open Stmt

variable {E : Type} {rely : Rely Key Row} {rows : Database}

/-! ## commandqueue -/

namespace CommandQueue

/-- The row that `add` inserts into `commandqueue.commands`. -/
def newRow (env : Envelope) (now : Time) : CommandRow where
  messageTypeID := env.typeID
  envelope := env
  failures := 0
  deliverAt := now

/-- The last statements of `commandqueue.add`. -/
def insert (env : Envelope) (now : Time) : Stmt E (UUID × Bool) := do
  match ← lock (.command env.body.messageID) with
  | some _ => abort
  | none =>
      write (.command env.body.messageID) (some (newRow env now))
      return (env.body.messageID, true)

/-- `commandqueue.add`, called at the time `now` with the message ID, type ID and
idempotency key of the given envelope.  It returns `actual_message_id` and
`enqueued`. -/
def add (env : Envelope) (now : Time) : Stmt E (UUID × Bool) := do
  if env.body.idempotencyKey ≠ "" then
    -- INSERT ... ON CONFLICT (idempotency_key) DO NOTHING
    match ← lock (.idempotencyKey env.body.idempotencyKey) with
    | some original => return (original, false)
    | none =>
        -- The column message_id is UNIQUE.
        match ← lock (.idempotencyMessageID env.body.messageID) with
        | some _ => abort
        | none =>
            write (.idempotencyKey env.body.idempotencyKey) (some env.body.messageID)
            write (.idempotencyMessageID env.body.messageID) (some env.body.idempotencyKey)
            insert env now
  else
    insert env now

/-- `commandqueue.remove`. -/
def remove (messageID : UUID) : Stmt E Unit := do
  match ← lock (.command messageID) with
  | none => abort
  | some _ => write (.command messageID) none

/-- What a transaction that does not deliver commands can do to the row of a
command: keep it, or insert it if there is none. -/
inductive KeptOrAdded (messageID : UUID) (before : Option CommandRow) :
    Option CommandRow → Prop where
  | kept : KeptOrAdded messageID before before
  | added {env : Envelope} {now : Time} (hid : env.body.messageID = messageID)
      (hbefore : before = none) : KeptOrAdded messageID before (some (newRow env now))

/-- The session in which a command has been inserted. -/
def inserted (env : Envelope) (now : Time) (s : Session Key Row E) : Session Key Row E :=
  (s.acquire (.command env.body.messageID)).put (.command env.body.messageID)
    (some (newRow env now))

/-- The session in which a command has claimed its idempotency key. -/
def claimed (env : Envelope) (s : Session Key Row E) : Session Key Row E :=
  (((s.acquire (.idempotencyKey env.body.idempotencyKey)).acquire
      (.idempotencyMessageID env.body.messageID)).put
    (.idempotencyKey env.body.idempotencyKey) (some env.body.messageID)).put
    (.idempotencyMessageID env.body.messageID) (some env.body.idempotencyKey)

theorem insert_runs {env : Envelope} {now : Time} {r : Except Error (UUID × Bool)}
    {s t : Session Key Row E}
    (h : Tx.Runs rely rows (insert env now : Stmt E _).run s r t) :
    s.view rows (.command env.body.messageID) = none ∧
      r = .ok (env.body.messageID, true) ∧ t = inserted env now s := by
  unfold insert at h
  rw [Tx.runs_lock_bind] at h
  cases hrow : s.view rows (.command env.body.messageID) with
  | some row => simp [hrow] at h
  | none =>
      simp only [hrow, Tx.runs_write_bind, Session.acquire_locks_self, true_and,
        Tx.runs_ok] at h
      exact ⟨rfl, h⟩

/-- What a run of `add` can do: nothing, if the key was claimed before, or
insert the command, having claimed its key if it has one. -/
theorem add_runs {env : Envelope} {now : Time} {r : Except Error (UUID × Bool)}
    {s t : Session Key Row E} (h : Tx.Runs rely rows (add env now : Stmt E _).run s r t) :
    (∃ original, env.body.idempotencyKey ≠ "" ∧
        s.view rows (.idempotencyKey env.body.idempotencyKey) = some original ∧
        r = .ok (original, false) ∧ t = s.acquire (.idempotencyKey env.body.idempotencyKey)) ∨
      (env.body.idempotencyKey ≠ "" ∧
        s.view rows (.idempotencyKey env.body.idempotencyKey) = none ∧
        s.view rows (.idempotencyMessageID env.body.messageID) = none ∧
        s.view rows (.command env.body.messageID) = none ∧
        r = .ok (env.body.messageID, true) ∧ t = inserted env now (claimed env s)) ∨
      (env.body.idempotencyKey = "" ∧
        s.view rows (.command env.body.messageID) = none ∧
        r = .ok (env.body.messageID, true) ∧ t = inserted env now s) := by
  unfold add at h
  by_cases hkey : env.body.idempotencyKey = ""
  · rw [if_neg (by simp [hkey])] at h
    exact Or.inr (Or.inr ⟨hkey, insert_runs h⟩)
  · rw [if_pos hkey, Tx.runs_lock_bind] at h
    cases hrow : s.view rows (.idempotencyKey env.body.idempotencyKey) with
    | some original =>
        simp only [hrow, Tx.runs_ok] at h
        exact Or.inl ⟨original, hkey, rfl, h⟩
    | none =>
        simp only [hrow, Tx.runs_lock_bind, Session.acquire_view] at h
        cases hmessage : s.view rows (.idempotencyMessageID env.body.messageID) with
        | some key => simp [hmessage] at h
        | none =>
            simp only [hmessage, Tx.runs_write_bind] at h
            obtain ⟨-, -, hinsert⟩ := h
            obtain ⟨hcommand, hr, ht⟩ := insert_runs hinsert
            refine Or.inr (Or.inl ⟨hkey, rfl, rfl, ?_, hr, ht⟩)
            simpa using hcommand

theorem remove_runs {messageID : UUID} {r : Except Error Unit} {s t : Session Key Row E}
    (h : Tx.Runs rely rows (remove messageID : Stmt E _).run s r t) :
    s.view rows (.command messageID) ≠ none ∧ r = .ok () ∧
      t = (s.acquire (.command messageID)).put (.command messageID) none := by
  unfold remove at h
  rw [Tx.runs_lock_bind] at h
  cases hrow : s.view rows (.command messageID) with
  | none => simp [hrow] at h
  | some row =>
      simp only [hrow, Tx.runs_write_last, Session.acquire_locks_self, true_and] at h
      exact ⟨by simp, h⟩

/-- Adding a command that has no idempotency key asks for no lock but the one on the
row of the command. -/
theorem add_asks {env : Envelope} {now : Time} (hkey : env.body.idempotencyKey = "") :
    Tx.Asks (fun w => w = .row (.command env.body.messageID)) (add env now : Stmt E _).run := by
  rw [add, if_neg (by simp [hkey])]
  unfold insert
  refine Tx.Asks.except_bind (Tx.asks_lock rfl) ?_
  intro row
  cases row with
  | some row => exact Tx.asks_abort
  | none => exact Tx.Asks.except_bind Tx.asks_write fun _ => Tx.asks_ok

end CommandQueue

/-! ## eventstream -/

namespace EventStream

/-- What `acquire_for_write` finds, in so far as the order of the rows and the
random UUID leave it open: the streams that phase 1 visits, the zero-length
stream that phase 2 sees, if any, the stream that phase 2 then waits for, and
the ID that phase 3 generates. -/
structure Acquisition where
  visited : List UUID
  zeroLength : Option UUID
  awaited : UUID
  generated : UUID
  deriving DecidableEq, Repr, Inhabited

/-- Phase 1 of `acquire_for_write`: the first of the given streams that is not
locked by another transaction. -/
def firstUnlocked : List UUID → Stmt E (Option UUID)
  | [] => return none
  | id :: rest => do
      match ← tryLock (.stream id) (fun stream => stream.nextOffset.isSome) with
      | some _ => return some id
      | none => firstUnlocked rest

/-- The check in phase 2 of `acquire_for_write`. -/
def zeroLengthExists : Option UUID → Stmt E Bool
  | none => return false
  | some id => do
      let stream ← peek (.stream id)
      return decide (stream.nextOffset = some 0)

/-- `eventstream.acquire_for_write`. -/
def acquireForWrite (acq : Acquisition) : Stmt E UUID := do
  match ← firstUnlocked acq.visited with
  | some id => return id
  | none =>
      if ← zeroLengthExists acq.zeroLength then
        let stream ← lock (.stream acq.awaited)
        if stream.nextOffset.isSome then
          return acq.awaited
        else
          abort
      else
        let stream ← lock (.stream acq.generated)
        if stream.nextOffset.isSome then
          abort
        else
          write (.stream acq.generated) { stream with nextOffset := some 0 }
          return acq.generated

/-- The rows that `append` inserts for the given events, from `base` on. -/
def eventRows (streamID correlationID : UUID) (aggregate : Option (UUID × String))
    (base : Nat) (events : List Envelope) : List EventRow :=
  events.mapIdx fun ordinal env =>
    { messageID := env.body.messageID
      correlationID := correlationID
      messageTypeID := env.typeID
      envelope := env
      streamID := streamID
      streamOffset := base + ordinal
      aggregate := aggregate }

section EventRows

variable {streamID correlationID : UUID} {aggregate : Option (UUID × String)} {base : Nat}
  {events : List Envelope}

theorem eventRows_offsets :
    (eventRows streamID correlationID aggregate base events).map (·.streamOffset) =
      List.range' base events.length := by
  apply List.ext_getElem
  · simp [eventRows]
  · intro i h₁ h₂
    simp [eventRows]

theorem eventRows_envelopes :
    (eventRows streamID correlationID aggregate base events).map (·.envelope) = events := by
  apply List.ext_getElem
  · simp [eventRows]
  · intro i h₁ h₂
    simp [eventRows]

theorem eventRows_streamID {row : EventRow}
    (hrow : row ∈ eventRows streamID correlationID aggregate base events) :
    row.streamID = streamID := by
  obtain ⟨i, hi, rfl⟩ := List.mem_mapIdx.mp hrow
  rfl

theorem eventRows_aggregate {row : EventRow}
    (hrow : row ∈ eventRows streamID correlationID aggregate base events) :
    row.aggregate = aggregate := by
  obtain ⟨i, hi, rfl⟩ := List.mem_mapIdx.mp hrow
  rfl

end EventRows

/-- The stream after `append`. -/
def appended (streamID correlationID : UUID) (aggregate : Option (UUID × String))
    (base : Nat) (events : List Envelope) (stream : Stream) : Stream where
  nextOffset := some (base + events.length)
  events := stream.events ++ eventRows streamID correlationID aggregate base events

@[simp] theorem appended_next {streamID correlationID : UUID}
    {aggregate : Option (UUID × String)} {base : Nat} {events : List Envelope}
    {stream : Stream} :
    (appended streamID correlationID aggregate base events stream).next =
      base + events.length := rfl

/-- `eventstream.append`.  It returns NULL if there is no such stream.  The
length of an empty array is NULL, which `next_offset` can not be set to. -/
def append (streamID correlationID : UUID) (aggregate : Option (UUID × String))
    (events : List Envelope) : Stmt E (Option Nat) := do
  let stream ← lock (.stream streamID)
  match stream.nextOffset with
  | none => return none
  | some base =>
      if events = [] then
        abort
      else
        write (.stream streamID) (appended streamID correlationID aggregate base events stream)
        return some (base + events.length)

/-- `eventstream.append_any`. -/
def appendAny (acq : Acquisition) (correlationID : UUID)
    (aggregate : Option (UUID × String)) (events : List Envelope) :
    Stmt E (UUID × Option Nat) := do
  let id ← acquireForWrite acq
  let nextOffset ← append id correlationID aggregate events
  return (id, nextOffset)

theorem firstUnlocked_runs {visited : List UUID} {r : Except Error (Option UUID)}
    {s t : Session Key Row E}
    (h : Tx.Runs rely rows (firstUnlocked visited : Stmt E _).run s r t) :
    (r = .ok none ∧ t = s) ∨
      ∃ id, r = .ok (some id) ∧ t = s.acquire (.stream id) ∧
        (s.view rows (.stream id)).nextOffset ≠ none := by
  induction visited with
  | nil => exact Or.inl (Tx.runs_ok.mp h)
  | cons id rest ih =>
      rw [firstUnlocked, Tx.runs_tryLock_bind] at h
      obtain ⟨hvisible, hdone⟩ | hrest := h
      · obtain ⟨hr, ht⟩ := Tx.runs_ok.mp hdone
        refine Or.inr ⟨id, hr, ht, ?_⟩
        exact Option.isSome_iff_ne_none.mp hvisible
      · exact ih hrest

theorem zeroLengthExists_runs {candidate : Option UUID} {r : Except Error Bool}
    {s t : Session Key Row E}
    (h : Tx.Runs rely rows (zeroLengthExists candidate : Stmt E _).run s r t) :
    (∃ b, r = .ok b) ∧ t = s := by
  cases candidate with
  | none =>
      obtain ⟨hr, ht⟩ := Tx.runs_ok.mp h
      exact ⟨⟨_, hr⟩, ht⟩
  | some id =>
      rw [zeroLengthExists, Tx.runs_peek_bind] at h
      obtain ⟨row, -, -, hrest⟩ := h
      obtain ⟨hr, ht⟩ := Tx.runs_ok.mp hrest
      exact ⟨⟨_, hr⟩, ht⟩

/-- What a run of `acquire_for_write` can do: lock a stream that exists, or
create one. -/
theorem acquireForWrite_runs {acq : Acquisition} {r : Except Error UUID}
    {s t : Session Key Row E}
    (h : Tx.Runs rely rows (acquireForWrite acq : Stmt E _).run s r t) :
    ∃ id, r = .ok id ∧
      ((t = s.acquire (.stream id) ∧ (s.view rows (.stream id)).nextOffset ≠ none) ∨
        (t = (s.acquire (.stream id)).put (.stream id)
            { s.view rows (.stream id) with nextOffset := some 0 } ∧
          (s.view rows (.stream id)).nextOffset = none)) := by
  unfold acquireForWrite at h
  obtain ⟨e, -, herror⟩ | ⟨found, u, hfirst, hrest⟩ := Tx.runs_except_bind.mp h
  · obtain ⟨hr, -⟩ | ⟨id, hr, -⟩ := firstUnlocked_runs herror <;> cases hr
  · obtain ⟨hfound, rfl⟩ | ⟨id, hfound, rfl, hexists⟩ := firstUnlocked_runs hfirst
    · cases hfound
      obtain ⟨e, -, herror⟩ | ⟨exists_, u, hzero, hphase⟩ := Tx.runs_except_bind.mp hrest
      · obtain ⟨⟨b, hb⟩, -⟩ := zeroLengthExists_runs herror
        cases hb
      · obtain ⟨-, rfl⟩ := zeroLengthExists_runs hzero
        split at hphase
        · -- Phase 2
          rw [Tx.runs_lock_bind] at hphase
          split at hphase
          · rename_i hexists
            obtain ⟨rfl, rfl⟩ := Tx.runs_ok.mp hphase
            exact ⟨_, rfl, Or.inl ⟨rfl, Option.isSome_iff_ne_none.mp hexists⟩⟩
          · exact absurd hphase (by simp)
        · -- Phase 3
          rw [Tx.runs_lock_bind] at hphase
          split at hphase
          · exact absurd hphase (by simp)
          · rename_i hnone
            simp only [Tx.runs_write_bind, Tx.runs_ok] at hphase
            obtain ⟨-, rfl, rfl⟩ := hphase
            exact ⟨_, rfl, Or.inr ⟨rfl, by simpa using hnone⟩⟩
    · cases hfound
      obtain ⟨rfl, rfl⟩ := Tx.runs_ok.mp hrest
      exact ⟨id, rfl, Or.inl ⟨rfl, hexists⟩⟩

/-- What a run of `append` can do. -/
theorem append_runs {streamID correlationID : UUID} {aggregate : Option (UUID × String)}
    {events : List Envelope} {r : Except Error (Option Nat)} {s t : Session Key Row E}
    (h : Tx.Runs rely rows
      (append streamID correlationID aggregate events : Stmt E _).run s r t) :
    ((s.view rows (.stream streamID)).nextOffset = none ∧ r = .ok none ∧
        t = s.acquire (.stream streamID)) ∨
      ∃ base, (s.view rows (.stream streamID)).nextOffset = some base ∧ events ≠ [] ∧
        r = .ok (some (base + events.length)) ∧
        t = (s.acquire (.stream streamID)).put (.stream streamID)
          (appended streamID correlationID aggregate base events
            (s.view rows (.stream streamID))) := by
  unfold append at h
  rw [Tx.runs_lock_bind] at h
  cases hnext : (s.view rows (.stream streamID)).nextOffset with
  | none =>
      simp only [hnext, Tx.runs_ok] at h
      exact Or.inl ⟨rfl, h⟩
  | some base =>
      simp only [hnext] at h
      split at h
      · simp at h
      · rename_i hevents
        simp only [Tx.runs_write_bind, Session.acquire_locks_self, true_and, Tx.runs_ok] at h
        exact Or.inr ⟨base, rfl, hevents, h⟩

/-- What a run of `append_any` can do: the stream that it acquires exists, so
the events are always appended to it. -/
theorem appendAny_runs {acq : Acquisition} {correlationID : UUID}
    {aggregate : Option (UUID × String)} {events : List Envelope}
    {r : Except Error (UUID × Option Nat)} {s t : Session Key Row E}
    (h : Tx.Runs rely rows
      (appendAny acq correlationID aggregate events : Stmt E _).run s r t) :
    ∃ id base, r = .ok (id, some (base + events.length)) ∧ events ≠ [] ∧
      ((s.view rows (.stream id)).nextOffset = some base ∨
        ((s.view rows (.stream id)).nextOffset = none ∧ base = 0)) ∧
      t.view rows (.stream id) =
        appended id correlationID aggregate base events (s.view rows (.stream id)) ∧
      ∀ k, k ≠ .stream id → t.view rows k = s.view rows k := by
  unfold appendAny at h
  obtain ⟨e, -, herror⟩ | ⟨id, u, hacquire, hrest⟩ := Tx.runs_except_bind.mp h
  · obtain ⟨_, hr, -⟩ := acquireForWrite_runs herror
    cases hr
  obtain ⟨_, hid, hacquired⟩ := acquireForWrite_runs hacquire
  cases hid
  obtain ⟨e, -, herror⟩ | ⟨next, v, happend, hdone⟩ := Tx.runs_except_bind.mp hrest
  · obtain ⟨-, hr, -⟩ | ⟨_, -, -, hr, -⟩ := append_runs herror <;> cases hr
  obtain ⟨rfl, rfl⟩ := Tx.runs_ok.mp hdone
  obtain ⟨hmissing, -, -⟩ | ⟨base, hbase, hnonempty, hnext, rfl⟩ := append_runs happend
  · -- The stream that was acquired exists.
    obtain ⟨rfl, hexists⟩ | ⟨rfl, -⟩ := hacquired
    · exact absurd hmissing hexists
    · simp at hmissing
  · cases hnext
    refine ⟨id, base, rfl, hnonempty, ?_, ?_, ?_⟩
    · obtain ⟨rfl, -⟩ | ⟨rfl, hnew⟩ := hacquired
      · exact Or.inl hbase
      · exact Or.inr ⟨hnew, by simpa using hbase.symm⟩
    · obtain ⟨rfl, -⟩ | ⟨rfl, -⟩ := hacquired <;> simp [appended]
    · intro k hk
      obtain ⟨rfl, -⟩ | ⟨rfl, -⟩ := hacquired <;> simp [hk]

end EventStream

/-! ## aggregate -/

namespace Aggregate

/-- An UPDATE of one row of `aggregate.instances`, which affects no row if the
instance does not exist. -/
def updateInstance (handlerKey : UUID) (instanceID : String)
    (update : AggregateInstanceRow → AggregateInstanceRow) : Stmt E Unit := do
  match ← lock (.aggregateInstance handlerKey instanceID) with
  | none => return
  | some row => write (.aggregateInstance handlerKey instanceID) (some (update row))

/-- The first statement of `aggregate.complete_without_events`. -/
def deleteUnbound (handlerKey : UUID) (instanceID : String) : Stmt E Unit := do
  match ← lock (.aggregateInstance handlerKey instanceID) with
  | some { streamID := none, .. } => write (.aggregateInstance handlerKey instanceID) none
  | _ => return

/-- `aggregate.complete_without_events`. -/
def completeWithoutEvents (messageID handlerKey : UUID) (instanceID : String) :
    Stmt E Unit := do
  deleteUnbound handlerKey instanceID
  CommandQueue.remove messageID

/-- The stream that `complete_with_events` appends to: the one given, or one
that it acquires and binds the instance to. -/
def boundStream (acq : EventStream.Acquisition) (handlerKey : UUID) (instanceID : String) :
    Option UUID → Stmt E UUID
  | some streamID => return streamID
  | none => do
      let streamID ← EventStream.acquireForWrite acq
      updateInstance handlerKey instanceID fun row => { row with streamID := some streamID }
      return streamID

/-- The snapshot update of `complete_with_events`.  A snapshot without an offset
violates a constraint of the table. -/
def updateSnapshot (handlerKey : UUID) (instanceID : String) (nextOffset : Option Nat) :
    Option Bytes → Stmt E Unit
  | none => return
  | some snapshot =>
      match nextOffset with
      | none => abort
      | some next =>
          updateInstance handlerKey instanceID fun row =>
            { row with snapshot := some snapshot, snapshotOffset := some (next - 1) }

/-- `aggregate.complete_with_events`.  The snapshot is NULL if it is `none`. -/
def completeWithEvents (acq : EventStream.Acquisition) (messageID handlerKey : UUID)
    (instanceID : String) (streamID : Option UUID) (correlationID : UUID)
    (snapshot : Option Bytes) (events : List Envelope) : Stmt E Unit := do
  let streamID ← boundStream acq handlerKey instanceID streamID
  let nextOffset ←
    EventStream.append streamID correlationID (some (handlerKey, instanceID)) events
  updateSnapshot handlerKey instanceID nextOffset snapshot
  CommandQueue.remove messageID

/-- The row of an instance after `complete_with_events`: it is bound to the
stream, and its snapshot is replaced if there is a new one. -/
def completedInstance (streamID : UUID) (nextOffset : Nat) (snapshot : Option Bytes)
    (row : AggregateInstanceRow) : AggregateInstanceRow :=
  match snapshot with
  | none => { row with streamID := some streamID }
  | some data =>
      { streamID := some streamID
        snapshot := some data
        snapshotOffset := some (nextOffset - 1) }

@[simp] theorem completedInstance_streamID (streamID : UUID) (nextOffset : Nat)
    (snapshot : Option Bytes) (row : AggregateInstanceRow) :
    (completedInstance streamID nextOffset snapshot row).streamID = some streamID := by
  cases snapshot with
  | none => rfl
  | some data => rfl

/-- The row of an instance after `complete_without_events`. -/
def withoutUnbound (row : Option AggregateInstanceRow) : Option AggregateInstanceRow :=
  row.filter fun row => row.streamID.isSome

theorem updateInstance_runs {handlerKey : UUID} {instanceID : String}
    {update : AggregateInstanceRow → AggregateInstanceRow} {row : AggregateInstanceRow}
    {r : Except Error Unit} {s t : Session Key Row E}
    (hrow : s.view rows (.aggregateInstance handlerKey instanceID) = some row)
    (h : Tx.Runs rely rows
      (updateInstance handlerKey instanceID update : Stmt E _).run s r t) :
    r = .ok () ∧ t = (s.acquire (.aggregateInstance handlerKey instanceID)).put
      (.aggregateInstance handlerKey instanceID) (some (update row)) := by
  unfold updateInstance at h
  rw [Tx.runs_lock_bind, hrow, Tx.runs_write_last] at h
  exact h.2

theorem deleteUnbound_runs {handlerKey : UUID} {instanceID : String}
    {r : Except Error Unit} {s t : Session Key Row E}
    (h : Tx.Runs rely rows (deleteUnbound handlerKey instanceID : Stmt E _).run s r t) :
    r = .ok () ∧ t.view rows = Function.update (s.view rows)
      (.aggregateInstance handlerKey instanceID)
      (withoutUnbound (s.view rows (.aggregateInstance handlerKey instanceID))) := by
  unfold deleteUnbound at h
  rw [Tx.runs_lock_bind] at h
  split at h
  · rename_i hrow
    obtain ⟨-, hr, rfl⟩ := Tx.runs_write_last.mp h
    rw [hrow]
    exact ⟨hr, by simp [withoutUnbound, Option.filter]⟩
  · rename_i hbound
    obtain ⟨hr, rfl⟩ := Tx.runs_ok.mp h
    refine ⟨hr, ?_⟩
    cases hrow : s.view rows (.aggregateInstance handlerKey instanceID) with
    | none =>
        have hnone : withoutUnbound none =
            s.view rows (.aggregateInstance handlerKey instanceID) := hrow.symm
        rw [hnone, Function.update_eq_self]
        rfl
    | some row =>
        obtain ⟨streamID, snapshot, snapshotOffset⟩ := row
        cases streamID with
        | none => exact absurd hrow (hbound _ _)
        | some streamID => simp [withoutUnbound, Option.filter, ← hrow]

/-- What a run of `complete_without_events` can do. -/
theorem completeWithoutEvents_runs {messageID handlerKey : UUID} {instanceID : String}
    {r : Except Error Unit} {s t : Session Key Row E}
    (h : Tx.Runs rely rows
      (completeWithoutEvents messageID handlerKey instanceID : Stmt E _).run s r t) :
    r = .ok () ∧ t.view rows =
      Function.update (Function.update (s.view rows) (.aggregateInstance handlerKey instanceID)
        (withoutUnbound (s.view rows (.aggregateInstance handlerKey instanceID))))
        (.command messageID) none := by
  unfold completeWithoutEvents at h
  obtain ⟨e, -, herror⟩ | ⟨_, u, hdelete, hremove⟩ := Tx.runs_except_bind.mp h
  · cases (deleteUnbound_runs herror).1
  · obtain ⟨-, hview⟩ := deleteUnbound_runs hdelete
    obtain ⟨-, hr, rfl⟩ := CommandQueue.remove_runs hremove
    exact ⟨hr, by simp [hview]⟩

/-- The stream that `complete_with_events` appends to exists by then.  If the
instance was not bound to it before, it is bound to it now. -/
theorem boundStream_runs {acq : EventStream.Acquisition} {handlerKey : UUID}
    {instanceID : String} {streamID : Option UUID} {row : AggregateInstanceRow}
    {r : Except Error UUID} {s t : Session Key Row E}
    (hrow : s.view rows (.aggregateInstance handlerKey instanceID) = some row)
    (hstream : row.streamID = streamID)
    (h : Tx.Runs rely rows
      (boundStream acq handlerKey instanceID streamID : Stmt E _).run s r t) :
    ∃ id, r = .ok id ∧
      t.view rows (.aggregateInstance handlerKey instanceID) =
        some { row with streamID := some id } ∧
      (t.view rows (.stream id)).events = (s.view rows (.stream id)).events ∧
      ((streamID = some id ∧ t.view rows (.stream id) = s.view rows (.stream id)) ∨
        (streamID = none ∧ (t.view rows (.stream id)).nextOffset =
          some ((s.view rows (.stream id)).nextOffset.getD 0))) ∧
      ∀ k, k ≠ .aggregateInstance handlerKey instanceID → k ≠ .stream id →
        t.view rows k = s.view rows k := by
  cases streamID with
  | some id =>
      obtain ⟨rfl, rfl⟩ := Tx.runs_ok.mp h
      refine ⟨id, rfl, ?_, rfl, Or.inl ⟨rfl, rfl⟩, fun k _ _ => rfl⟩
      rw [hrow, ← hstream]
  | none =>
      rw [boundStream] at h
      obtain ⟨e, -, herror⟩ | ⟨id, u, hacquire, hrest⟩ := Tx.runs_except_bind.mp h
      · obtain ⟨id, hr, -⟩ := EventStream.acquireForWrite_runs herror
        cases hr
      · obtain ⟨_, hid, hacquired⟩ := EventStream.acquireForWrite_runs hacquire
        cases hid
        have hrow' : u.view rows (.aggregateInstance handlerKey instanceID) = some row := by
          obtain ⟨rfl, -⟩ | ⟨rfl, -⟩ := hacquired <;> simpa using hrow
        obtain ⟨e, -, herror⟩ | ⟨_, v, hupdate, hdone⟩ := Tx.runs_except_bind.mp hrest
        · cases (updateInstance_runs hrow' herror).1
        · obtain ⟨-, rfl⟩ := updateInstance_runs hrow' hupdate
          obtain ⟨rfl, rfl⟩ := Tx.runs_ok.mp hdone
          refine ⟨id, rfl, by simp, ?_, Or.inr ⟨rfl, ?_⟩, ?_⟩
          · obtain ⟨rfl, -⟩ | ⟨rfl, -⟩ := hacquired <;> simp
          · obtain ⟨rfl, hexists⟩ | ⟨rfl, hnew⟩ := hacquired
            · obtain ⟨next, hnext⟩ := Option.ne_none_iff_exists'.mp hexists
              simp [hnext]
            · simp [hnew]
          · intro k hinstance hk
            obtain ⟨rfl, -⟩ | ⟨rfl, -⟩ := hacquired <;> simp [hinstance, hk]

theorem updateSnapshot_runs {handlerKey : UUID} {instanceID : String}
    {nextOffset : Option Nat} {snapshot : Option Bytes} {streamID : UUID}
    {row : AggregateInstanceRow} {r : Except Error Unit} {s t : Session Key Row E}
    (hrow : s.view rows (.aggregateInstance handlerKey instanceID) =
      some { row with streamID := some streamID })
    (h : Tx.Runs rely rows
      (updateSnapshot handlerKey instanceID nextOffset snapshot : Stmt E _).run s r t) :
    r = .ok () ∧ (nextOffset = none → snapshot = none) ∧
      t.view rows = Function.update (s.view rows) (.aggregateInstance handlerKey instanceID)
        (some (completedInstance streamID (nextOffset.getD 0) snapshot row)) := by
  cases snapshot with
  | none =>
      obtain ⟨hr, rfl⟩ := Tx.runs_ok.mp h
      refine ⟨hr, fun _ => rfl, ?_⟩
      rw [completedInstance, ← hrow, Function.update_eq_self]
  | some data =>
      cases nextOffset with
      | none => exact absurd h (by simp [updateSnapshot])
      | some next =>
          obtain ⟨hr, rfl⟩ := updateInstance_runs hrow h
          exact ⟨hr, by simp, by simp [completedInstance]⟩

/-- What `complete_with_events` does to the database, given the row of the
instance.  The stream to append to exists unless the instance was bound to a
stream that does not. -/
structure CompletedWithEvents (messageID handlerKey : UUID) (instanceID : String)
    (correlationID : UUID) (snapshot : Option Bytes) (events : List Envelope)
    (row : AggregateInstanceRow) (streamID : UUID) (base : Nat) (before after : Database) :
    Prop where
  nonempty : events ≠ []
  bound : row.streamID = none ∨ row.streamID = some streamID
  base_eq : (before (.stream streamID)).nextOffset = some base ∨
    ((before (.stream streamID)).nextOffset = none ∧ row.streamID = none ∧ base = 0)
  stream : after (.stream streamID) =
    EventStream.appended streamID correlationID (some (handlerKey, instanceID)) base events
      (before (.stream streamID))
  row_eq : after (.aggregateInstance handlerKey instanceID) =
    some (completedInstance streamID (base + events.length) snapshot row)
  command : after (.command messageID) = none
  frame : ∀ k, k ≠ .stream streamID → k ≠ .aggregateInstance handlerKey instanceID →
    k ≠ .command messageID → after k = before k

/-- What a run of `complete_with_events` can do. -/
theorem completeWithEvents_runs {acq : EventStream.Acquisition} {messageID handlerKey : UUID}
    {instanceID : String} {streamID : Option UUID} {correlationID : UUID}
    {snapshot : Option Bytes} {events : List Envelope} {row : AggregateInstanceRow}
    {r : Except Error Unit} {s t : Session Key Row E}
    (hrow : s.view rows (.aggregateInstance handlerKey instanceID) = some row)
    (hstream : row.streamID = streamID)
    (h : Tx.Runs rely rows (completeWithEvents acq messageID handlerKey instanceID streamID
      correlationID snapshot events : Stmt E _).run s r t) :
    r = .ok () ∧
      ((∃ id base, CompletedWithEvents messageID handlerKey instanceID correlationID snapshot
          events row id base (s.view rows) (t.view rows)) ∨
        ∃ id, streamID = some id ∧ (s.view rows (.stream id)).nextOffset = none ∧
          t.view rows = Function.update (s.view rows) (.command messageID) none) := by
  unfold completeWithEvents at h
  obtain ⟨e, -, herror⟩ | ⟨id, u, hbound, hrest⟩ := Tx.runs_except_bind.mp h
  · obtain ⟨_, hr, -⟩ := boundStream_runs hrow hstream herror
    cases hr
  obtain ⟨_, hid, hinstance, hevents, hstreams, hframe⟩ := boundStream_runs hrow hstream hbound
  cases hid
  obtain ⟨e, -, herror⟩ | ⟨next, v, happend, hrest⟩ := Tx.runs_except_bind.mp hrest
  · obtain ⟨-, hr, -⟩ | ⟨_, -, -, hr, -⟩ := EventStream.append_runs herror <;> cases hr
  have hinstance' : v.view rows (.aggregateInstance handlerKey instanceID) =
      some { row with streamID := some id } := by
    obtain ⟨-, -, rfl⟩ | ⟨_, -, -, -, rfl⟩ := EventStream.append_runs happend <;>
      simpa using hinstance
  obtain ⟨e, -, herror⟩ | ⟨_, w, hsnapshot, hremove⟩ := Tx.runs_except_bind.mp hrest
  · cases (updateSnapshot_runs hinstance' herror).1
  obtain ⟨-, hnone, hview⟩ := updateSnapshot_runs hinstance' hsnapshot
  obtain ⟨-, hr, rfl⟩ := CommandQueue.remove_runs hremove
  refine ⟨hr, ?_⟩
  obtain ⟨hmissing, hnext, rfl⟩ | ⟨base, hbase, hnonempty, hnext, rfl⟩ :=
    EventStream.append_runs happend
  · -- There is no such stream, so it can only be one that was given.
    cases hnext
    obtain ⟨hgiven, hsame⟩ | ⟨-, hnew⟩ := hstreams
    · refine Or.inr ⟨id, hgiven, by rw [← hsame]; exact hmissing, ?_⟩
      rw [hnone rfl, completedInstance, ← hinstance'] at hview
      simp only [Session.put_view, Session.acquire_view, Function.update_eq_self] at hview ⊢
      have hunchanged : u.view rows = s.view rows := by
        funext k
        by_cases hk : k = .stream id
        · rw [hk, hsame]
        by_cases hk' : k = .aggregateInstance handlerKey instanceID
        · rw [hk', hinstance, hrow, ← hgiven, ← hstream]
        · exact hframe k hk' hk
      rw [hview, hunchanged]
    · rw [hnew] at hmissing
      cases hmissing
  · cases hnext
    refine Or.inl ⟨id, base, ?_⟩
    simp only [Session.put_view, Session.acquire_view, Option.getD_some] at hview ⊢
    rw [hview]
    refine ⟨hnonempty, ?_, ?_, ?_, by simp, by simp, ?_⟩
    · obtain ⟨hgiven, -⟩ | ⟨hnew, -⟩ := hstreams
      · exact Or.inr (hstream.trans hgiven)
      · exact Or.inl (hstream.trans hnew)
    · obtain ⟨-, hsame⟩ | ⟨hunbound, hnew⟩ := hstreams
      · exact Or.inl (hsame ▸ hbase)
      · rw [hbase] at hnew
        cases hnext : (s.view rows (.stream id)).nextOffset with
        | none =>
            rw [hnext] at hnew
            exact Or.inr ⟨rfl, hstream.trans hunbound, Option.some.inj hnew⟩
        | some next =>
            rw [hnext] at hnew
            exact Or.inl hnew.symm
    · simp [EventStream.appended, hevents]
    · intro k hstream' hinstance'' hcommand
      simp [hstream', hinstance'', hcommand, hframe k hinstance'' hstream']

end Aggregate

/-! ## integration -/

namespace Integration

/-- `integration.complete_without_events`. -/
def completeWithoutEvents (messageID : UUID) : Stmt E Unit := CommandQueue.remove messageID

/-- `integration.complete_with_events`. -/
def completeWithEvents (acq : EventStream.Acquisition) (messageID correlationID : UUID)
    (events : List Envelope) : Stmt E Unit := do
  CommandQueue.remove messageID
  let _ ← EventStream.appendAny acq correlationID none events

/-- What `complete_with_events` does to the database. -/
structure CompletedWithEvents (messageID correlationID : UUID) (events : List Envelope)
    (streamID : UUID) (base : Nat) (before after : Database) : Prop where
  nonempty : events ≠ []
  base_eq : (before (.stream streamID)).nextOffset = some base ∨
    ((before (.stream streamID)).nextOffset = none ∧ base = 0)
  stream : after (.stream streamID) =
    EventStream.appended streamID correlationID none base events (before (.stream streamID))
  command : after (.command messageID) = none
  frame : ∀ k, k ≠ .stream streamID → k ≠ .command messageID → after k = before k

/-- What a run of `complete_with_events` can do. -/
theorem completeWithEvents_runs {acq : EventStream.Acquisition}
    {messageID correlationID : UUID} {events : List Envelope}
    {r : Except Error Unit} {s t : Session Key Row E}
    (h : Tx.Runs rely rows
      (completeWithEvents acq messageID correlationID events : Stmt E _).run s r t) :
    r = .ok () ∧ ∃ id base, CompletedWithEvents messageID correlationID events id base
      (s.view rows) (t.view rows) := by
  unfold completeWithEvents at h
  obtain ⟨e, -, herror⟩ | ⟨_, u, hremove, hrest⟩ := Tx.runs_except_bind.mp h
  · cases (CommandQueue.remove_runs herror).2.1
  obtain ⟨-, -, rfl⟩ := CommandQueue.remove_runs hremove
  obtain ⟨e, -, herror⟩ | ⟨_, v, happend, hdone⟩ := Tx.runs_except_bind.mp hrest
  · obtain ⟨_, _, hr, -⟩ := EventStream.appendAny_runs herror
    cases hr
  obtain ⟨hr, rfl⟩ := Tx.runs_ok.mp hdone
  obtain ⟨id, base, -, hnonempty, hbase, hstream, hframe⟩ := EventStream.appendAny_runs happend
  refine ⟨hr, id, base, hnonempty, by simpa using hbase, by simpa using hstream, ?_, ?_⟩
  · simp [hframe (.command messageID)]
  · intro k hk hcommand
    simp [hframe k hk, hcommand]

end Integration

end Runkit.Schema
