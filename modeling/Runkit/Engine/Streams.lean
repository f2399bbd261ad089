/-
  Engine/Streams.lean --- event streams are dense and append-only.

  Whatever the interleaving of the transactions that append to a stream, the
  stream is a log: its offsets have no gaps, and what has been committed at an
  offset stays there.  A transaction puts all of its events on one stream, in
  the order in which they were recorded.
-/
import Runkit.Engine.Changes
import Runkit.Foundation.Log
import Runkit.Foundation.Serve

set_option autoImplicit false

namespace Runkit.Engine

open Runkit.Foundation Runkit.Schema Runkit.MessagePump

variable {ρ : Type}

/-! ## Dense streams -/

/-- The offsets of the events on a stream are exactly those below
`next_offset`, in ascending order. -/
structure Dense (id : UUID) (stream : Stream) : Prop where
  offsets : stream.events.map (·.streamOffset) = List.range stream.next
  streamID : ∀ row ∈ stream.events, row.streamID = id

namespace Dense

variable {id : UUID} {stream : Stream}

theorem empty (id : UUID) : Dense id { nextOffset := none, events := [] } where
  offsets := rfl
  streamID := by simp

theorem sorted (h : Dense id stream) :
    stream.events.Pairwise fun a b => a.streamOffset < b.streamOffset := by
  have hrange : (stream.events.map (·.streamOffset)).Pairwise (· < ·) := by
    rw [h.offsets]
    exact List.pairwise_lt_range
  exact List.pairwise_map.mp hrange

theorem below (h : Dense id stream) : ∀ row ∈ stream.events, row.streamOffset < stream.next := by
  intro row hrow
  have hmem : row.streamOffset ∈ stream.events.map (·.streamOffset) :=
    List.mem_map_of_mem hrow
  rw [h.offsets] at hmem
  exact List.mem_range.mp hmem

/-- A dense stream is an append-only log. -/
def log (h : Dense id stream) : Log EventRow (·.streamOffset) where
  entries := stream.events
  next := stream.next
  sorted := h.sorted
  below := h.below

theorem appended (h : Dense id stream) {correlationID : UUID}
    {aggregate : Option (UUID × String)} {events : List Envelope} :
    Dense id
      (EventStream.appended id correlationID aggregate stream.next events stream) where
  offsets := by
    have happend := @List.range'_append_1 0 stream.next events.length
    rw [Nat.zero_add] at happend
    rw [EventStream.appended_next, List.range_eq_range', ← happend, ← List.range_eq_range',
      ← h.offsets]
    exact (List.map_append ..).trans (by rw [EventStream.eventRows_offsets])
  streamID := by
    intro row hrow
    obtain hrow | hrow := List.mem_append.mp hrow
    · exact h.streamID row hrow
    · exact EventStream.eventRows_streamID hrow

end Dense

/-- The stream has been appended to, at offsets that were not in use. -/
def Continues (earlier later : Stream) : Prop :=
  earlier.next ≤ later.next ∧ ∃ suffix, later.events = earlier.events ++ suffix ∧
    ∀ row ∈ suffix, earlier.next ≤ row.streamOffset

/-- For dense streams this is what it means that a log extends another one. -/
theorem continues_iff_extends {id : UUID} {earlier later : Stream} (h : Dense id earlier)
    (h' : Dense id later) : Continues earlier later ↔ h.log.Extends h'.log := Iff.rfl

theorem Continues.refl (stream : Stream) : Continues stream stream :=
  ⟨Nat.le_refl _, [], by simp, by simp⟩

theorem Continues.appended {streamID correlationID : UUID} {stream : Stream}
    {aggregate : Option (UUID × String)} {events : List Envelope} :
    Continues stream
      (EventStream.appended streamID correlationID aggregate stream.next events stream) := by
  refine ⟨?_, _, rfl, ?_⟩
  · rw [EventStream.appended_next]
    exact Nat.le_add_right _ _
  · intro row hrow
    have hmem := List.mem_map_of_mem (f := fun row : EventRow => row.streamOffset) hrow
    rw [EventStream.eventRows_offsets, List.mem_range'_1] at hmem
    exact hmem.1

/-- The stream holds all events that it held before, and no other events at the
offsets that were in use then. -/
structure Grows (earlier later : Stream) : Prop where
  next_le : earlier.next ≤ later.next
  /-- Events do not change or disappear. -/
  kept : ∀ row ∈ earlier.events, row ∈ later.events
  /-- Events do not appear below the offset at which the stream ended. -/
  settled : ∀ row ∈ later.events, row.streamOffset < earlier.next → row ∈ earlier.events
  /-- What can be read below that offset does not change. -/
  read_eq : ∀ matching lo hi, hi ≤ earlier.next →
    window (·.streamOffset) matching lo hi later.events =
      window (·.streamOffset) matching lo hi earlier.events

theorem grows_of_extends {id : UUID} {earlier later : Stream} (h : Dense id earlier)
    (h' : Dense id later) (hextends : h.log.Extends h'.log) : Grows earlier later where
  next_le := hextends.1
  kept := by
    obtain ⟨-, suffix, hevents, -⟩ := (continues_iff_extends h h').mpr hextends
    intro row hrow
    rw [hevents]
    exact List.mem_append_left _ hrow
  settled := by
    obtain ⟨-, suffix, hevents, hsuffix⟩ := (continues_iff_extends h h').mpr hextends
    intro row hrow hbelow
    rw [hevents] at hrow
    obtain hold | hnew := List.mem_append.mp hrow
    · exact hold
    · exact absurd (hsuffix row hnew) (Nat.not_le.mpr hbelow)
  read_eq := by
    intro matching lo hi hhi
    exact hextends.read_eq hhi

/-! ## What one transaction does -/

/-- The given events have been appended to the stream at consecutive offsets, in
the given order, and no other stream has changed. -/
structure AppendedTo (id : UUID) (events : List Envelope) (before after : Database) : Prop where
  rows : ∃ rows, (after (.stream id)).events = (before (.stream id)).events ++ rows ∧
    rows.map (·.envelope) = events ∧
    rows.map (·.streamOffset) = List.range' (before (.stream id)).next events.length
  next : (after (.stream id)).next = (before (.stream id)).next + events.length
  others : ∀ id', id' ≠ id → after (.stream id') = before (.stream id')

/-- The events that a transaction recorded have all been appended to one stream;
if it recorded none, no stream has changed. -/
def Appends (events : List Envelope) (before after : Database) : Prop :=
  (events = [] ∧ ∀ id, after (.stream id) = before (.stream id)) ∨
    ∃ id, events ≠ [] ∧ AppendedTo id events before after

section Change

variable {before after : Database} {locks : Key → Bool} {recorded : List Envelope}

theorem EventsChange.appends (h : EventsChange before locks after recorded)
    (hbound : ¬ Dangling before) : Appends recorded before after := by
  cases h with
  | unchanged hrecorded hsame =>
      obtain hempty | hdangling := hrecorded
      · exact Or.inl ⟨hempty, hsame⟩
      · exact absurd hdangling hbound
  | @append id correlationID aggregate hrecorded hlock hafter hothers =>
      refine Or.inr ⟨id, hrecorded, ⟨_, by rw [hafter]; rfl, EventStream.eventRows_envelopes,
        EventStream.eventRows_offsets⟩, ?_, hothers⟩
      rw [hafter, EventStream.appended_next]

theorem EventsChange.dense (h : EventsChange before locks after recorded) {id : UUID}
    (hdense : Dense id (before (.stream id))) : Dense id (after (.stream id)) := by
  cases h with
  | unchanged _ hsame =>
      rw [hsame id]
      exact hdense
  | @append id' correlationID aggregate _ _ hafter hothers =>
      by_cases hid : id = id'
      · subst hid
        rw [hafter]
        exact hdense.appended
      · rw [hothers id hid]
        exact hdense

theorem EventsChange.continues (h : EventsChange before locks after recorded) (id : UUID) :
    Continues (before (.stream id)) (after (.stream id)) := by
  cases h with
  | unchanged _ hsame =>
      rw [hsame id]
      exact .refl _
  | @append id' correlationID aggregate _ _ hafter hothers =>
      by_cases hid : id = id'
      · subst hid
        rw [hafter]
        exact .appended
      · rw [hothers id hid]
        exact .refl _

end Change

/-! ## What holds in every state -/

/-- The streams are dense, instances are bound to streams that exist, and every
transaction so far has appended its events to one stream. -/
structure StreamInvariant (app : Application ρ) (rows : Database)
    (history : List (Transaction ρ)) : Prop where
  dense : ∀ id, Dense id (rows (.stream id))
  bound : ¬ Dangling rows
  appends : ∀ record ∈ history,
    Appends (recordedEvents app record.before record.request record.result) record.before
      record.after

theorem StreamInvariant.initial (app : Application ρ) :
    StreamInvariant app emptyDatabase [] where
  dense := Dense.empty
  bound := by
    intro hdangling
    obtain ⟨key, instanceID, row, streamID, hrow, -⟩ := hdangling
    cases hrow
  appends := by simp

theorem StreamInvariant.commit {app : Application ρ} {history : List (Transaction ρ)}
    {record : Transaction ρ} {locks : Key → Bool}
    (hinv : StreamInvariant app record.before history)
    (h : Committed app record.before locks record.trace record.request record.result
      record.after) :
    StreamInvariant app record.after (history ++ [record]) where
  dense := fun id => h.events.dense (hinv.dense id)
  bound := fun hdangling => hinv.bound (h.dangling hdangling)
  appends := by
    intro other hother
    obtain hother | hother := List.mem_append.mp hother
    · exact hinv.appends other hother
    · rw [List.mem_singleton.mp hother]
      exact h.events.appends hinv.bound

section Runs

variable {T : Type} [DecidableEq T] {app : Application ρ}
  {allow : List (Request ρ) → Request ρ → Prop} {e e' : System T ρ}

theorem stream_invariant (h : Reaches app allow start e) :
    e.Consistent databaseRely (program app) ∧ StreamInvariant app e.rows e.history :=
  invariant_of_committed (fun _ rows history => StreamInvariant app rows history)
    (fun _ _ _ _ hinv _ => hinv) (fun _ _ _ _ hinv _ h => hinv.commit h) h start_consistent
    (.initial app)

/-- Later states extend the streams of earlier ones. -/
theorem streams_extend (hconsistent : e.Consistent databaseRely (program app))
    (hdense : ∀ id, Dense id (e.rows (.stream id))) (h : Reaches app allow e e') (id : UUID) :
    ∃ hdense' : Dense id (e'.rows (.stream id)), (hdense id).log.Extends hdense'.log := by
  refine (invariant_of_committed
    (fun _ rows _ => ∃ hdense' : Dense id (rows (.stream id)),
      (hdense id).log.Extends hdense'.log)
    (fun _ _ _ _ hinv _ => hinv) ?_ h hconsistent ⟨hdense id, .refl _⟩).2
  intro begun history record locks hinv hrequested hcommitted
  obtain ⟨hbefore, hextends⟩ := hinv
  have hafter := hcommitted.events.dense hbefore
  have hstep := (continues_iff_extends hbefore hafter).mp (hcommitted.events.continues id)
  exact ⟨hafter, hextends.trans hstep⟩

/-- In every committed state the events on each stream have the offsets from 0 up
to `next_offset`; the events of each transaction have been appended to one stream
at consecutive offsets in recording order; and every later committed state
extends every earlier one. -/
theorem streams_dense_append_only (h : Reaches app allow start e) (h' : Reaches app allow e e') :
    (∀ id, Dense id (e.rows (.stream id))) ∧
      (∀ record ∈ e.history,
        Appends (recordedEvents app record.before record.request record.result) record.before
          record.after) ∧
      ∀ id, Grows (e.rows (.stream id)) (e'.rows (.stream id)) := by
  obtain ⟨hconsistent, hinv⟩ := stream_invariant h
  refine ⟨hinv.dense, hinv.appends, ?_⟩
  intro id
  obtain ⟨hdense', hextends⟩ := streams_extend hconsistent hinv.dense h' id
  exact grows_of_extends (hinv.dense id) hdense' hextends

end Runs

/-! ## A run -/

/-- An application whose aggregates count the events that they recorded. -/
def counters : Application Nat where
  backoff := { backoffBase := 10, backoffCap := 10 }
  aggregate := fun key =>
    { key := key
      packer := plainPacker
      commandTypeIDs := {uuid 1}
      outboundMessageTypes := {uuid 2}
      new := 0
      applyEvent := fun root _ => root + 1
      marshalBinary := fun root => some (List.replicate root 0)
      unmarshalBinary := fun root data => (data.map List.length).getD root }
  aggregate_key := fun _ => rfl
  integration := fun key =>
    { key := key
      packer := plainPacker
      commandTypeIDs := {uuid 1}
      outboundMessageTypes := {uuid 2} }
  integration_key := fun _ => rfl
  process := fun key =>
    { key := key
      packer := plainPacker
      eventTypes := {uuid 2}
      deadlineTypeIDs := {uuid 3}
      outboundMessageTypes := {uuid 1, uuid 3}
      new := 0
      marshalBinary := fun root => some (List.replicate root 0)
      unmarshalBinary := fun root data => (data.map List.length).getD root }
  process_key := fun _ => rfl

/-- The envelope of a command that was not produced by a handler. -/
def commandEnvelope (id : UInt64) : Envelope where
  header :=
    { correlationID := uuid id
      causationID := uuid id
      handlerKey := uuid 0
      instanceID := "" }
  body :=
    { messageID := uuid id
      message := { typeID := uuid 1, data := [] } }

/-- A transaction of a message pump that finds the given command. -/
def finding (id : UInt64) : Circumstances where
  visited := [uuid id]
  acquiredAt := 0
  readable := true
  random := 0
  postponedAt := 0

/-- An attempt in which the instance `"a"` records the given events and nothing
fails. -/
def recording (ids : List UInt64) : Aggregate.Attempt where
  unpacks := true
  route := some "a"
  constructs := true
  reconstructs := true
  unmarshals := true
  unpacksEvent := fun _ => true
  appliesEvent := fun _ => true
  records := ids.map fun id =>
    { event := { messageID := uuid id, message := { typeID := uuid 2, data := [] } } }
  returns := true
  marshals := true
  acquisition :=
    { visited := [uuid 100]
      zeroLength := none
      awaited := uuid 100
      generated := uuid 100 }

/-- The state in which one command has been executed and handled. -/
def countedTwo : System Unit Nat :=
  Pool.serve (program counters)
    [.executeCommand (commandEnvelope 10) 0,
      .aggregateCommand (uuid 50) (finding 10) (recording [20, 21])] start

/-- The state in which another command has been executed and handled. -/
def countedThree : System Unit Nat :=
  Pool.serve (program counters)
    [.executeCommand (commandEnvelope 11) 0,
      .aggregateCommand (uuid 50) (finding 11) (recording [22])] countedTwo

theorem allAllowed_anyRequest (begun rs : List (Request ρ)) :
    Pool.AllAllowed AnyRequest begun rs := by
  induction rs generalizing begun with
  | nil => exact True.intro
  | cons r rest ih => exact ⟨True.intro, ih _⟩

theorem countedTwo_reached : Reaches counters AnyRequest start countedTwo :=
  Pool.serve_run () (fun _ => rfl) (allAllowed_anyRequest _ _)

theorem countedThree_reached : Reaches counters AnyRequest countedTwo countedThree :=
  Pool.serve_run () (fun _ => rfl) (allAllowed_anyRequest _ _)

theorem streams_dense_append_only_counted :
    (countedTwo.rows (.stream (uuid 100))).next = 2 ∧
      (countedThree.rows (.stream (uuid 100))).next = 3 ∧
      Dense (uuid 100) (countedTwo.rows (.stream (uuid 100))) ∧
      Grows (countedTwo.rows (.stream (uuid 100))) (countedThree.rows (.stream (uuid 100))) := by
  have hmain := streams_dense_append_only countedTwo_reached countedThree_reached
  exact ⟨by decide, by decide, hmain.1 _, hmain.2.2 _⟩

end Runkit.Engine
