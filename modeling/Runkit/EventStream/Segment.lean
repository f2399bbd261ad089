/-
  EventStream/Segment.lean --- event streams and the segments they are
  delivered in.

  Source: internal/eventstream/source/segment.go, errors.go.
-/
import Runkit.Foundation.Log
import Runkit.Message

set_option autoImplicit false

namespace Runkit.EventStream

open Runkit.Foundation

/-- The events of one stream.  A stream is append-only: it changes only to a log
that extends it. -/
abbrev EventLog := Log Envelope Envelope.offset

/-- Whether the filter admits the event. -/
def admits (types : TypeFilter) (env : Envelope) : Bool := types.has env.typeID

/-- `events` are the events of the stream in `[begin, end_)` that the filter admits. -/
structure Covers (log : EventLog) (types : TypeFilter) (begin end_ : Nat)
    (events : List Envelope) : Prop where
  ordered : begin ≤ end_
  within : end_ ≤ log.next
  complete : events = log.read (admits types) begin end_

/-- The envelopes are those of events in the range `[begin, end_)`, in offset order. -/
structure InRange (begin end_ : Nat) (envelopes : List Envelope) : Prop where
  ordered : begin ≤ end_
  sorted : envelopes.Pairwise fun a b => a.offset < b.offset
  within : ∀ env ∈ envelopes, begin ≤ env.offset ∧ env.offset < end_

/-- The end of a segment that begins at `begin`, once the events have been added to it
one after the other. -/
def endAfter (begin : Nat) (events : List Envelope) : Nat :=
  events.foldl (fun _ env => env.offset + 1) begin

/-- `source.Segment`: the half-open range `[begin, end_)` of a stream, carrying the
events in the range that match a set of message types. -/
structure Segment where
  streamID : UUID
  begin : Nat
  end_ : Nat
  envelopes : List Envelope
  deriving DecidableEq, Repr

/-- The segment is one of the stream, and is complete for the message types. -/
def Segment.Of (log : EventLog) (types : TypeFilter) (seg : Segment) : Prop :=
  Covers log types seg.begin seg.end_ seg.envelopes

/-- The errors of `Source.Read` that are told apart. -/
inductive SourceError where
  | unrecognizedStream
  | offsetOutOfRange
  | invalidSegment
  | other
  deriving DecidableEq, Repr

namespace Covers

variable {log later : EventLog} {types : TypeFilter} {begin mid end_ : Nat}
  {events more : List Envelope}

theorem empty (h : begin ≤ log.next) : Covers log types begin begin [] :=
  ⟨Nat.le_refl _, h, (log.read_self _ _).symm⟩

/-- What covers a range of a stream covers it as the stream grows. -/
theorem grow (h : Covers log types begin end_ events) (hextends : log.Extends later) :
    Covers later types begin end_ events where
  ordered := h.ordered
  within := Nat.le_trans h.within hextends.1
  complete := by rw [hextends.read_eq h.within, h.complete]

theorem append (h : Covers log types begin mid events) (h' : Covers log types mid end_ more) :
    Covers log types begin end_ (events ++ more) where
  ordered := Nat.le_trans h.ordered h'.ordered
  within := h'.within
  complete := by rw [h.complete, h'.complete, log.read_split h.ordered h'.ordered]

theorem sorted (h : Covers log types begin end_ events) :
    events.Pairwise fun a b => a.offset < b.offset := by
  rw [h.complete]
  exact log.read_pairwise _ _ _

theorem bounds (h : Covers log types begin end_ events) {env : Envelope} (hmem : env ∈ events) :
    begin ≤ env.offset ∧ env.offset < end_ := by
  rw [h.complete] at hmem
  obtain ⟨-, hlo, hhi, -⟩ := Log.mem_read_iff.mp hmem
  exact ⟨hlo, hhi⟩

/-- The first event splits the range behind it. -/
theorem cons {env : Envelope} (h : Covers log types begin end_ (env :: events)) :
    Covers log types begin (env.offset + 1) [env] ∧
      Covers log types (env.offset + 1) end_ events := by
  obtain ⟨hlo, hhi⟩ := h.bounds List.mem_cons_self
  obtain ⟨hfront, hback⟩ := Log.read_cons h.complete.symm
  have hwithin := h.within
  exact ⟨⟨by omega, by omega, hfront.symm⟩, ⟨by omega, hwithin, hback.symm⟩⟩

/-- What is left of the events once all up to one of them have been dropped covers
the range behind that one. -/
theorem drop {n : Nat} {env : Envelope} (h : Covers log types begin end_ events)
    (henv : events[n]? = some env) :
    Covers log types (env.offset + 1) end_ (events.drop (n + 1)) := by
  induction n generalizing begin events with
  | zero =>
      cases events with
      | nil => cases henv
      | cons first rest =>
          cases henv
          exact h.cons.2
  | succ n ih =>
      cases events with
      | nil => cases henv
      | cons first rest => exact ih h.cons.2 (by simpa using henv)

/-- Each event splits the range in front of it. -/
theorem split {env : Envelope} (h : Covers log types begin end_ (more ++ env :: events)) :
    Covers log types begin env.offset more ∧
      Covers log types env.offset end_ (env :: events) := by
  induction more generalizing begin with
  | nil =>
      rw [List.nil_append] at h
      obtain ⟨hlo, hhi⟩ := h.bounds List.mem_cons_self
      have hwithin := h.within
      have hsplit := log.read_split (p := admits types) hlo (Nat.le_of_lt hhi)
      -- Nothing is in front of the first event.
      have hnil : log.read (admits types) begin env.offset = [] := by
        refine List.eq_nil_iff_forall_not_mem.mpr ?_
        intro other hmem
        have hbelow := (Log.mem_read_iff.mp hmem).2.2.1
        have hall : other ∈ env :: events := by
          rw [h.complete, hsplit]
          exact List.mem_append_left _ hmem
        rcases List.mem_cons.mp hall with rfl | hlater
        · omega
        · have := (List.pairwise_cons.mp h.sorted).1 other hlater
          omega
      rw [← h.complete, hnil, List.nil_append] at hsplit
      exact ⟨⟨hlo, by omega, hnil.symm⟩, ⟨Nat.le_of_lt hhi, hwithin, hsplit⟩⟩
  | cons first rest ih =>
      obtain ⟨hfirst, hrest⟩ := h.cons
      obtain ⟨hfront, hback⟩ := ih hrest
      exact ⟨hfirst.append hfront, hback⟩

/-- The first events cover the range up to the last one of them. -/
theorem take (h : Covers log types begin end_ events) (n : Nat) :
    Covers log types begin (endAfter begin (events.take n)) (events.take n) := by
  induction n generalizing begin events with
  | zero => exact .empty (Nat.le_trans h.ordered h.within)
  | succ n ih =>
      cases events with
      | nil => exact .empty (Nat.le_trans h.ordered h.within)
      | cons env rest =>
          obtain ⟨hfirst, hrest⟩ := h.cons
          exact hfirst.append (ih hrest)

/-- The events from an offset in the range that a stricter filter admits. -/
theorem filter {types' : TypeFilter} {cp : Nat} (h : Covers log types begin end_ events)
    (htypes : ∀ env, admits types' env = true → admits types env = true)
    (hlo : begin ≤ cp) (hhi : cp ≤ end_) :
    Covers log types' cp end_
      ((events.filter fun env => decide (cp ≤ env.offset)).filter (admits types')) where
  ordered := hhi
  within := h.within
  complete := by
    have hwindow : log.read (admits types') cp end_ =
        window Envelope.offset (admits types') cp end_ events := by
      rw [h.complete]
      exact (window_window hlo (Nat.le_refl _) fun env _ => htypes env).symm
    rw [hwindow, window, List.filter_filter]
    refine List.filter_congr ?_
    intro env hmem
    have hbound := (h.bounds hmem).2
    rw [decide_eq_true hbound, Bool.and_true, Bool.and_comm]

end Covers

namespace InRange

variable {begin mid end_ : Nat} {events more : List Envelope}

theorem append (h : InRange begin mid events) (h' : InRange mid end_ more) :
    InRange begin end_ (events ++ more) where
  ordered := Nat.le_trans h.ordered h'.ordered
  sorted := by
    refine List.pairwise_append.mpr ⟨h.sorted, h'.sorted, ?_⟩
    intro a ha b hb
    have hbefore := h.within a ha
    have hafter := h'.within b hb
    omega
  within := by
    intro env henv
    have hordered := h.ordered
    have hordered' := h'.ordered
    rcases List.mem_append.mp henv with henv | henv
    · have := h.within env henv
      omega
    · have := h'.within env henv
      omega

/-- Each event splits the range in front of it. -/
theorem split {env : Envelope} (h : InRange begin end_ (more ++ env :: events)) :
    InRange begin env.offset more ∧ InRange env.offset end_ (env :: events) := by
  obtain ⟨-, hsorted, hwithin⟩ := h
  obtain ⟨hfront, hback, hcross⟩ := List.pairwise_append.mp hsorted
  have henv := hwithin env (List.mem_append_right _ List.mem_cons_self)
  refine ⟨⟨henv.1, hfront, ?_⟩, ⟨by omega, hback, ?_⟩⟩
  · intro other hother
    exact ⟨(hwithin other (List.mem_append_left _ hother)).1,
      hcross other hother env List.mem_cons_self⟩
  · intro other hother
    refine ⟨?_, (hwithin other (List.mem_append_right _ hother)).2⟩
    rcases List.mem_cons.mp hother with rfl | hlater
    · exact Nat.le_refl _
    · have := (List.pairwise_cons.mp hback).1 other hlater
      omega

end InRange

/-- Segments that follow each other and are each complete are together complete. -/
theorem flatMap_envelopes {log : EventLog} {types : TypeFilter} {begin : Nat}
    {segs : List Segment} (hcontiguous : Contiguous Segment.begin Segment.end_ begin segs)
    (hsegs : ∀ seg ∈ segs, seg.Of log types) :
    segs.flatMap Segment.envelopes =
      log.read (admits types) begin (reach Segment.end_ begin segs) :=
  flatMap_eq_window log.sorted hcontiguous fun seg hseg => (hsegs seg hseg).complete

/-! ## The segments of one stream -/

/-- The segments of one stream, out of those of many. -/
def segmentsOf (id : UUID) (segs : List Segment) : List Segment :=
  segs.filter fun seg => decide (seg.streamID = id)

/-- Where the last segment of a stream ends. -/
def lastEnd (id : UUID) (segs : List Segment) : Option Nat :=
  (segmentsOf id segs).getLast?.map Segment.end_

section

variable {id : UUID} {seg : Segment} {segs : List Segment}

theorem mem_segmentsOf : seg ∈ segmentsOf id segs ↔ seg ∈ segs ∧ seg.streamID = id := by
  simp [segmentsOf]

theorem segmentsOf_append (segs' : List Segment) :
    segmentsOf id (segs ++ segs') = segmentsOf id segs ++ segmentsOf id segs' :=
  List.filter_append ..

theorem segmentsOf_cons_self (h : seg.streamID = id) :
    segmentsOf id (seg :: segs) = seg :: segmentsOf id segs := by
  simp [segmentsOf, h]

theorem segmentsOf_cons_of_ne (h : seg.streamID ≠ id) :
    segmentsOf id (seg :: segs) = segmentsOf id segs := by
  simp [segmentsOf, h]

theorem segmentsOf_concat_self (h : seg.streamID = id) :
    segmentsOf id (segs ++ [seg]) = segmentsOf id segs ++ [seg] := by
  simp [segmentsOf, h]

theorem segmentsOf_concat_of_ne (h : seg.streamID ≠ id) :
    segmentsOf id (segs ++ [seg]) = segmentsOf id segs := by
  simp [segmentsOf, h]

theorem lastEnd_concat_self (h : seg.streamID = id) :
    lastEnd id (segs ++ [seg]) = some seg.end_ := by
  simp [lastEnd, segmentsOf_concat_self h]

theorem lastEnd_concat_of_ne (h : seg.streamID ≠ id) :
    lastEnd id (segs ++ [seg]) = lastEnd id segs := by
  rw [lastEnd, segmentsOf_concat_of_ne h, lastEnd]

end

/-! ## A stream -/

/-- An event of a stream. -/
def eventEnvelope (id typeID : UInt64) (offset : Nat) : Envelope where
  header :=
    { correlationID := uuid id
      causationID := uuid id
      handlerKey := uuid 0
      instanceID := "" }
  body :=
    { messageID := uuid id
      message := { typeID := uuid typeID, data := [] }
      position := some { streamID := uuid 100, offset := offset } }

/-- A stream with two events, of different types. -/
def twoEvents : EventLog where
  entries := [eventEnvelope 20 2 0, eventEnvelope 21 4 1]
  next := 2
  sorted := by decide
  below := by decide

example : twoEvents.read (admits (some {uuid 4})) 0 2 = [eventEnvelope 21 4 1] := by decide

end Runkit.EventStream
