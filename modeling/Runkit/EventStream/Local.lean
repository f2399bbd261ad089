/-
  EventStream/Local.lean --- the source of the streams in the application's own
  database.

  Source: internal/eventstream/source/local.go, internal/schema/ddl/00-eventstream.

  One follower for each stream loads the events that are appended to it, and sends
  them to every call of `Local.Watch`.  A call has a buffer of bounded size.  The
  follower does not wait for a call whose buffer is full: it ends the call, and the
  call can begin again from the end of the stream.

  `Local.m` guards `offsets` and the set of watchers.  The loops over that set that
  `deliver` and `fail` run are steps of their own, because the watchers receive
  from their channels while these loops run.

  A follower may be started once its stream exists, which is when `Local.discover`
  can see it.  It may fail at any time at which it uses the database, and it may be
  canceled at any time.
-/
import Runkit.EventStream.Segment
import Runkit.Signal.Bus

set_option autoImplicit false

namespace Runkit.EventStream

open Runkit.Foundation
open Runkit.Signal

variable {S W : Type}

/-! ## Loading segments -/

/-- `Local.loadSegment`, given the stream as it is when the query runs.  It also returns
whether the stream is exhausted. -/
def loadSegment (segmentSize : Nat) (types : TypeFilter) (stream : Option EventLog)
    (streamID : UUID) (begin : Nat) : Except SourceError (Segment × Bool) :=
  match stream with
  | none => .error .unrecognizedStream
  | some log =>
      if begin > log.next then .error .offsetOutOfRange
      else
        let envelopes :=
          (log.entries.filter fun env => decide (begin ≤ env.offset) && admits types env).take
            segmentSize
        let end_ := endAfter begin envelopes
        let exhausted := decide (envelopes.length < segmentSize)
        .ok
          ({ streamID := streamID
             begin := begin
             end_ := if exhausted then max end_ log.next else end_
             envelopes := envelopes }, exhausted)

/-- `filterSegment`. -/
def filterSegment (seg : Segment) (types : TypeFilter) : Segment :=
  match types with
  | none => seg
  | some _ => { seg with envelopes := seg.envelopes.filter (admits types) }

@[simp] theorem filterSegment_streamID (seg : Segment) (types : TypeFilter) :
    (filterSegment seg types).streamID = seg.streamID := by
  cases types <;> rfl

@[simp] theorem filterSegment_begin (seg : Segment) (types : TypeFilter) :
    (filterSegment seg types).begin = seg.begin := by
  cases types <;> rfl

@[simp] theorem filterSegment_end (seg : Segment) (types : TypeFilter) :
    (filterSegment seg types).end_ = seg.end_ := by
  cases types <;> rfl

/-- A segment that is complete for every type is complete for the types that it is
filtered by. -/
theorem filterSegment_of {log : EventLog} {seg : Segment} (h : seg.Of log none)
    (types : TypeFilter) : (filterSegment seg types).Of log types := by
  cases types with
  | none => exact h
  | some ids =>
      refine ⟨h.ordered, h.within, ?_⟩
      show seg.envelopes.filter (admits (some ids)) = _
      rw [h.complete]
      exact filter_window

theorem endAfter_pos {begin : Nat} {events : List Envelope} (hne : events ≠ [])
    (hle : ∀ env ∈ events, begin ≤ env.offset) : begin < endAfter begin events := by
  obtain ⟨front, env, rfl⟩ := List.eq_nil_or_concat events |>.resolve_left hne
  have := hle env (by simp)
  simp only [endAfter, List.concat_eq_append, List.foldl_append, List.foldl_cons, List.foldl_nil]
  omega

/-- What the query returns, without the limit, covers the stream from the offset. -/
theorem covers_query {log : EventLog} (types : TypeFilter) {begin : Nat}
    (hbegin : begin ≤ log.next) :
    Covers log types begin log.next
      (log.entries.filter fun env => decide (begin ≤ env.offset) && admits types env) where
  ordered := hbegin
  within := Nat.le_refl _
  complete := by
    refine List.filter_congr ?_
    intro env hmem
    rw [decide_eq_true (log.below env hmem), Bool.and_true]

/-- A segment that has been loaded is one of the stream from the given offset.  It ends at
the end of the stream if the stream is exhausted, and advances if it is not. -/
theorem loadSegment_ok {segmentSize : Nat} {types : TypeFilter} {stream : Option EventLog}
    {streamID : UUID} {begin : Nat} {seg : Segment} {exhausted : Bool}
    (h : loadSegment segmentSize types stream streamID begin = .ok (seg, exhausted)) :
    ∃ log, stream = some log ∧ seg.streamID = streamID ∧ seg.begin = begin ∧
      seg.Of log types ∧ (exhausted = true → seg.end_ = log.next) ∧
      (exhausted = false → 0 < segmentSize → seg.begin < seg.end_) := by
  cases stream with
  | none => cases h
  | some log =>
      rw [loadSegment] at h
      split at h
      · cases h
      rename_i hbegin
      have hcovers := covers_query types (Nat.not_lt.mp hbegin)
      generalize (log.entries.filter fun env => decide (begin ≤ env.offset) && admits types env) =
        events at h hcovers
      have htake := hcovers.take segmentSize
      cases h
      refine ⟨log, rfl, rfl, rfl, ?_, ?_, ?_⟩
      · show Covers _ _ _ _ _
        by_cases hexhausted : (events.take segmentSize).length < segmentSize
        · have hall : events.take segmentSize = events := by
            rw [List.take_eq_self_iff]
            rw [List.length_take] at hexhausted
            omega
          rw [if_pos (decide_eq_true hexhausted), max_eq_right htake.within, hall]
          exact hcovers
        · rw [if_neg (by simpa using hexhausted)]
          exact htake
      · intro hexhausted
        dsimp only
        rw [if_pos hexhausted]
        exact max_eq_right htake.within
      · intro hexhausted hsize
        dsimp only
        rw [if_neg (by rw [hexhausted]; decide)]
        refine endAfter_pos ?_ fun env henv => (htake.bounds henv).1
        intro hnil
        rw [hnil] at hexhausted
        exact of_decide_eq_false hexhausted hsize

/-- A segment is loaded from any offset up to the end of the stream. -/
theorem loadSegment_of_le {segmentSize : Nat} {types : TypeFilter} {log : EventLog}
    (streamID : UUID) {begin : Nat} (h : begin ≤ log.next) :
    ∃ seg exhausted, loadSegment segmentSize types (some log) streamID begin =
        .ok (seg, exhausted) ∧
      seg.envelopes.length ≤ segmentSize := by
  rw [loadSegment, if_neg (Nat.not_lt.mpr h)]
  refine ⟨_, _, rfl, ?_⟩
  rw [List.length_take]
  exact Nat.min_le_left _ _

/-! ## Watchers -/

/-- The errors with which the source ends calls of `Local.Watch`. -/
inductive WatchError where
  /-- It wraps `ErrConsumerTooSlow`. -/
  | tooSlow (streamID : UUID)
  /-- The stream's follower has failed. -/
  | failed (streamID : UUID) (cause : SourceError)
  deriving DecidableEq, Repr

/-- How `Local.Watch` returns. -/
inductive WatchResult where
  | canceled
  /-- `fn` has returned an error. -/
  | rejected
  /-- The channel has been closed, and this is `watcher.Err`. -/
  | ended (err : Option WatchError)
  deriving DecidableEq, Repr

/-- Where a call of `Local.Watch` is. -/
inductive WatcherPhase where
  /-- About to pass the first of the opening segments to `fn` or, if there are none left,
  to receive from the channel. -/
  | ready (openings : List Segment)
  /-- `fn` is running. -/
  | calling (openings : List Segment)
  /-- About to call `unregister`. -/
  | returning (result : WatchResult)
  | returned (result : WatchResult)

/-- `watcher`, with the call of `Local.Watch` that it is for. -/
structure Watcher where
  types : TypeFilter
  segments : Channel Segment
  err : Option WatchError
  /-- It is in `Local.watchers`. -/
  registered : Bool
  phase : WatcherPhase
  /-- The segments that `fn` has been called with. -/
  passed : List Segment
  /-- The opening segments from when it was registered, and then those sent to it. -/
  given : List Segment

/-- What is done with each of the watchers while `Local.m` is held. -/
inductive Task where
  /-- `Local.deliver`. -/
  | deliver (seg : Segment)
  /-- `Local.fail`. -/
  | fail (streamID : UUID) (cause : SourceError)
  deriving DecidableEq, Repr

/-- The stream that the task is about. -/
def Task.streamID : Task → UUID
  | .deliver seg => seg.streamID
  | .fail streamID _ => streamID

/-- A loop over the watchers, with those that it has not got to. -/
structure Loop (W : Type) where
  task : Task
  rest : List W

/-- `Local`. -/
structure Local (W : Type) where
  segmentSize : Nat
  bufferSize : Nat
  segmentSize_pos : 0 < segmentSize
  bufferSize_pos : 0 < bufferSize
  offsets : UUID → Option Nat
  watchers : W → Option Watcher
  /-- The loop of the holder of `Local.m`. -/
  lock : Option (Loop W)

/-- The watcher once `Local.remove` has removed it. -/
def Watcher.remove (k : Watcher) (err : WatchError) : Watcher :=
  { k with registered := false, err := some err, segments := k.segments.close }

/-- The watcher of a call that has just been registered. -/
def Watcher.start (types : TypeFilter) (segments : Channel Segment) (openings : List Segment) :
    Watcher where
  types := types
  segments := segments
  err := none
  registered := true
  phase := .ready openings
  passed := []
  given := openings

/-- The opening segment of a stream. -/
def openingSegment (streamID : UUID) (offset : Nat) : Segment where
  streamID := streamID
  begin := offset
  end_ := offset
  envelopes := []

namespace Local

/-- Nothing has been followed or watched. -/
def start (segmentSize bufferSize : Nat) (segmentSize_pos : 0 < segmentSize)
    (bufferSize_pos : 0 < bufferSize) : Local W where
  segmentSize := segmentSize
  bufferSize := bufferSize
  segmentSize_pos := segmentSize_pos
  bufferSize_pos := bufferSize_pos
  offsets := fun _ => none
  watchers := fun _ => none
  lock := none

/-- The watcher is in `Local.watchers`. -/
def Registered (l : Local W) (w : W) : Prop :=
  ∃ k, l.watchers w = some k ∧ k.registered = true

/-- `openings` are the opening segments that a watcher is given now. -/
structure Openings (l : Local W) (openings : List Segment) : Prop where
  nodup : (openings.map Segment.streamID).Nodup
  mem_iff : ∀ seg, seg ∈ openings ↔
    ∃ id offset, l.offsets id = some offset ∧ seg = openingSegment id offset

/-- `Local.deliver` has recorded the segment's end, and is about to send the segment. -/
def deliver (l : Local W) (seg : Segment) (rest : List W) : Local W :=
  { l with
    offsets := Function.update l.offsets seg.streamID (some seg.end_)
    lock := some ⟨.deliver seg, rest⟩ }

/-- `Local.fail` has deleted the stream's offset, and is about to remove the watchers. -/
def fail (l : Local W) (streamID : UUID) (cause : SourceError) (rest : List W) : Local W :=
  { l with
    offsets := Function.update l.offsets streamID none
    lock := some ⟨.fail streamID cause, rest⟩ }

def unlock (l : Local W) : Local W := { l with lock := none }

variable [DecidableEq W]

def setWatcher (l : Local W) (w : W) (k : Watcher) : Local W :=
  { l with watchers := Function.update l.watchers w (some k) }

/-- One step of a call of `Local.Watch`, or of a loop over the watchers. -/
inductive Step : Local W → Local W → Prop where
  | send {l : Local W} {seg : Segment} {w : W} {rest : List W} {k : Watcher}
      {ch : Channel Segment} (hlock : l.lock = some ⟨.deliver seg, w :: rest⟩)
      (hwatcher : l.watchers w = some k) (hsent : k.segments.trySend seg = .sent ch) :
      Step l
        { l.setWatcher w { k with segments := ch, given := k.given ++ [seg] } with
          lock := some ⟨.deliver seg, rest⟩ }
  /-- The watcher's buffer is full. -/
  | overflow {l : Local W} {seg : Segment} {w : W} {rest : List W} {k : Watcher}
      (hlock : l.lock = some ⟨.deliver seg, w :: rest⟩) (hwatcher : l.watchers w = some k)
      (hfull : k.segments.trySend seg = .full) :
      Step l
        { l.setWatcher w (k.remove (.tooSlow seg.streamID)) with
          lock := some ⟨.deliver seg, rest⟩ }
  | remove {l : Local W} {streamID : UUID} {cause : SourceError} {w : W} {rest : List W}
      {k : Watcher} (hlock : l.lock = some ⟨.fail streamID cause, w :: rest⟩)
      (hwatcher : l.watchers w = some k) :
      Step l
        { l.setWatcher w (k.remove (.failed streamID cause)) with
          lock := some ⟨.fail streamID cause, rest⟩ }
  /-- `Local.Watch` is called.  It panics if there are no types. -/
  | register {l : Local W} {w : W} {types : TypeFilter} {openings : List Segment}
      (hnew : l.watchers w = none) (htypes : types ≠ some ∅) (hlock : l.lock = none)
      (hopenings : l.Openings openings) :
      Step l
        (l.setWatcher w (.start types (.make l.bufferSize [] l.bufferSize_pos) openings))
  | pass {l : Local W} {w : W} {k : Watcher} {seg : Segment} {openings : List Segment}
      (hwatcher : l.watchers w = some k) (hphase : k.phase = .ready (seg :: openings)) :
      Step l
        (l.setWatcher w { k with passed := k.passed ++ [seg], phase := .calling openings })
  | receive {l : Local W} {w : W} {k : Watcher} {seg : Segment} {ch : Channel Segment}
      (hwatcher : l.watchers w = some k) (hphase : k.phase = .ready [])
      (hreceive : k.segments.receive = .value seg ch) :
      Step l
        (l.setWatcher w
          { k with
            segments := ch
            passed := k.passed ++ [filterSegment seg k.types]
            phase := .calling [] })
  | accept {l : Local W} {w : W} {k : Watcher} {openings : List Segment}
      (hwatcher : l.watchers w = some k) (hphase : k.phase = .calling openings) :
      Step l (l.setWatcher w { k with phase := .ready openings })
  | reject {l : Local W} {w : W} {k : Watcher} {openings : List Segment}
      (hwatcher : l.watchers w = some k) (hphase : k.phase = .calling openings) :
      Step l (l.setWatcher w { k with phase := .returning .rejected })
  | channelClosed {l : Local W} {w : W} {k : Watcher} (hwatcher : l.watchers w = some k)
      (hphase : k.phase = .ready []) (hreceive : k.segments.receive = .closed) :
      Step l (l.setWatcher w { k with phase := .returning (.ended k.err) })
  | cancel {l : Local W} {w : W} {k : Watcher} (hwatcher : l.watchers w = some k)
      (hphase : k.phase = .ready []) :
      Step l (l.setWatcher w { k with phase := .returning .canceled })
  | unregister {l : Local W} {w : W} {k : Watcher} {result : WatchResult}
      (hwatcher : l.watchers w = some k) (hphase : k.phase = .returning result)
      (hlock : l.lock = none) :
      Step l (l.setWatcher w { k with registered := false, phase := .returned result })

end Local

/-! ## Followers -/

/-- The topic of the signals that the trigger `signal_create` sends. -/
def createTopic (streamID : UUID) : String := "eventstream.create." ++ streamID.asString

/-- The topic of the signals that the trigger `signal_append` sends. -/
def appendTopic (streamID : UUID) : String := "eventstream.append." ++ streamID.asString

/-- Where `Local.watchStream`, with `Local.deliverStream`, is.  `S` is the type of the
watches of the bus. -/
inductive FollowerPhase (S : Type) where
  /-- `watchStream` is not running. -/
  | idle
  /-- In `Bus.Watch`. -/
  | subscribing (i : S)
  /-- About to receive a signal. -/
  | receiving (i : S)
  /-- About to load the offset from which watching begins. -/
  | opening (i : S)
  /-- About to deliver the opening segment. -/
  | announcing (i : S)
  | loading (i : S)
  /-- A segment has been loaded, and has not been delivered. -/
  | loaded (i : S) (seg : Segment) (exhausted : Bool)
  /-- In `Local.deliver`. -/
  | delivering (i : S) (seg : Segment) (exhausted : Bool)
  /-- `deliverStream` is stopping its watch of the bus. -/
  | stopping (i : S) (cause : SourceError)
  /-- `deliverStream` has returned an error. -/
  | failing (cause : SourceError)
  /-- In `Local.fail`. -/
  | clearing
  /-- `watchStream` has returned because it was canceled. -/
  | ended

/-- The watch of the bus that the follower has. -/
def FollowerPhase.watch : FollowerPhase S → Option S
  | .subscribing i => some i
  | .receiving i => some i
  | .opening i => some i
  | .announcing i => some i
  | .loading i => some i
  | .loaded i _ _ => some i
  | .delivering i _ _ => some i
  | .stopping i _ => some i
  | _ => none

/-- The goroutine that runs `Local.watchStream` for one stream. -/
structure Follower (S : Type) where
  next : Nat
  opened : Bool
  /-- Its context has been canceled. -/
  canceled : Bool
  phase : FollowerPhase S

namespace Follower

/-- The stream is not being followed. -/
def start : Follower S where
  next := 0
  opened := false
  canceled := false
  phase := .idle

/-- What follows the delivery of a segment. -/
def afterDelivery (i : S) (exhausted : Bool) : FollowerPhase S :=
  if exhausted then .receiving i else .loading i

/-- One step of the follower of a stream. -/
inductive Step [DecidableEq S] (stream : Option EventLog) (id : UUID) :
    Bus S → Local W → Follower S → Bus S → Local W → Follower S → Prop where
  | subscribe {b b' : Bus S} {l : Local W} {f : Follower S} {i : S} {log : EventLog}
      (hphase : f.phase = .idle) (hstream : stream = some log)
      (hwatch : Bus.WatchStep i (.create (appendTopic id) 1) b b') :
      Step stream id b l f b' l { f with next := 0, opened := false, phase := .subscribing i }
  | register {b b' : Bus S} {l : Local W} {f : Follower S} {i : S}
      (hphase : f.phase = .subscribing i) (hwatch : Bus.WatchStep i .register b b') :
      Step stream id b l f b' l { f with phase := .receiving i }
  | receive {b b' : Bus S} {l : Local W} {f : Follower S} {i : S}
      (hphase : f.phase = .receiving i) (hwatch : Bus.WatchStep i .receive b b') :
      Step stream id b l f b' l
        { f with phase := if f.opened then .loading i else .opening i }
  | channelClosed {b : Bus S} {l : Local W} {f : Follower S} {i : S} {sub : Subscriber}
      (hphase : f.phase = .receiving i) (hsub : b.subscribers i = some sub)
      (hreceive : sub.subtopic.receive = .closed) :
      Step stream id b l f b l { f with phase := .stopping i .other }
  | loadOffset {b : Bus S} {l : Local W} {f : Follower S} {i : S} {log : EventLog}
      (hphase : f.phase = .opening i) (hstream : stream = some log) :
      Step stream id b l f b l
        { f with next := log.next, opened := true, phase := .announcing i }
  | announce {b : Bus S} {l : Local W} {f : Follower S} {i : S} {rest : List W}
      (hphase : f.phase = .announcing i) (hlock : l.lock = none)
      (hrest : Enumerates l.Registered rest) :
      Step stream id b l f b (l.deliver (openingSegment id f.next) rest)
        { f with phase := .delivering i (openingSegment id f.next) false }
  | load {b : Bus S} {l : Local W} {f : Follower S} {i : S} {seg : Segment} {exhausted : Bool}
      (hphase : f.phase = .loading i)
      (hload : loadSegment l.segmentSize none stream id f.next = .ok (seg, exhausted)) :
      Step stream id b l f b l { f with phase := .loaded i seg exhausted }
  | deliver {b : Bus S} {l : Local W} {f : Follower S} {i : S} {seg : Segment}
      {exhausted : Bool} {rest : List W} (hphase : f.phase = .loaded i seg exhausted)
      (hadvances : seg.begin < seg.end_) (hlock : l.lock = none)
      (hrest : Enumerates l.Registered rest) :
      Step stream id b l f b (l.deliver seg rest)
        { f with phase := .delivering i seg exhausted }
  /-- A segment that does not advance is not delivered. -/
  | skip {b : Bus S} {l : Local W} {f : Follower S} {i : S} {seg : Segment}
      {exhausted : Bool} (hphase : f.phase = .loaded i seg exhausted)
      (hadvances : ¬ seg.begin < seg.end_) :
      Step stream id b l f b l { f with phase := afterDelivery i exhausted }
  | delivered {b : Bus S} {l : Local W} {f : Follower S} {i : S} {seg : Segment}
      {exhausted : Bool} (hphase : f.phase = .delivering i seg exhausted)
      (hlock : l.lock = some ⟨.deliver seg, []⟩) :
      Step stream id b l f b l.unlock
        { f with next := seg.end_, phase := afterDelivery i exhausted }
  /-- The database returns an error, or there is no such stream. -/
  | error {b : Bus S} {l : Local W} {f : Follower S} {i : S} (cause : SourceError)
      (hphase : f.phase = .opening i ∨ f.phase = .loading i) :
      Step stream id b l f b l { f with phase := .stopping i cause }
  /-- The watch of the bus has been stopped. -/
  | stop {b : Bus S} {l : Local W} {f : Follower S} {i : S} {cause : SourceError}
      {sub : Subscriber} (hphase : f.phase = .stopping i cause)
      (hsub : b.subscribers i = some sub) (hclosed : sub.subtopic.closed = true) :
      Step stream id b l f b l
        { f with phase := if f.canceled then .ended else .failing cause }
  | fail {b : Bus S} {l : Local W} {f : Follower S} {cause : SourceError} {rest : List W}
      (hphase : f.phase = .failing cause) (hlock : l.lock = none)
      (hrest : Enumerates l.Registered rest) :
      Step stream id b l f b (l.fail id cause rest) { f with phase := .clearing }
  | failed {b : Bus S} {l : Local W} {f : Follower S} {cause : SourceError}
      (hphase : f.phase = .clearing) (hlock : l.lock = some ⟨.fail id cause, []⟩) :
      Step stream id b l f b l.unlock { f with phase := .idle }
  | cancel {b : Bus S} {l : Local W} {f : Follower S} :
      Step stream id b l f b l { f with canceled := true }

end Follower

/-! ## All of them together -/

/-- The streams in the database, the bus, the source and its followers. -/
structure LocalWorld (S W : Type) where
  /-- The rows of `eventstream.streams`, with their events. -/
  streams : UUID → Option EventLog
  bus : Bus S
  source : Local W
  followers : UUID → Follower S

namespace LocalWorld

/-- There are no streams, and nothing is running. -/
def start (source : Local W) : LocalWorld S W where
  streams := fun _ => none
  bus := .start
  source := source
  followers := fun _ => .start

/-- The events of a stream, of which there are none if it does not exist. -/
def log (s : LocalWorld S W) (id : UUID) : EventLog := (s.streams id).getD (Log.empty _ _)

theorem log_eq {s : LocalWorld S W} {id : UUID} {log : EventLog} (h : s.streams id = some log) :
    s.log id = log := by
  rw [LocalWorld.log, h]
  rfl

variable [DecidableEq S] [DecidableEq W]

/-- One step of the database, of the bus or of a goroutine of the source. -/
inductive Step : LocalWorld S W → LocalWorld S W → Prop where
  /-- A stream is created. -/
  | create {s : LocalWorld S W} {id : UUID} (hstream : s.streams id = none) :
      Step s
        { s with
          streams := Function.update s.streams id (some (Log.empty _ _))
          bus := s.bus.notify (createTopic id) }
  /-- Events are appended to a stream. -/
  | append {s : LocalWorld S W} {id : UUID} {log log' : EventLog}
      (hstream : s.streams id = some log) (hextends : log.Extends log') :
      Step s
        { s with
          streams := Function.update s.streams id (some log')
          bus := s.bus.notify (appendTopic id) }
  /-- Any other signal is sent. -/
  | notify {s : LocalWorld S W} (topic : String) :
      Step s { s with bus := s.bus.notify topic }
  | run {s : LocalWorld S W} {b : Bus S} (hstep : Bus.RunStep s.bus b) :
      Step s { s with bus := b }
  /-- A step of a watch that belongs to no follower. -/
  | watch {s : LocalWorld S W} {i : S} {op : Bus.WatchOp} {b : Bus S}
      (hother : ∀ id, (s.followers id).phase.watch ≠ some i)
      (hstep : Bus.WatchStep i op s.bus b) : Step s { s with bus := b }
  /-- The watch of a follower that has been canceled, or that stops it, is ended. -/
  | unsubscribe {s : LocalWorld S W} {id : UUID} {i : S} {op : Bus.WatchOp} {b : Bus S}
      (hwatch : (s.followers id).phase.watch = some i)
      (hends : (s.followers id).canceled = true ∨
        ∃ cause, (s.followers id).phase = .stopping i cause)
      (hop : op = .delete ∨ op = .close) (hstep : Bus.WatchStep i op s.bus b) :
      Step s { s with bus := b }
  | follow {s : LocalWorld S W} {id : UUID} {b : Bus S} {l : Local W} {f : Follower S}
      (hstep : Follower.Step (s.streams id) id s.bus s.source (s.followers id) b l f) :
      Step s
        { s with
          bus := b
          source := l
          followers := Function.update s.followers id f }
  | source {s : LocalWorld S W} {l : Local W} (hstep : Local.Step s.source l) :
      Step s { s with source := l }

/-- The world gets from one state to another by any number of steps. -/
def Reaches : LocalWorld S W → LocalWorld S W → Prop := Relation.ReflTransGen Step

end LocalWorld

/-! ## A run -/

theorem LocalWorld.Reaches.followed [DecidableEq S] [DecidableEq W] {s₀ s : LocalWorld S W}
    (h : LocalWorld.Reaches s₀ s) (id : UUID) {b : Bus S} {l : Local W} {f : Follower S}
    (hstep : Follower.Step (s.streams id) id s.bus s.source (s.followers id) b l f) :
    LocalWorld.Reaches s₀
      { s with bus := b, source := l, followers := Function.update s.followers id f } :=
  .tail h (.follow hstep)

theorem enumerates_unit {member : Unit → Prop} (h : member ()) : Enumerates member [()] :=
  ⟨List.nodup_singleton _, fun _ => ⟨fun _ => h, fun _ => List.mem_singleton.mpr rfl⟩⟩

/-- A call with a buffer for one segment, which was sent the opening segment of a stream
and is to be sent another one before it has received it. -/
def overflowed : Watcher where
  types := none
  segments :=
    { capacity := 1
      buffer := [openingSegment (uuid 100) 0]
      closed := true
      positive := by decide }
  err := some (.tooSlow (uuid 100))
  registered := false
  phase := .ready []
  passed := []
  given := [openingSegment (uuid 100) 0]

/-- The follower, once it has delivered `twoEvents`. -/
def caughtUpFollower : Follower Unit where
  next := 2
  opened := true
  canceled := false
  phase := .receiving ()

theorem overflowed_reached : ∃ s : LocalWorld Unit Unit,
    LocalWorld.Reaches (.start (.start 3 1 (by decide) (by decide))) s ∧
      s.log (uuid 100) = twoEvents ∧ s.followers (uuid 100) = caughtUpFollower ∧
      s.bus.connected = true ∧ s.bus.phase = .waiting ∧ s.bus.inFlight = [] ∧
      (∃ sub, s.bus.subscribers () = some sub ∧ sub.subtopic.receive = .blocks) ∧
      s.source.lock = none ∧ s.source.watchers () = some overflowed := by
  have h : LocalWorld.Reaches
    (.start (.start 3 1 (by decide) (by decide)) : LocalWorld Unit Unit) _ := .refl
  -- A stream is created, and then the bus begins to listen.
  have h : LocalWorld.Reaches _ _ := .tail h
    (@LocalWorld.Step.create Unit Unit _ _ _ (uuid 100) rfl)
  have h : LocalWorld.Reaches _ _ := .tail h (.run (.listen rfl))
  have h : LocalWorld.Reaches _ _ := .tail h
    (.run (@Bus.RunStep.wake Unit _ _ [] rfl ⟨List.nodup_nil, by
      intro i
      constructor
      · nofun
      · rintro ⟨sub, ⟨⟩, -⟩⟩))
  have h : LocalWorld.Reaches _ _ := .tail h (.run (.sent rfl))
  -- The call is registered before the follower opens the stream.
  have h : LocalWorld.Reaches _ _ := .tail h
    (.source (@Local.Step.register Unit _ _ () none [] rfl nofun rfl ⟨List.nodup_nil, by
      intro seg
      constructor
      · nofun
      · rintro ⟨id, offset, ⟨⟩, -⟩⟩))
  have h := h.followed (uuid 100)
    (.subscribe rfl rfl (@Bus.WatchStep.create Unit _ () _ _ 1 rfl (by decide)))
  have h := h.followed (uuid 100) (.register rfl (.register rfl rfl rfl))
  have h := h.followed (uuid 100) (.receive rfl (.receive rfl rfl))
  have h := h.followed (uuid 100) (.loadOffset rfl rfl)
  have h := h.followed (uuid 100) (.announce rfl rfl (enumerates_unit ⟨_, rfl, rfl⟩))
  have h : LocalWorld.Reaches _ _ := .tail h (.source (.send rfl rfl rfl))
  have h := h.followed (uuid 100) (.delivered rfl rfl)
  have h := h.followed (uuid 100) (.load rfl rfl)
  have h := h.followed (uuid 100) (.skip rfl (by decide))
  -- Two events are appended.
  have h : LocalWorld.Reaches _ _ := .tail h
    (@LocalWorld.Step.append Unit Unit _ _ _ (uuid 100) _ twoEvents rfl
      ⟨Nat.zero_le _, twoEvents.entries, rfl, fun _ _ => Nat.zero_le _⟩)
  have h : LocalWorld.Reaches _ _ := .tail h
    (.run (.dispatch rfl rfl (enumerates_unit ⟨_, rfl, rfl⟩)))
  have h : LocalWorld.Reaches _ _ := .tail h (.run (.send rfl rfl rfl rfl))
  have h : LocalWorld.Reaches _ _ := .tail h (.run (.sent rfl))
  have h := h.followed (uuid 100) (.receive rfl (.receive rfl rfl))
  have h := h.followed (uuid 100) (.load rfl rfl)
  have h := h.followed (uuid 100)
    (.deliver rfl (by decide) rfl (enumerates_unit ⟨_, rfl, rfl⟩))
  have h : LocalWorld.Reaches _ _ := .tail h (.source (.overflow rfl rfl rfl))
  have h := h.followed (uuid 100) (.delivered rfl rfl)
  exact ⟨_, h, rfl, rfl, rfl, rfl, rfl, ⟨_, rfl, rfl⟩, rfl, rfl⟩

end Runkit.EventStream
