/-
  EventStream/Catalog.lean --- the catalog of event streams, its feeds, the sources
  that fill them and the consumers that are served from them.

  Source: internal/eventstream/catalog.go, feed.go.

  Calls of `Catalog.Watch` and `Catalog.Consume` run at the same time.  A step is one
  access to what they share: a load or a store of an observable, closing a feed,
  or a piece of code that only the holder of a mutex can observe.  What follows
  within one goroutine is in its phase.

  Sources are known by their contract alone (`source.Source`): a segment that a
  source delivers is complete for the types it was asked for, and the segments of
  one call of `Source.Read` follow each other.  A source may deliver a stream from
  any offset each time it is watched, and may stop or fail at any time.
-/
import Runkit.EventStream.Cache
import Runkit.Foundation.Run
import Mathlib.Data.Finset.Card

set_option autoImplicit false

namespace Runkit.EventStream

open Runkit.Foundation

variable {S W C : Type}

/-! ## The catalog -/

/-- A pointer to a feed. -/
abbrev FeedRef := Nat

/-- A pointer to a `catalogStream`. -/
abbrev StreamRef := Nat

/-- `feed`, with a counter for the reads in progress. -/
structure Feed (S : Type) where
  id : UUID
  source : S
  types : TypeFilter
  cache : Cache
  closed : Bool
  reads : Nat

/-- The feed carries all of the types.  `Catalog.Consume` panics otherwise. -/
def Feed.watches (feed : Feed S) (types : Finset UUID) : Bool :=
  match feed.types with
  | none => true
  | some watched => decide (types ⊆ watched)

/-- `catalogStream`.  The ID is that under which it was added to the catalog. -/
structure CatalogStream where
  id : UUID
  availableFeeds : Finset FeedRef
  currentFeed : Option FeedRef

/-- What the goroutine that holds `Catalog.m` is about to do. -/
inductive Critical where
  /-- `Catalog.add` is about to store the current feed. -/
  | addStore (cs : StreamRef) (f : FeedRef)
  | addPublish (f : FeedRef)
  | addReturn (f : FeedRef)
  /-- `Catalog.remove` is about to store another current feed. -/
  | removeStore (cs : StreamRef) (f : FeedRef)
  /-- It is about to delete the stream and to publish that. -/
  | removePublish (f : FeedRef)
  | removeClose (f : FeedRef)
  | removeReturn (f : FeedRef)
  deriving DecidableEq, Repr

/-- `Catalog`, with the feeds and `catalogStream`s that exist. -/
structure Catalog (S : Type) where
  cacheSize : Nat
  streams : UUID → Option StreamRef
  streamIDs : Finset UUID
  catalogStreams : StreamRef → Option CatalogStream
  feeds : FeedRef → Option (Feed S)
  /-- `none` if `Catalog.m` is free. -/
  critical : Option Critical

namespace Catalog

/-- A catalog without streams. -/
def empty (cacheSize : Nat) : Catalog S where
  cacheSize := cacheSize
  streams := fun _ => none
  streamIDs := ∅
  catalogStreams := fun _ => none
  feeds := fun _ => none
  critical := none

def setFeed (c : Catalog S) (f : FeedRef) (feed : Feed S) : Catalog S :=
  { c with feeds := Function.update c.feeds f (some feed) }

def setStream (c : Catalog S) (cs : StreamRef) (s : CatalogStream) : Catalog S :=
  { c with catalogStreams := Function.update c.catalogStreams cs (some s) }

@[simp] theorem setFeed_feeds (c : Catalog S) (f : FeedRef) (feed : Feed S) :
    (c.setFeed f feed).feeds = Function.update c.feeds f (some feed) := rfl

@[simp] theorem setStream_catalogStreams (c : Catalog S) (cs : StreamRef) (s : CatalogStream) :
    (c.setStream cs s).catalogStreams = Function.update c.catalogStreams cs (some s) := rfl

/-- The `catalogStream` that `Catalog.add` adds a feed of the stream to: the one that
the catalog has, or else a new one. -/
def Provides (c : Catalog S) (id : UUID) (cs : StreamRef) (s : CatalogStream) : Prop :=
  (c.streams id = some cs ∧ c.catalogStreams cs = some s) ∨
    (c.streams id = none ∧ c.catalogStreams cs = none ∧
      s = { id := id, availableFeeds := ∅, currentFeed := none })

/-- The part of `Catalog.add` before it stores the current feed, if it does. -/
def insertFeed (c : Catalog S) (cs : StreamRef) (s : CatalogStream) (f : FeedRef)
    (feed : Feed S) : Catalog S :=
  let available := insert f s.availableFeeds
  { (c.setFeed f feed).setStream cs { s with availableFeeds := available } with
    streams := Function.update c.streams feed.id (some cs)
    critical := some (if available.card = 1 then .addStore cs f else .addReturn f) }

/-- The part of `Catalog.remove` before it stores another current feed, if it
does. -/
def deleteFeed (c : Catalog S) (cs : StreamRef) (s : CatalogStream) (f : FeedRef) :
    Catalog S :=
  { c.setStream cs { s with availableFeeds := s.availableFeeds.erase f } with
    critical := some (if s.currentFeed = some f then .removeStore cs f else .removeClose f) }

end Catalog

/-! ## Watching sources -/

/-- Where the delivery of a segment to `Catalog.Watch` is. -/
inductive Delivery where
  /-- In `feedFor`. -/
  | finding (seg : Segment)
  /-- In `Catalog.add`. -/
  | adding (f : FeedRef) (seg : Segment)
  /-- At the beginning of `feed.Append`. -/
  | appending (f : FeedRef) (seg : Segment)
  /-- The feed has not been closed before. -/
  | checked (f : FeedRef) (seg : Segment)
  /-- The cache ends where the segment begins. -/
  | aligned (f : FeedRef) (seg : Segment)

inductive WatchPhase where
  | watching
  /-- Feeds remain to be removed. -/
  | removing (rest : List FeedRef)
  /-- Feeds remain to be waited for. -/
  | draining (rest : List FeedRef)
  | returned

/-- A call of `Catalog.Watch`, with the feeds that it has created and the segments
that are being delivered to it, at most one of each stream. -/
structure Watch (S : Type) where
  source : S
  types : TypeFilter
  feeds : List (UUID × FeedRef)
  deliveries : UUID → Option Delivery
  phase : WatchPhase

namespace Watch

/-- A call that has just begun. -/
def start (source : S) (types : TypeFilter) : Watch S where
  source := source
  types := types
  feeds := []
  deliveries := fun _ => none
  phase := .watching

def setDelivery (w : Watch S) (id : UUID) (d : Option Delivery) : Watch S :=
  { w with deliveries := Function.update w.deliveries id d }

/-- One step of a call of `Catalog.Watch`. -/
inductive Step (logs : UUID → EventLog) :
    Catalog S → Watch S → Catalog S → Watch S → Prop where
  /-- The source delivers a segment. -/
  | deliver {c : Catalog S} {w : Watch S} {seg : Segment} (hphase : w.phase = .watching)
      (hidle : w.deliveries seg.streamID = none) (hseg : seg.Of (logs seg.streamID) w.types) :
      Step logs c w c (w.setDelivery seg.streamID (some (.finding seg)))
  | find {c : Catalog S} {w : Watch S} {id : UUID} {f : FeedRef} {seg : Segment}
      (hdelivery : w.deliveries id = some (.finding seg)) (hfeed : w.feeds.lookup id = some f) :
      Step logs c w c (w.setDelivery id (some (.appending f seg)))
  | add {c : Catalog S} {w : Watch S} {id : UUID} {f : FeedRef} {seg : Segment} {cache : Cache}
      {cs : StreamRef} {s : CatalogStream}
      (hdelivery : w.deliveries id = some (.finding seg)) (hnew : w.feeds.lookup id = none)
      (hfree : c.critical = none) (hfresh : c.feeds f = none)
      (hcache : Cache.new c.cacheSize seg.begin = some cache) (hstream : c.Provides id cs s) :
      Step logs c w
        (c.insertFeed cs s f
          { id := id
            source := w.source
            types := w.types
            cache := cache
            closed := false
            reads := 0 })
        (w.setDelivery id (some (.adding f seg)))
  | addStore {c : Catalog S} {w : Watch S} {id : UUID} {f : FeedRef} {seg : Segment}
      {cs : StreamRef} {s : CatalogStream}
      (hdelivery : w.deliveries id = some (.adding f seg))
      (hcritical : c.critical = some (.addStore cs f)) (hstream : c.catalogStreams cs = some s) :
      Step logs c w
        { c.setStream cs { s with currentFeed := some f } with
          critical := some (.addPublish f) } w
  | addPublish {c : Catalog S} {w : Watch S} {id : UUID} {f : FeedRef} {seg : Segment}
      (hdelivery : w.deliveries id = some (.adding f seg))
      (hcritical : c.critical = some (.addPublish f)) :
      Step logs c w
        { c with
          streamIDs := insert id c.streamIDs
          critical := some (.addReturn f) } w
  | addReturn {c : Catalog S} {w : Watch S} {id : UUID} {f : FeedRef} {seg : Segment}
      (hdelivery : w.deliveries id = some (.adding f seg))
      (hcritical : c.critical = some (.addReturn f)) :
      Step logs c w { c with critical := none }
        { w.setDelivery id (some (.appending f seg)) with feeds := (id, f) :: w.feeds }
  /-- `feed.Append` has no effect once the feed is closed. -/
  | skip {c : Catalog S} {w : Watch S} {id : UUID} {f : FeedRef} {seg : Segment} {feed : Feed S}
      (hdelivery : w.deliveries id = some (.appending f seg)) (hfeed : c.feeds f = some feed)
      (hclosed : feed.closed = true) :
      Step logs c w c (w.setDelivery id none)
  | check {c : Catalog S} {w : Watch S} {id : UUID} {f : FeedRef} {seg : Segment} {feed : Feed S}
      (hdelivery : w.deliveries id = some (.appending f seg)) (hfeed : c.feeds f = some feed)
      (hopen : feed.closed = false) :
      Step logs c w c (w.setDelivery id (some (.checked f seg)))
  | reset {c : Catalog S} {w : Watch S} {id : UUID} {f : FeedRef} {seg : Segment} {feed : Feed S}
      (hdelivery : w.deliveries id = some (.checked f seg)) (hfeed : c.feeds f = some feed)
      (hrestart : seg.begin ≠ feed.cache.segment.value.end_) :
      Step logs c w (c.setFeed f { feed with cache := feed.cache.reset seg.begin })
        (w.setDelivery id (some (.aligned f seg)))
  | align {c : Catalog S} {w : Watch S} {id : UUID} {f : FeedRef} {seg : Segment} {feed : Feed S}
      (hdelivery : w.deliveries id = some (.checked f seg)) (hfeed : c.feeds f = some feed)
      (hcontiguous : seg.begin = feed.cache.segment.value.end_) :
      Step logs c w c (w.setDelivery id (some (.aligned f seg)))
  | append {c : Catalog S} {w : Watch S} {id : UUID} {f : FeedRef} {seg : Segment}
      {feed : Feed S} {cache : Cache}
      (hdelivery : w.deliveries id = some (.aligned f seg)) (hfeed : c.feeds f = some feed)
      (hcache : feed.cache.append seg.begin seg.end_ seg.envelopes = some cache) :
      Step logs c w (c.setFeed f { feed with cache := cache }) (w.setDelivery id none)
  /-- The last call of `Source.Watch` has returned. -/
  | stop {c : Catalog S} {w : Watch S} (hphase : w.phase = .watching)
      (hidle : ∀ id, w.deliveries id = none) :
      Step logs c w c { w with phase := .removing (w.feeds.map Prod.snd) }
  | remove {c : Catalog S} {w : Watch S} {f : FeedRef} {rest : List FeedRef} {feed : Feed S}
      {cs : StreamRef} {s : CatalogStream} (hphase : w.phase = .removing (f :: rest))
      (hfree : c.critical = none) (hfeed : c.feeds f = some feed)
      (hstreams : c.streams feed.id = some cs) (hstream : c.catalogStreams cs = some s) :
      Step logs c w (c.deleteFeed cs s f) w
  | removeStore {c : Catalog S} {w : Watch S} {f : FeedRef} {rest : List FeedRef}
      {cs : StreamRef} {s : CatalogStream} {next : FeedRef}
      (hphase : w.phase = .removing (f :: rest))
      (hcritical : c.critical = some (.removeStore cs f)) (hstream : c.catalogStreams cs = some s)
      (hnext : next ∈ s.availableFeeds) :
      Step logs c w
        { c.setStream cs { s with currentFeed := some next } with
          critical := some (.removeClose f) } w
  | removeLast {c : Catalog S} {w : Watch S} {f : FeedRef} {rest : List FeedRef}
      {cs : StreamRef} {s : CatalogStream} (hphase : w.phase = .removing (f :: rest))
      (hcritical : c.critical = some (.removeStore cs f)) (hstream : c.catalogStreams cs = some s)
      (hnone : s.availableFeeds = ∅) :
      Step logs c w
        { c.setStream cs { s with currentFeed := none } with
          critical := some (.removePublish f) } w
  | removePublish {c : Catalog S} {w : Watch S} {f : FeedRef} {rest : List FeedRef}
      {feed : Feed S} (hphase : w.phase = .removing (f :: rest))
      (hcritical : c.critical = some (.removePublish f)) (hfeed : c.feeds f = some feed) :
      Step logs c w
        { c with
          streams := Function.update c.streams feed.id none
          streamIDs := c.streamIDs.erase feed.id
          critical := some (.removeClose f) } w
  | removeClose {c : Catalog S} {w : Watch S} {f : FeedRef} {rest : List FeedRef}
      {feed : Feed S} (hphase : w.phase = .removing (f :: rest))
      (hcritical : c.critical = some (.removeClose f)) (hfeed : c.feeds f = some feed) :
      Step logs c w
        { c.setFeed f { feed with closed := true } with critical := some (.removeReturn f) } w
  | removeReturn {c : Catalog S} {w : Watch S} {f : FeedRef} {rest : List FeedRef}
      (hphase : w.phase = .removing (f :: rest))
      (hcritical : c.critical = some (.removeReturn f)) :
      Step logs c w { c with critical := none } { w with phase := .removing rest }
  | drain {c : Catalog S} {w : Watch S} (hphase : w.phase = .removing []) :
      Step logs c w c { w with phase := .draining (w.feeds.map Prod.snd) }
  /-- `feed.Wait`. -/
  | wait {c : Catalog S} {w : Watch S} {f : FeedRef} {rest : List FeedRef} {feed : Feed S}
      (hphase : w.phase = .draining (f :: rest)) (hfeed : c.feeds f = some feed)
      (hreads : feed.reads = 0) :
      Step logs c w c { w with phase := .draining rest }
  | finish {c : Catalog S} {w : Watch S} (hphase : w.phase = .draining []) :
      Step logs c w c { w with phase := .returned }

end Watch

/-! ## Consumers -/

/-- Why `feed.consume` reads from the source. -/
inductive ReadReason where
  /-- The checkpoint, given here, is before the cached segment. -/
  | before (start : Nat)
  /-- The checkpoint is beyond the cached segment, and has not been confirmed. -/
  | after
  deriving DecidableEq, Repr

/-- How `Source.Read` returns, unless the consumer has rejected a segment. -/
inductive ReadOutcome where
  | caughtUp
  | ended
  | failed (e : SourceError)
  deriving DecidableEq, Repr

/-- How `Catalog.Consume` returns. -/
inductive ConsumeResult where
  | streamNotFound
  /-- It panics, because the feed does not carry all of the types. -/
  | unwatched
  /-- The consumer has rejected a segment. -/
  | rejected
  | canceled
  | readFailed (e : SourceError)
  /-- The source's stream ends before the cached segment. -/
  | shorter
  deriving DecidableEq, Repr

/-- Where a call of `feed.consume` is. -/
inductive FeedPhase where
  /-- About to load the cached segment. -/
  | load
  /-- Passing a segment to the consumer. -/
  | deliver (seg : Segment)
  /-- Waiting for the cached segment to change from the given version. -/
  | wait (version : Nat)
  | startRead (reason : ReadReason)
  /-- In `Source.Read`. -/
  | reading (reason : ReadReason)
  /-- In `Source.Read`, passing a segment to the consumer. -/
  | readDeliver (reason : ReadReason) (seg : Segment)
  /-- In `Source.Read`, about to compare the checkpoint with the cached segment. -/
  | compare (reason : ReadReason)
  | readReturned (reason : ReadReason) (outcome : ReadOutcome)

/-- Where a call of `Catalog.Consume` is. -/
inductive ConsumePhase where
  | lookup
  /-- About to load the current feed. -/
  | loadFeed (cs : StreamRef)
  | inFeed (cs : StreamRef) (f : FeedRef) (confirmed : Bool) (phase : FeedPhase)
  /-- `feed.consume` has returned `errFeedClosed`. -/
  | feedClosed (cs : StreamRef)
  | returned (result : ConsumeResult)

/-- A call of `Catalog.Consume`, with the segments that the consumer has accepted. -/
structure Consumer where
  streamID : UUID
  types : Finset UUID
  begin : Nat
  cp : Nat
  accepted : List Segment
  phase : ConsumePhase

namespace Consumer

/-- A call that has just begun. -/
def start (streamID : UUID) (types : Finset UUID) (begin : Nat) : Consumer where
  streamID := streamID
  types := types
  begin := begin
  cp := begin
  accepted := []
  phase := .lookup

/-- The call after the consumer has accepted a segment. -/
def accept (k : Consumer) (seg : Segment) (phase : ConsumePhase) : Consumer :=
  { k with cp := seg.end_, accepted := k.accepted ++ [seg], phase := phase }

/-- What `feed.consume` does with the cached segment that it has loaded. -/
def afterLoad (k : Consumer) (confirmed : Bool) (segment : Observable CacheSegment) :
    FeedPhase :=
  match segment.value.read k.cp (some k.types) with
  | (envelopes, .within) =>
      .deliver
        { streamID := k.streamID
          begin := k.cp
          end_ := segment.value.end_
          envelopes := envelopes }
  | (_, .before) => .startRead (.before k.cp)
  | (_, .after) =>
      if segment.value.end_ < k.cp ∧ confirmed = false then .startRead .after
      else .wait segment.version

/-- What follows a call of `feed.read` that returns without an error. -/
def afterRead (k : Consumer) (cs : StreamRef) (f : FeedRef) : ReadReason → ConsumePhase
  | .before start => if k.cp = start then .returned .shorter else .inFeed cs f true .load
  | .after => .inFeed cs f true .load

/-- What follows once `Source.Read` has returned. -/
def afterSourceRead (k : Consumer) (cs : StreamRef) (f : FeedRef) (closed : Bool)
    (reason : ReadReason) : ReadOutcome → ConsumePhase
  | .caughtUp => k.afterRead cs f reason
  | .ended => if closed then .feedClosed cs else k.afterRead cs f reason
  | .failed e => if closed then .feedClosed cs else .returned (.readFailed e)

/-- One step of a call of `Catalog.Consume`, given the stream. -/
inductive Step (log : EventLog) : Catalog S → Consumer → Catalog S → Consumer → Prop where
  | notFound {c : Catalog S} {k : Consumer} (hphase : k.phase = .lookup)
      (hfree : c.critical = none) (hstream : c.streams k.streamID = none) :
      Step log c k c { k with phase := .returned .streamNotFound }
  | found {c : Catalog S} {k : Consumer} {cs : StreamRef} (hphase : k.phase = .lookup)
      (hfree : c.critical = none) (hstream : c.streams k.streamID = some cs) :
      Step log c k c { k with phase := .loadFeed cs }
  | noFeed {c : Catalog S} {k : Consumer} {cs : StreamRef} {s : CatalogStream}
      (hphase : k.phase = .loadFeed cs) (hstream : c.catalogStreams cs = some s)
      (hcurrent : s.currentFeed = none) :
      Step log c k c { k with phase := .returned .streamNotFound }
  | unwatched {c : Catalog S} {k : Consumer} {cs : StreamRef} {s : CatalogStream} {f : FeedRef}
      {feed : Feed S} (hphase : k.phase = .loadFeed cs) (hstream : c.catalogStreams cs = some s)
      (hcurrent : s.currentFeed = some f) (hfeed : c.feeds f = some feed)
      (hwatches : feed.watches k.types = false) :
      Step log c k c { k with phase := .returned .unwatched }
  | enter {c : Catalog S} {k : Consumer} {cs : StreamRef} {s : CatalogStream} {f : FeedRef}
      {feed : Feed S} (hphase : k.phase = .loadFeed cs) (hstream : c.catalogStreams cs = some s)
      (hcurrent : s.currentFeed = some f) (hfeed : c.feeds f = some feed)
      (hwatches : feed.watches k.types = true) :
      Step log c k c { k with phase := .inFeed cs f false .load }
  | load {c : Catalog S} {k : Consumer} {cs : StreamRef} {f : FeedRef} {confirmed : Bool}
      {feed : Feed S} (hphase : k.phase = .inFeed cs f confirmed .load)
      (hfeed : c.feeds f = some feed) :
      Step log c k c
        { k with phase := .inFeed cs f confirmed (k.afterLoad confirmed feed.cache.segment) }
  | accept {c : Catalog S} {k : Consumer} {cs : StreamRef} {f : FeedRef} {confirmed : Bool}
      {seg : Segment} (hphase : k.phase = .inFeed cs f confirmed (.deliver seg)) :
      Step log c k c (k.accept seg (.inFeed cs f true .load))
  | reject {c : Catalog S} {k : Consumer} {cs : StreamRef} {f : FeedRef} {confirmed : Bool}
      {seg : Segment} (hphase : k.phase = .inFeed cs f confirmed (.deliver seg)) :
      Step log c k c { k with phase := .returned .rejected }
  | wake {c : Catalog S} {k : Consumer} {cs : StreamRef} {f : FeedRef} {confirmed : Bool}
      {version : Nat} {feed : Feed S} (hphase : k.phase = .inFeed cs f confirmed (.wait version))
      (hfeed : c.feeds f = some feed) (hchanged : feed.cache.segment.version ≠ version) :
      Step log c k c { k with phase := .inFeed cs f confirmed .load }
  | waitClosed {c : Catalog S} {k : Consumer} {cs : StreamRef} {f : FeedRef} {confirmed : Bool}
      {version : Nat} {feed : Feed S} (hphase : k.phase = .inFeed cs f confirmed (.wait version))
      (hfeed : c.feeds f = some feed) (hclosed : feed.closed = true) :
      Step log c k c { k with phase := .feedClosed cs }
  | waitCanceled {c : Catalog S} {k : Consumer} {cs : StreamRef} {f : FeedRef}
      {confirmed : Bool} {version : Nat}
      (hphase : k.phase = .inFeed cs f confirmed (.wait version)) :
      Step log c k c { k with phase := .returned .canceled }
  | startRead {c : Catalog S} {k : Consumer} {cs : StreamRef} {f : FeedRef} {confirmed : Bool}
      {reason : ReadReason} {feed : Feed S}
      (hphase : k.phase = .inFeed cs f confirmed (.startRead reason))
      (hfeed : c.feeds f = some feed) (hopen : feed.closed = false) :
      Step log c k (c.setFeed f { feed with reads := feed.reads + 1 })
        { k with phase := .inFeed cs f confirmed (.reading reason) }
  | startReadClosed {c : Catalog S} {k : Consumer} {cs : StreamRef} {f : FeedRef}
      {confirmed : Bool} {reason : ReadReason} {feed : Feed S}
      (hphase : k.phase = .inFeed cs f confirmed (.startRead reason))
      (hfeed : c.feeds f = some feed) (hclosed : feed.closed = true) :
      Step log c k c { k with phase := .feedClosed cs }
  /-- The source delivers the segment that follows those that it has delivered. -/
  | readDeliver {c : Catalog S} {k : Consumer} {cs : StreamRef} {f : FeedRef} {confirmed : Bool}
      {reason : ReadReason} {seg : Segment}
      (hphase : k.phase = .inFeed cs f confirmed (.reading reason))
      (hstream : seg.streamID = k.streamID) (hbegin : seg.begin = k.cp)
      (hseg : seg.Of log (some k.types)) :
      Step log c k c { k with phase := .inFeed cs f confirmed (.readDeliver reason seg) }
  | readAccept {c : Catalog S} {k : Consumer} {cs : StreamRef} {f : FeedRef} {confirmed : Bool}
      {reason : ReadReason} {seg : Segment}
      (hphase : k.phase = .inFeed cs f confirmed (.readDeliver reason seg)) :
      Step log c k c (k.accept seg (.inFeed cs f confirmed (.compare reason)))
  | readReject {c : Catalog S} {k : Consumer} {cs : StreamRef} {f : FeedRef} {confirmed : Bool}
      {reason : ReadReason} {seg : Segment} {feed : Feed S}
      (hphase : k.phase = .inFeed cs f confirmed (.readDeliver reason seg))
      (hfeed : c.feeds f = some feed) :
      Step log c k (c.setFeed f { feed with reads := feed.reads - 1 })
        { k with phase := .returned .rejected }
  | caughtUp {c : Catalog S} {k : Consumer} {cs : StreamRef} {f : FeedRef} {confirmed : Bool}
      {reason : ReadReason} {feed : Feed S}
      (hphase : k.phase = .inFeed cs f confirmed (.compare reason))
      (hfeed : c.feeds f = some feed) (hreached : feed.cache.segment.value.begin ≤ k.cp) :
      Step log c k c { k with phase := .inFeed cs f confirmed (.readReturned reason .caughtUp) }
  | behind {c : Catalog S} {k : Consumer} {cs : StreamRef} {f : FeedRef} {confirmed : Bool}
      {reason : ReadReason} {feed : Feed S}
      (hphase : k.phase = .inFeed cs f confirmed (.compare reason))
      (hfeed : c.feeds f = some feed) (hbehind : k.cp < feed.cache.segment.value.begin) :
      Step log c k c { k with phase := .inFeed cs f confirmed (.reading reason) }
  /-- The source stops delivering, with or without an error. -/
  | readStop {c : Catalog S} {k : Consumer} {cs : StreamRef} {f : FeedRef} {confirmed : Bool}
      {reason : ReadReason} {outcome : ReadOutcome}
      (hphase : k.phase = .inFeed cs f confirmed (.reading reason))
      (houtcome : outcome ≠ .caughtUp) :
      Step log c k c { k with phase := .inFeed cs f confirmed (.readReturned reason outcome) }
  | readReturn {c : Catalog S} {k : Consumer} {cs : StreamRef} {f : FeedRef} {confirmed : Bool}
      {reason : ReadReason} {outcome : ReadOutcome} {feed : Feed S}
      (hphase : k.phase = .inFeed cs f confirmed (.readReturned reason outcome))
      (hfeed : c.feeds f = some feed) :
      Step log c k (c.setFeed f { feed with reads := feed.reads - 1 })
        { k with phase := k.afterSourceRead cs f feed.closed reason outcome }
  | again {c : Catalog S} {k : Consumer} {cs : StreamRef} (hphase : k.phase = .feedClosed cs) :
      Step log c k c { k with phase := .loadFeed cs }
  | canceled {c : Catalog S} {k : Consumer} {cs : StreamRef}
      (hphase : k.phase = .feedClosed cs) :
      Step log c k c { k with phase := .returned .canceled }

end Consumer

/-! ## All of them together -/

/-- The streams, the catalog, and all calls of `Catalog.Watch` and
`Catalog.Consume`. -/
structure World (S W C : Type) where
  logs : UUID → EventLog
  catalog : Catalog S
  watches : W → Option (Watch S)
  consumers : C → Option Consumer

namespace World

/-- Nothing has happened yet, and all streams are empty. -/
def start (cacheSize : Nat) : World S W C where
  logs := fun _ => Log.empty _ _
  catalog := .empty cacheSize
  watches := fun _ => none
  consumers := fun _ => none

/-- One step of a stream or a goroutine. -/
inductive Step [DecidableEq W] [DecidableEq C] : World S W C → World S W C → Prop where
  /-- Events are appended to a stream. -/
  | grow {w : World S W C} {id : UUID} {log : EventLog} (hextends : (w.logs id).Extends log) :
      Step w { w with logs := Function.update w.logs id log }
  /-- `Catalog.Watch` is called.  It panics if the cache size is not positive. -/
  | watch {w : World S W C} {i : W} {source : S} {types : TypeFilter}
      (hnew : w.watches i = none) (hsize : 0 < w.catalog.cacheSize) :
      Step w { w with watches := Function.update w.watches i (some (.start source types)) }
  | watchStep {w : World S W C} {i : W} {watch watch' : Watch S} {catalog : Catalog S}
      (hwatch : w.watches i = some watch)
      (hstep : Watch.Step w.logs w.catalog watch catalog watch') :
      Step w
        { w with
          catalog := catalog
          watches := Function.update w.watches i (some watch') }
  /-- `Catalog.Consume` is called.  It panics if there are no types. -/
  | consume {w : World S W C} {i : C} {streamID : UUID} {types : Finset UUID} {begin : Nat}
      (hnew : w.consumers i = none) (htypes : types.Nonempty) :
      Step w
        { w with
          consumers := Function.update w.consumers i (some (.start streamID types begin)) }
  | consumeStep {w : World S W C} {i : C} {k k' : Consumer} {catalog : Catalog S}
      (hconsumer : w.consumers i = some k)
      (hstep : Consumer.Step (w.logs k.streamID) w.catalog k catalog k') :
      Step w
        { w with
          catalog := catalog
          consumers := Function.update w.consumers i (some k') }

/-- The world gets from one state to another by any number of steps. -/
def Reaches [DecidableEq W] [DecidableEq C] : World S W C → World S W C → Prop :=
  Relation.ReflTransGen Step

end World

end Runkit.EventStream
