/-
  EventStream/Relay.lean --- a remote source behaves as the source that it is
  connected to.

  The server splits segments, and the client checks each part and puts nothing back
  together.  A message stands for a segment (`EventStreamSegment.segment`); what is
  proved of `splitSegment` is that the segments its messages stand for cover the range
  of the one that was split (`Splits`), each of them complete, and what is proved of
  `parseSegment` is that it accepts any message that stands for a complete segment.
-/
import Runkit.EventStream.Parsing
import Runkit.EventStream.SplitSegment

set_option autoImplicit false

namespace Runkit.EventStream

open Runkit.Foundation

variable {pb : Protobuf} {logs : UUID → EventLog} {types : TypeFilter}
  {begin end_ : Nat} {streamID : UUID}

/-! ## What messages stand for -/

/-- The event is valid, and says that it is in the stream. -/
def Placed (pb : Protobuf) (streamID : UUID) (env : Envelope) : Prop :=
  pb.validEnvelope env = true ∧ ∃ offset, env.body.position = some ⟨streamID, offset⟩

/-- The message is one that the client accepts: it stands for a complete segment. -/
structure EventStreamSegment.Sound (logs : UUID → EventLog) (types : TypeFilter)
    (res : EventStreamSegment pb) : Prop where
  streamID : pb.validUUID res.eventStreamID = true
  complete : res.segment.Of (logs res.eventStreamID) types
  multis : ∀ multi ∈ res.envelopes, pb.validMulti multi = true
  events : ∀ env ∈ res.segment.envelopes, Placed pb res.eventStreamID env

/-! ## Splitting -/

/-- The messages that a segment is split into stand for segments that cover its range, and
are sound. -/
theorem splitSegment_splits (maxBytes : Nat) {seg : Segment}
    (hid : pb.validUUID seg.streamID = true) (hof : seg.Of (logs seg.streamID) types)
    (hevents : ∀ env ∈ (logs seg.streamID).entries, Placed pb seg.streamID env) :
    Splits seg.begin seg.end_ seg.envelopes
        ((splitSegment pb maxBytes seg).map EventStreamSegment.segment) ∧
      ∀ res ∈ splitSegment pb maxBytes seg,
        res.eventStreamID = seg.streamID ∧ res.Sound logs types := by
  have hplaced : ∀ {begin end_ events}, Covers (logs seg.streamID) types begin end_ events →
      ∀ env ∈ events, Placed pb seg.streamID env := by
    intro begin end_ events hcovers env henv
    rw [hcovers.complete] at henv
    exact hevents env (Log.mem_read_iff.mp henv).1
  obtain ⟨hsplits, hparts⟩ :
      Splits seg.begin seg.end_ seg.envelopes
          ((splitSegment pb maxBytes seg).map EventStreamSegment.segment) ∧
        ∀ res ∈ splitSegment pb maxBytes seg, res.segment.Of (logs seg.streamID) types :=
    splitLoop_splits (covers_divides _ types) maxBytes (.start seg.begin) hof
  have hvalid : ∀ res ∈ splitSegment pb maxBytes seg, ∀ multi ∈ res.envelopes,
      pb.validMulti multi = true :=
    splitLoop_valid (.start seg.begin) fun env henv => (hplaced hof env henv).1
  refine ⟨hsplits, ?_⟩
  intro res hres
  have hstream : res.eventStreamID = seg.streamID := splitLoop_streamID res hres
  have hcomplete := hparts res hres
  refine ⟨hstream, ⟨by rw [hstream]; exact hid, by rw [hstream]; exact hcomplete,
    hvalid res hres, ?_⟩⟩
  rw [hstream]
  exact hplaced hcomplete

/-! ## Parsing -/

/-- The client accepts a sound message. -/
theorem EventStreamSegment.Sound.wellFormed {res : EventStreamSegment pb}
    (h : res.Sound logs types) : res.WellFormed types where
  streamID := h.streamID
  multis := h.multis
  ordered := h.complete.ordered
  positions := fun env henv => (h.events env henv).2
  sorted := h.complete.sorted
  within := fun _ henv => h.complete.bounds henv
  types := by
    rintro ids rfl env henv
    have hcomplete : res.envelopes.flatMap pb.all = _ := h.complete.complete
    rw [hcomplete] at henv
    exact of_decide_eq_true (Log.mem_read_iff.mp henv).2.2.2

/-! ## The parts of many segments -/

/-- The segments that the messages for the given ones stand for. -/
def partsOf (pb : Protobuf) (maxBytes : Nat) (segs : List Segment) : List Segment :=
  (segs.flatMap (splitSegment pb maxBytes)).map EventStreamSegment.segment

section

variable {maxBytes : Nat} {seg : Segment} {segs : List Segment}

theorem partsOf_cons :
    partsOf pb maxBytes (seg :: segs) =
      (splitSegment pb maxBytes seg).map EventStreamSegment.segment ++
        partsOf pb maxBytes segs := by
  rw [partsOf, List.flatMap_cons, List.map_append, partsOf]

/-- Splitting segments and picking those of one stream can be done in either order. -/
theorem segmentsOf_partsOf (id : UUID) :
    segmentsOf id (partsOf pb maxBytes segs) = partsOf pb maxBytes (segmentsOf id segs) := by
  induction segs with
  | nil => rfl
  | cons seg rest ih =>
      have hparts : ∀ part ∈ (splitSegment pb maxBytes seg).map EventStreamSegment.segment,
          part.streamID = seg.streamID := by
        intro part hpart
        obtain ⟨res, hres, rfl⟩ := List.mem_map.mp hpart
        exact splitLoop_streamID res hres
      rw [partsOf_cons, segmentsOf_append, ih]
      by_cases heq : seg.streamID = id
      · have hall : segmentsOf id ((splitSegment pb maxBytes seg).map EventStreamSegment.segment) =
            (splitSegment pb maxBytes seg).map EventStreamSegment.segment :=
          List.filter_eq_self.mpr fun part hpart => decide_eq_true ((hparts part hpart).trans heq)
        rw [hall, segmentsOf_cons_self heq, partsOf_cons]
      · have hnone : segmentsOf id ((splitSegment pb maxBytes seg).map EventStreamSegment.segment) =
            [] :=
          List.filter_eq_nil_iff.mpr fun part hpart htest =>
            heq ((hparts part hpart).symm.trans (of_decide_eq_true htest))
        rw [hnone, List.nil_append, segmentsOf_cons_of_ne heq]

/-- The parts of segments that follow each other cover the same range. -/
theorem partsOf_splits (hcontiguous : Contiguous Segment.begin Segment.end_ begin segs)
    (hsegs : ∀ seg ∈ segs, Splits seg.begin seg.end_ seg.envelopes
      ((splitSegment pb maxBytes seg).map EventStreamSegment.segment)) :
    Splits begin (reach Segment.end_ begin segs) (segs.flatMap Segment.envelopes)
      (partsOf pb maxBytes segs) := by
  induction segs generalizing begin with
  | nil => exact ⟨trivial, rfl, rfl⟩
  | cons seg rest ih =>
      obtain ⟨rfl, -, hrest⟩ := hcontiguous
      rw [partsOf_cons, reach_cons, List.flatMap_cons]
      exact (hsegs seg List.mem_cons_self).append
        (ih hrest fun seg' hseg' => hsegs seg' (List.mem_cons_of_mem _ hseg'))

end

/-! ## Consuming -/

section

variable {fn : List Segment → Bool} {canceled : Bool} {status : Option Code}
  {passed : List Segment} {res : List (EventStreamSegment pb)}

/-- Sound messages that follow each other from the offset are delivered. -/
theorem readLoop_eq {first : Bool} (hsound : ∀ r ∈ res, r.Sound logs types)
    (hstream : ∀ r ∈ res, r.eventStreamID = streamID)
    (hcontiguous : Contiguous Segment.begin Segment.end_ begin
      (res.map EventStreamSegment.segment)) :
    readLoop pb streamID types fn canceled status begin first passed res =
      deliverTo fn (status.map (readError canceled)) passed
        (res.map EventStreamSegment.segment) := by
  have hreadable : Readable streamID types begin res := by
    refine ⟨fun r hr => (hsound r hr).wellFormed, hstream, ?_⟩
    rwa [contiguous_map] at hcontiguous
    · exact fun _ => rfl
    · exact fun _ => rfl
  have hpasses : PassesOn fn (status.map (readError canceled)) passed res _
      (readLoop pb streamID types fn canceled status begin first passed res) :=
    readLoop_passesOn begin first passed res
  rw [(accepts_readStep_iff.mpr hreadable).longestPrefix_eq] at hpasses
  exact hpasses.all rfl

/-- Sound messages that follow each other stream by stream are delivered. -/
theorem watchLoop_eq (hsound : ∀ r ∈ res, r.Sound logs types)
    (hcontiguous : ∀ id, ∃ start, Contiguous Segment.begin Segment.end_ start
      (segmentsOf id (res.map EventStreamSegment.segment))) :
    watchLoop pb types fn canceled status (fun _ => none) passed res =
      deliverTo fn (status.map (watchError canceled)) passed
        (res.map EventStreamSegment.segment) := by
  have hwatchable : Watchable types [] res := by
    refine ⟨fun r hr => (hsound r hr).wellFormed, ?_⟩
    rintro before r after rfl end_ hend
    obtain ⟨start, hstart⟩ := hcontiguous r.segment.streamID
    rw [List.map_append, segmentsOf_append, List.map_cons, segmentsOf_cons_self rfl] at hstart
    have hbegin : r.segment.begin = end_ := lo_eq_of_contiguous hstart hend
    exact hbegin
  have hpasses : PassesOn fn (status.map (watchError canceled)) passed res _
      (watchLoop pb types fn canceled status (fun _ => none) passed res) :=
    watchLoop_passesOn (fun _ => none) passed res
  have haccepts : Accepts (watchStep pb types) (fun _ => none) res :=
    (accepts_watchStep_iff []).mpr hwatchable
  rw [haccepts.longestPrefix_eq] at hpasses
  exact hpasses.all rfl

/-- A call that is not rejected returns what it returns. -/
theorem deliverTo_ended {result result' : CallResult} {segs : List Segment}
    (h : (deliverTo fn result passed segs).2 = .ended result') : result' = result := by
  induction segs generalizing passed with
  | nil =>
      cases h
      rfl
  | cons seg rest ih =>
      rw [deliverTo] at h
      split at h
      · exact ih h
      · cases h

end

/-! ## Errors -/

/-- `Remote.Read` returns `r'` where the source's `Read` returned `r`. -/
structure ReadRelays (canceled : Bool) (r r' : Option CallError) : Prop where
  success : r' = none ↔ r = none
  sentinel : canceled = false → ∀ err, err = .unrecognizedStream ∨ err = .offsetOutOfRange →
    r = some err → r' = some err
  canceled : canceled = true → r ≠ none → r' = some .canceled

/-- `Remote.Watch` returns `r'` where the source's `Watch` returned `r`. -/
structure WatchRelays (canceled : Bool) (r r' : Option CallError) : Prop where
  error : r' ≠ none
  tooSlow : canceled = false → r = some .consumerTooSlow → r' = some .consumerTooSlow
  canceled : canceled = true → r' = some .canceled

theorem CallError.code_ne_ok (err : CallError) : err.code ≠ .ok := by
  cases err with
  | other code => cases code <;> nofun
  | _ => nofun

theorem readStatus_eq_ok {r : Option CallError} : readStatus r = .ok ↔ r = none := by
  cases r with
  | none => exact ⟨fun _ => rfl, fun _ => rfl⟩
  | some err =>
      refine ⟨fun h => absurd h ?_, nofun⟩
      cases err with
      | unrecognizedStream => nofun
      | offsetOutOfRange => nofun
      | consumerTooSlow => nofun
      | unsupported => nofun
      | invalidSegment fault => nofun
      | canceled => nofun
      | other code => exact CallError.code_ne_ok (.other code)

theorem readError_eq_none {canceled : Bool} {code : Code} :
    readError canceled code = none ↔ code = .ok := by
  cases canceled <;> cases code <;> simp [readError]

theorem readRelays (canceled : Bool) (r : Option CallError) :
    ReadRelays canceled r (readError canceled (readStatus r)) where
  success := readError_eq_none.trans readStatus_eq_ok
  sentinel := by rintro rfl err (rfl | rfl) rfl <;> rfl
  canceled := by
    rintro rfl hne
    have hstatus : readStatus r ≠ .ok := fun h => hne (readStatus_eq_ok.mp h)
    revert hstatus
    cases readStatus r <;> simp [readError]

theorem watchRelays (canceled : Bool) (r : Option CallError) :
    WatchRelays canceled r (watchError canceled (watchStatus r)) where
  error := by cases canceled <;> cases watchStatus r <;> nofun
  tooSlow := by
    rintro rfl rfl
    rfl
  canceled := by
    rintro rfl
    cases watchStatus r <;> rfl

theorem readError_ne_invalidSegment {canceled : Bool} {code : Code} {fault : SegmentFault} :
    readError canceled code ≠ some (.invalidSegment fault) := by
  cases canceled <;> cases code <;> nofun

theorem watchError_ne_invalidSegment {canceled : Bool} {code : Code} {fault : SegmentFault} :
    watchError canceled code ≠ some (.invalidSegment fault) := by
  cases canceled <;> cases code <;> nofun

/-! ## The filter -/

/-- The server asks the source for the types that the client asked for. -/
theorem requestedTypes_messageFilter {filter : MessageFilter} (htypes : types ≠ some ∅)
    (hids : ∀ ids, types = some ids → ∀ id ∈ ids, pb.validUUID id = true)
    (hfilter : MessageFilter.For types filter) : requestedTypes pb filter = some types := by
  cases types with
  | none =>
      cases hfilter
      rw [requestedTypes, if_pos pb.validFilter_all]
  | some ids =>
      obtain ⟨list, rfl, rfl⟩ := hfilter
      have hne : list ≠ [] := by
        rintro rfl
        exact htypes rfl
      have hvalid : pb.validFilter (.specific list) = true := by
        apply pb.validFilter_specific list hne
        intro id hid
        exact hids _ rfl id (List.mem_toFinset.mpr hid)
      rw [requestedTypes, if_pos hvalid]

theorem exists_messageFilter (types : TypeFilter) :
    ∃ filter, MessageFilter.For types filter := by
  cases types with
  | none => exact ⟨_, rfl⟩
  | some ids => exact ⟨_, ids.toList, rfl, Finset.toList_toFinset ids⟩

/-! ## The remote source -/

/-- A call passes the parts to the consumer and returns as `relay` says, given how the
source has returned.  It may not have received all of the parts yet, or it may have
been canceled. -/
def Relays (canceled : Bool) (relay : Option CallError → Option CallError → Prop)
    (fn : List Segment → Bool) (parts : List Segment) (result : CallResult)
    (outcome : List Segment × Return) : Prop :=
  ∃ received result', received <+: parts ∧ outcome = deliverTo fn result' [] received ∧
    (result' = none ∨ received = parts ∧ Option.Rel relay result result' ∨
      canceled = true ∧ result' = some (some .canceled))

section

variable {server : Server} {fn : List Segment → Bool} {canceled : Bool}
  {segs : List Segment} {res received : List (EventStreamSegment pb)}
  {status receivedStatus : Option Code} {outcome : List Segment × Return}

theorem Received.isPrefix (h : Received canceled res status received receivedStatus) :
    received <+: res := by
  cases h with
  | waiting hreceived => exact hreceived
  | ended => exact List.prefix_rfl
  | canceled hreceived _ => exact hreceived

/-- What has been received is relayed. -/
theorem Received.relays {code : Option CallError → Code} {error : Code → Option CallError}
    {relay : Option CallError → Option CallError → Prop} {result : CallResult}
    (h : Received canceled res (result.map code) received receivedStatus)
    (hrelay : ∀ r, relay r (error (code r)))
    (hcanceled : canceled = true → error .canceled = some .canceled) :
    Relays canceled relay fn (res.map EventStreamSegment.segment) result
      (deliverTo fn (receivedStatus.map error) []
        (received.map EventStreamSegment.segment)) := by
  refine ⟨_, _, h.isPrefix.map _, rfl, ?_⟩
  cases h with
  | waiting _ => exact Or.inl rfl
  | ended =>
      refine Or.inr (Or.inl ⟨rfl, ?_⟩)
      cases result with
      | none => exact .none
      | some r => exact .some (hrelay r)
  | canceled _ hc => exact Or.inr (Or.inr ⟨hc, by rw [Option.map_some, hcanceled hc]⟩)

/-- A relayed call never reports an invalid segment if none of its errors is one. -/
theorem deliverTo_ne_invalidSegment {error : Code → Option CallError} {parts : List Segment}
    {fault : SegmentFault} (herror : ∀ code, error code ≠ some (.invalidSegment fault)) :
    (deliverTo fn (receivedStatus.map error) [] parts).2 ≠
      .ended (some (some (.invalidSegment fault))) := by
  intro h
  have hresult := deliverTo_ended h
  cases receivedStatus with
  | none => cases hresult
  | some code => exact herror code (Option.some.inj hresult).symm

/-- The messages of a call of `Source.Read`. -/
theorem Source.Meets.read_parts (hsource : server.eventStreams.Meets pb logs)
    (hid : pb.validUUID streamID = true) {result : CallResult}
    (hread : server.eventStreams.read streamID types begin segs result) :
    Splits begin (reach Segment.end_ begin segs) (segs.flatMap Segment.envelopes)
        (partsOf pb server.maxSegmentBytes segs) ∧
      ∀ r ∈ segs.flatMap (splitSegment pb server.maxSegmentBytes),
        r.eventStreamID = streamID ∧ r.Sound logs types := by
  obtain ⟨hcontiguous, hsegs⟩ := hsource.read streamID types begin segs result hread
  have hsplit : ∀ seg ∈ segs,
      Splits seg.begin seg.end_ seg.envelopes
          ((splitSegment pb server.maxSegmentBytes seg).map EventStreamSegment.segment) ∧
        ∀ r ∈ splitSegment pb server.maxSegmentBytes seg,
          r.eventStreamID = streamID ∧ r.Sound logs types := by
    intro seg hseg
    obtain ⟨hstream, hof⟩ := hsegs seg hseg
    subst hstream
    exact splitSegment_splits _ hid hof (hsource.events _)
  refine ⟨partsOf_splits hcontiguous fun seg hseg => (hsplit seg hseg).1, ?_⟩
  intro r hr
  obtain ⟨seg, hseg, hr⟩ := List.mem_flatMap.mp hr
  exact (hsplit seg hseg).2 r hr

/-- The messages of a call of `Source.Watch`. -/
theorem Source.Meets.watch_parts (hsource : server.eventStreams.Meets pb logs)
    {result : CallResult} (hwatch : server.eventStreams.watch types segs result) :
    (∀ id, ∃ begin,
      Splits begin (reach Segment.end_ begin (segmentsOf id segs))
          ((segmentsOf id segs).flatMap Segment.envelopes)
          (segmentsOf id (partsOf pb server.maxSegmentBytes segs)) ∧
        Contiguous Segment.begin Segment.end_ begin (segmentsOf id segs)) ∧
      ∀ r ∈ segs.flatMap (splitSegment pb server.maxSegmentBytes), r.Sound logs types := by
  obtain ⟨hcontiguous, hsegs⟩ := hsource.watch types segs result hwatch
  have hsplit := fun seg hseg =>
    splitSegment_splits server.maxSegmentBytes (hsegs seg hseg).1 (hsegs seg hseg).2
      (hsource.events _)
  refine ⟨?_, ?_⟩
  · intro id
    obtain ⟨begin, hbegin⟩ := hcontiguous id
    refine ⟨begin, ?_, hbegin⟩
    rw [segmentsOf_partsOf]
    exact partsOf_splits hbegin fun seg hseg => (hsplit seg (mem_segmentsOf.mp hseg).1).1
  · intro r hr
    obtain ⟨seg, hseg, hr⟩ := List.mem_flatMap.mp hr
    exact ((hsplit seg hseg).2 r hr).2

/-- `Remote.Read` relays what it has received. -/
theorem readLoop_relays (hsource : server.eventStreams.Meets pb logs)
    (hid : pb.validUUID streamID = true) {result : CallResult}
    (hread : server.eventStreams.read streamID types begin segs result)
    (hreceived : received <+: segs.flatMap (splitSegment pb server.maxSegmentBytes)) :
    readLoop pb streamID types fn canceled receivedStatus begin true [] received =
      deliverTo fn (receivedStatus.map (readError canceled)) []
        (received.map EventStreamSegment.segment) := by
  obtain ⟨hsplits, hsound⟩ := hsource.read_parts hid hread
  obtain ⟨rest, hrest⟩ := hreceived
  have hmem : ∀ r ∈ received, r ∈ segs.flatMap (splitSegment pb server.maxSegmentBytes) := by
    intro r hr
    rw [← hrest]
    exact List.mem_append_left _ hr
  have hcontiguous := hsplits.contiguous
  rw [partsOf, ← hrest, List.map_append, contiguous_append] at hcontiguous
  exact readLoop_eq (fun r hr => (hsound r (hmem r hr)).2) (fun r hr => (hsound r (hmem r hr)).1)
    hcontiguous.1

/-- `Remote.Watch` relays what it has received. -/
theorem watchLoop_relays (hsource : server.eventStreams.Meets pb logs) {result : CallResult}
    (hwatch : server.eventStreams.watch types segs result)
    (hreceived : received <+: segs.flatMap (splitSegment pb server.maxSegmentBytes)) :
    watchLoop pb types fn canceled receivedStatus (fun _ => none) [] received =
      deliverTo fn (receivedStatus.map (watchError canceled)) []
        (received.map EventStreamSegment.segment) := by
  obtain ⟨hsplits, hsound⟩ := hsource.watch_parts hwatch
  obtain ⟨rest, hrest⟩ := hreceived
  have hall : ∀ r ∈ received, r.Sound logs types := by
    intro r hr
    apply hsound
    rw [← hrest]
    exact List.mem_append_left _ hr
  apply watchLoop_eq hall
  intro id
  obtain ⟨begin, hparts, -⟩ := hsplits id
  have hcontiguous := hparts.contiguous
  rw [partsOf, ← hrest, List.map_append, segmentsOf_append, contiguous_append] at hcontiguous
  exact ⟨begin, hcontiguous.1⟩

end

/-- A remote source behaves as the source that the server offers, up to splitting segments.

What `Remote.Read` and `Remote.Watch` may do is what the source may do: they pass the
same range and the same events to the consumer, stream by stream, and return the
errors of the source.  They never report an invalid segment.  And whatever the source
may do, they may do. -/
theorem remote_behaves_as_source {pb : Protobuf} {logs : UUID → EventLog} {server : Server}
    (hsource : server.eventStreams.Meets pb logs) {types : TypeFilter} (htypes : types ≠ some ∅)
    (hids : ∀ ids, types = some ids → ∀ id ∈ ids, pb.validUUID id = true)
    (fn : List Segment → Bool) (canceled : Bool) :
    (∀ streamID begin, pb.validUUID streamID = true →
      (∀ outcome, Remote.Reads pb server streamID types begin fn canceled outcome →
        (∀ fault, outcome.2 ≠ .ended (some (some (.invalidSegment fault)))) ∧
          ∃ segs result parts, server.eventStreams.read streamID types begin segs result ∧
            Splits begin (reach Segment.end_ begin segs) (segs.flatMap Segment.envelopes) parts ∧
            (∀ part ∈ parts, part.streamID = streamID) ∧
            Relays canceled (ReadRelays canceled) fn parts result outcome) ∧
        ∀ segs result, server.eventStreams.read streamID types begin segs result →
          ∃ parts result',
            Splits begin (reach Segment.end_ begin segs) (segs.flatMap Segment.envelopes) parts ∧
            Option.Rel (ReadRelays canceled) result result' ∧
            Remote.Reads pb server streamID types begin fn canceled
              (deliverTo fn result' [] parts)) ∧
      (∀ outcome, Remote.Watches pb server types fn canceled outcome →
        (∀ fault, outcome.2 ≠ .ended (some (some (.invalidSegment fault)))) ∧
          ∃ segs result parts, server.eventStreams.watch types segs result ∧
            (∀ id, ∃ begin,
              Splits begin (reach Segment.end_ begin (segmentsOf id segs))
                ((segmentsOf id segs).flatMap Segment.envelopes) (segmentsOf id parts) ∧
              Contiguous Segment.begin Segment.end_ begin (segmentsOf id segs)) ∧
            Relays canceled (WatchRelays canceled) fn parts result outcome) ∧
      ∀ segs result, server.eventStreams.watch types segs result →
        ∃ parts result',
          (∀ id, ∃ begin,
            Splits begin (reach Segment.end_ begin (segmentsOf id segs))
              ((segmentsOf id segs).flatMap Segment.envelopes) (segmentsOf id parts) ∧
            Contiguous Segment.begin Segment.end_ begin (segmentsOf id segs)) ∧
          Option.Rel (WatchRelays canceled) result result' ∧
          Remote.Watches pb server types fn canceled (deliverTo fn result' [] parts) := by
  refine ⟨?_, ?_, ?_⟩
  · intro streamID begin hid
    refine ⟨?_, ?_⟩
    · rintro _ ⟨filter, res, status, received, receivedStatus, hfilter, hserver, hreceived, rfl⟩
      have hrequested := requestedTypes_messageFilter htypes hids hfilter
      cases hserver with
      | invalidStreamID hinvalid =>
          rw [hid] at hinvalid
          cases hinvalid
      | invalidFilter _ hinvalid =>
          rw [hrequested] at hinvalid
          cases hinvalid
      | @read types' segs result _ hrequested' hread =>
          rw [hrequested] at hrequested'
          cases hrequested'
          obtain ⟨hsplits, hsound⟩ := hsource.read_parts hid hread
          rw [readLoop_relays hsource hid hread hreceived.isPrefix]
          refine ⟨fun fault => deliverTo_ne_invalidSegment fun _ => readError_ne_invalidSegment,
            segs, result, _, hread, hsplits, ?_, hreceived.relays (readRelays canceled) ?_⟩
          · intro part hpart
            obtain ⟨r, hr, rfl⟩ := List.mem_map.mp hpart
            exact (hsound r hr).1
          · rintro rfl
            rfl
    · intro segs result hread
      obtain ⟨filter, hfilter⟩ := exists_messageFilter types
      refine ⟨_, (result.map readStatus).map (readError canceled),
        (hsource.read_parts hid hread).1, ?_, filter, _, _, _, _, hfilter,
        .read hid (requestedTypes_messageFilter htypes hids hfilter) hread, .ended, ?_⟩
      · cases result with
        | none => exact .none
        | some r => exact .some (readRelays canceled r)
      · exact (readLoop_relays hsource hid hread List.prefix_rfl).symm
  · rintro _ ⟨filter, res, status, received, receivedStatus, hfilter, hserver, hreceived, rfl⟩
    have hrequested := requestedTypes_messageFilter htypes hids hfilter
    cases hserver with
    | invalidFilter hinvalid =>
        rw [hrequested] at hinvalid
        cases hinvalid
    | @watch types' segs result hrequested' hwatch =>
        rw [hrequested] at hrequested'
        cases hrequested'
        rw [watchLoop_relays hsource hwatch hreceived.isPrefix]
        refine ⟨fun fault => deliverTo_ne_invalidSegment fun _ => watchError_ne_invalidSegment,
          segs, result, _, hwatch, (hsource.watch_parts hwatch).1,
          hreceived.relays (watchRelays canceled) ?_⟩
        rintro rfl
        rfl
  · intro segs result hwatch
    obtain ⟨filter, hfilter⟩ := exists_messageFilter types
    refine ⟨_, (result.map watchStatus).map (watchError canceled),
      (hsource.watch_parts hwatch).1, ?_, filter, _, _, _, _, hfilter,
      .watch (requestedTypes_messageFilter htypes hids hfilter) hwatch, .ended, ?_⟩
    · cases result with
      | none => exact .none
      | some r => exact .some (watchRelays canceled r)
    · exact (watchLoop_relays hsource hwatch List.prefix_rfl).symm

/-- A source of `twoEvents`.  Whoever watches it is too slow. -/
def twoEventsSource : Source where
  read streamID types begin segs result :=
    streamID = uuid 100 ∧ types = none ∧ begin = 0 ∧
      segs = [⟨uuid 100, 0, 2, twoEvents.entries⟩] ∧ result = some none
  watch types segs result :=
    types = none ∧ segs = [⟨uuid 100, 0, 2, twoEvents.entries⟩] ∧
      result = some (some .consumerTooSlow)

theorem twoEventsSource_meets :
    twoEventsSource.Meets sharedHeaders
      fun id => if id = uuid 100 then twoEvents else Log.empty Envelope Envelope.offset where
  read := by
    rintro streamID types begin segs result ⟨rfl, rfl, rfl, rfl, rfl⟩
    refine ⟨⟨rfl, Nat.zero_le _, trivial⟩, ?_⟩
    intro seg hseg
    cases List.mem_singleton.mp hseg
    exact ⟨rfl, Nat.zero_le _, le_rfl, by decide⟩
  watch := by
    rintro types segs result ⟨rfl, rfl, rfl⟩
    refine ⟨?_, ?_⟩
    · intro id
      refine ⟨0, ?_⟩
      by_cases hid : uuid 100 = id
      · subst hid
        exact ⟨rfl, Nat.zero_le _, trivial⟩
      · rw [segmentsOf, List.filter_cons_of_neg (by simpa using hid)]
        trivial
    · intro seg hseg
      cases List.mem_singleton.mp hseg
      exact ⟨rfl, Nat.zero_le _, le_rfl, by decide⟩
  events := by
    intro id env henv
    refine ⟨rfl, ?_⟩
    by_cases hid : id = uuid 100
    · subst hid
      rw [if_pos rfl] at henv
      obtain rfl | henv := List.mem_cons.mp henv
      · exact ⟨0, rfl⟩
      · cases List.mem_singleton.mp henv
        exact ⟨1, rfl⟩
    · rw [if_neg hid] at henv
      cases henv

/-- The server sends the two events in messages of their own. -/
theorem remote_behaves_as_source_split :
    (splitSegment sharedHeaders 1 ⟨uuid 100, 0, 2, twoEvents.entries⟩).length = 2 ∧
      ∃ parts, Splits 0 2 twoEvents.entries parts ∧
        Remote.Reads sharedHeaders ⟨twoEventsSource, 1, Nat.one_pos⟩ (uuid 100) none 0
          (fun _ => true) false (deliverTo (fun _ => true) (some none) [] parts) := by
  refine ⟨by decide, ?_⟩
  have h := @remote_behaves_as_source sharedHeaders _ ⟨twoEventsSource, 1, Nat.one_pos⟩
    twoEventsSource_meets none nofun nofun (fun _ => true) false
  obtain ⟨parts, result', hsplits, hresult, hreads⟩ :=
    (h.1 (uuid 100) 0 rfl).2 _ _ ⟨rfl, rfl, rfl, rfl, rfl⟩
  refine ⟨parts, hsplits, ?_⟩
  cases hresult with
  | some hrelays =>
      rwa [hrelays.success.mpr rfl] at hreads

end Runkit.EventStream
