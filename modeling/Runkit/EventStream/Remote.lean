/-
  EventStream/Remote.lean --- the streams of another engine.

  Source: internal/eventstream/source/server.go, remote.go, source.go.

  `Server` offers the streams of a source to other engines, and `Remote` is the source
  of the streams that such a server offers.  A source is known by what its calls may
  do: the segments that they pass to a consumer, and how they return (`Source`).

  The protocol-buffers packages are not part of the program.  What it uses of them,
  and what it relies on, is in `Protobuf`.  gRPC is assumed to deliver the messages of
  a call in order and without loss, followed by the status with which the call ends.
-/
import Runkit.EventStream.Segment

set_option autoImplicit false

namespace Runkit.EventStream

open Runkit.Foundation

/-! ## Messages -/

/-- `messaginggrpc.MessageFilter`. -/
inductive MessageFilter where
  | unset
  | all
  | specific (ids : List UUID)
  deriving DecidableEq, Repr

/-- The packages `envelopepb`, `uuidpb`, `messaginggrpc` and `proto`, as far as they are used
here. -/
structure Protobuf where
  /-- `MultiEnvelope`. -/
  Multi : Type
  asMultiEnvelope : Envelope → Multi
  /-- The multi-envelope with the envelope appended to it, unless that is not possible. -/
  tryAppendEnvelope : Multi → Envelope → Option Multi
  all : Multi → List Envelope
  validMulti : Multi → Bool
  validEnvelope : Envelope → Bool
  /-- Whether an envelope that has no position has an extension in its place that cannot be
  decoded. -/
  invalidPosition : Envelope → Bool
  validUUID : UUID → Bool
  /-- `MessageFilter.Validate`. -/
  validFilter : MessageFilter → Bool
  headerSize : Header → Nat
  bodySize : Body → Nat
  all_asMultiEnvelope : ∀ env, all (asMultiEnvelope env) = [env]
  all_tryAppendEnvelope : ∀ multi env multi', tryAppendEnvelope multi env = some multi' →
    all multi' = all multi ++ [env]
  valid_asMultiEnvelope : ∀ env, validEnvelope env = true →
    validMulti (asMultiEnvelope env) = true
  valid_tryAppendEnvelope : ∀ multi env multi', validMulti multi = true →
    validEnvelope env = true → tryAppendEnvelope multi env = some multi' →
    validMulti multi' = true
  /-- A filter for every type is valid. -/
  validFilter_all : validFilter .all = true
  /-- A filter for some types is valid if every type ID is; nothing is assumed of the filter
  for no type. -/
  validFilter_specific : ∀ ids, ids ≠ [] → (∀ id ∈ ids, validUUID id = true) →
    validFilter (.specific ids) = true

/-- `messaginggrpc.EventStreamSegment`. -/
structure EventStreamSegment (pb : Protobuf) where
  eventStreamID : UUID
  beginOffset : Nat
  endOffset : Nat
  envelopes : List pb.Multi

/-- The segment that the message stands for. -/
def EventStreamSegment.segment {pb : Protobuf}
    (res : EventStreamSegment pb) : Segment where
  streamID := res.eventStreamID
  begin := res.beginOffset
  end_ := res.endOffset
  envelopes := res.envelopes.flatMap pb.all

/-- `messaginggrpc.ReadEventsRequest`. -/
structure ReadEventsRequest where
  eventStreamID : UUID
  beginOffset : Nat
  filter : MessageFilter

/-- The codes of gRPC that are told apart. -/
inductive Code where
  | ok
  | canceled
  | unknown
  | invalidArgument
  | notFound
  | aborted
  | outOfRange
  | unimplemented
  deriving DecidableEq, Repr

/-! ## Sources -/

/-- Why a segment that another engine sent is invalid. -/
inductive SegmentFault where
  | invalidStreamID
  | endsBeforeBegins
  /-- The multi-envelope at the index is invalid. -/
  | invalidEnvelope (index : Nat)
  | invalidPosition (messageID : UUID)
  | noPosition (messageID : UUID)
  | otherStream (messageID streamID : UUID)
  | beforeBegin (messageID : UUID) (offset : Nat)
  | beyondEnd (messageID : UUID) (offset : Nat)
  | notFollowing (messageID : UUID) (offset previous : Nat)
  | typeNotRequested (messageID typeID : UUID)
  | streamNotRequested (streamID : UUID)
  /-- It does not begin at the offset that was requested or, if it is not the first one,
  where the previous segment ended. -/
  | notContiguous (offset : Nat) (first : Bool)
  deriving DecidableEq, Repr

/-- The errors of the calls of a source, as far as they are told apart. -/
inductive CallError where
  | unrecognizedStream
  | offsetOutOfRange
  | consumerTooSlow
  | unsupported
  | invalidSegment (fault : SegmentFault)
  /-- The error of the call's context. -/
  | canceled
  /-- Any other error, with the status code that gRPC takes it for. -/
  | other (code : Code)
  deriving DecidableEq, Repr

/-- How a call has returned, if it has: with `none` if there is no error. -/
abbrev CallResult := Option (Option CallError)

/-- What the calls of a `Source` may do, when the consumer accepts every segment. -/
structure Source where
  /-- `read streamID types begin segs result`: the call has passed the segments to the
  consumer, in this order, and has returned the result, if it has returned. -/
  read : UUID → TypeFilter → Nat → List Segment → CallResult → Prop
  /-- `watch types segs result`, likewise. -/
  watch : TypeFilter → List Segment → CallResult → Prop

/-- The contract of `Source`, given the streams. -/
structure Source.Meets (pb : Protobuf) (logs : UUID → EventLog) (source : Source) : Prop where
  read : ∀ streamID types begin segs result, source.read streamID types begin segs result →
    Contiguous Segment.begin Segment.end_ begin segs ∧
      ∀ seg ∈ segs, seg.streamID = streamID ∧ seg.Of (logs streamID) types
  watch : ∀ types segs result, source.watch types segs result →
    (∀ id, ∃ begin, Contiguous Segment.begin Segment.end_ begin (segmentsOf id segs)) ∧
      ∀ seg ∈ segs, pb.validUUID seg.streamID = true ∧ seg.Of (logs seg.streamID) types
  /-- Events are valid, and say where they are. -/
  events : ∀ id, ∀ env ∈ (logs id).entries,
    pb.validEnvelope env = true ∧ ∃ offset, env.body.position = some ⟨id, offset⟩

/-- How a call returns to a consumer that may reject segments. -/
inductive Return where
  /-- With the consumer's error. -/
  | rejected
  | ended (result : CallResult)
  deriving DecidableEq, Repr

/-- What a call that passes the segments to the consumer does, when `fn` says whether it
accepts the last of the segments that it has been passed.  `passed` are those that it
has been passed so far. -/
def deliverTo (fn : List Segment → Bool) (result : CallResult) :
    List Segment → List Segment → List Segment × Return
  | passed, [] => (passed, .ended result)
  | passed, seg :: rest =>
      if fn (passed ++ [seg]) then deliverTo fn result (passed ++ [seg]) rest
      else (passed ++ [seg], .rejected)

/-! ## The server -/

/-- `Server`. -/
structure Server where
  eventStreams : Source
  maxSegmentBytes : Nat
  positive : 0 < maxSegmentBytes

/-- The part of a segment that `splitSegment` is building. -/
structure Splitting (pb : Protobuf) where
  beginOffset : Nat
  /-- The multi-envelopes that are complete. -/
  front : List pb.Multi
  /-- The multi-envelope that the next event may be appended to. -/
  multi : Option pb.Multi
  size : Nat

namespace Splitting

variable {pb : Protobuf}

/-- A part without events. -/
def start (beginOffset : Nat) : Splitting pb where
  beginOffset := beginOffset
  front := []
  multi := none
  size := 0

def envelopes (st : Splitting pb) : List pb.Multi := st.front ++ st.multi.toList

/-- The part, once its end is known. -/
def message (st : Splitting pb) (streamID : UUID) (endOffset : Nat) : EventStreamSegment pb where
  eventStreamID := streamID
  beginOffset := st.beginOffset
  endOffset := endOffset
  envelopes := st.envelopes

/-- Add an event to the part. -/
def add (st : Splitting pb) (env : Envelope) : Splitting pb :=
  match st.multi.bind (pb.tryAppendEnvelope · env) with
  | some multi =>
      { st with
        multi := some multi
        size := st.size + pb.bodySize env.body }
  | none =>
      { st with
        front := st.envelopes
        multi := some (pb.asMultiEnvelope env)
        size := st.size + pb.headerSize env.header + pb.bodySize env.body }

/-- The event does not fit into the part. -/
def exceeds (st : Splitting pb) (maxBytes : Nat) (env : Envelope) : Bool :=
  decide (0 < st.size) &&
    decide (maxBytes < st.size + pb.headerSize env.header + pb.bodySize env.body)

end Splitting

/-- The loop of `splitSegment`. -/
def splitLoop (pb : Protobuf) (maxBytes : Nat) (streamID : UUID) (end_ : Nat) :
    Splitting pb → List Envelope → List (EventStreamSegment pb)
  | st, [] => [st.message streamID end_]
  | st, env :: rest =>
      if st.exceeds maxBytes env then
        st.message streamID env.offset ::
          splitLoop pb maxBytes streamID end_ ((Splitting.start env.offset).add env) rest
      else splitLoop pb maxBytes streamID end_ (st.add env) rest

/-- `splitSegment`. -/
def splitSegment (pb : Protobuf) (maxBytes : Nat) (seg : Segment) :
    List (EventStreamSegment pb) :=
  splitLoop pb maxBytes seg.streamID seg.end_ (.start seg.begin) seg.envelopes

/-- `requestedTypes`, without a value if the filter is invalid. -/
def requestedTypes (pb : Protobuf) (filter : MessageFilter) : Option TypeFilter :=
  if pb.validFilter filter then
    match filter with
    | .all => some none
    | .specific ids => some (some ids.toFinset)
    -- `GetSpecific` is nil, and has no IDs.
    | .unset => some (some ∅)
  else none

/-- The code for an error that the server returns as it is. -/
def CallError.code : CallError → Code
  | .canceled => .canceled
  | .other .ok => .unknown
  | .other code => code
  | _ => .unknown

/-- The status with which `Server.ReadEvents` ends, given how `Source.Read` returned. -/
def readStatus : Option CallError → Code
  | none => .ok
  | some .unrecognizedStream => .notFound
  | some .offsetOutOfRange => .outOfRange
  | some err => err.code

/-- The status with which `Server.WatchEvents` ends, given how `Source.Watch` returned. -/
def watchStatus : Option CallError → Code
  | none => .ok
  | some .consumerTooSlow => .aborted
  | some err => err.code

/-- The messages that `Server.ReadEvents` has sent, and the status if it has ended. -/
inductive Server.ReadEvents (pb : Protobuf) (server : Server) (req : ReadEventsRequest) :
    List (EventStreamSegment pb) → Option Code → Prop where
  | invalidStreamID (hid : pb.validUUID req.eventStreamID = false) :
      ReadEvents pb server req [] (some .invalidArgument)
  | invalidFilter (hid : pb.validUUID req.eventStreamID = true)
      (hfilter : requestedTypes pb req.filter = none) :
      ReadEvents pb server req [] (some .invalidArgument)
  | read {types : TypeFilter} {segs : List Segment} {result : CallResult}
      (hid : pb.validUUID req.eventStreamID = true)
      (hfilter : requestedTypes pb req.filter = some types)
      (hread : server.eventStreams.read req.eventStreamID types req.beginOffset segs result) :
      ReadEvents pb server req (segs.flatMap (splitSegment pb server.maxSegmentBytes))
        (result.map readStatus)

/-- The messages that `Server.WatchEvents` has sent, and the status if it has ended.  The
source may call the server for several streams at the same time; a mutex orders the
segments. -/
inductive Server.WatchEvents (pb : Protobuf) (server : Server) (filter : MessageFilter) :
    List (EventStreamSegment pb) → Option Code → Prop where
  | invalidFilter (hfilter : requestedTypes pb filter = none) :
      WatchEvents pb server filter [] (some .invalidArgument)
  | watch {types : TypeFilter} {segs : List Segment} {result : CallResult}
      (hfilter : requestedTypes pb filter = some types)
      (hwatch : server.eventStreams.watch types segs result) :
      WatchEvents pb server filter (segs.flatMap (splitSegment pb server.maxSegmentBytes))
        (result.map watchStatus)

/-! ## The client -/

/-- `messageFilter`.  The IDs of a set are in any order. -/
def MessageFilter.For : TypeFilter → MessageFilter → Prop
  | none, filter => filter = .all
  | some ids, filter => ∃ list, filter = .specific list ∧ list.toFinset = ids

/-- The arithmetic that is done on offsets. -/
structure OffsetArith where
  /-- The offset plus one. -/
  succ : Nat → Nat
  /-- The offset minus one. -/
  pred : Nat → Nat

def OffsetArith.exact : OffsetArith where
  succ offset := offset + 1
  pred offset := offset - 1

/-- The arithmetic of `uint64`. -/
def OffsetArith.uint64 : OffsetArith where
  succ offset := (offset + 1) % 2 ^ 64
  pred offset := (offset + 2 ^ 64 - 1) % 2 ^ 64

section

variable (arith : OffsetArith) (pb : Protobuf)

/-- The checks of `parseSegment` on one event.  `next` is the lowest offset that the event
may have.  It returns the event's offset. -/
def parseEvent (types : TypeFilter) (streamID : UUID) (begin end_ next : Nat)
    (env : Envelope) : Except SegmentFault Nat :=
  match env.body.position with
  | none =>
      if pb.invalidPosition env then .error (.invalidPosition env.body.messageID)
      else .error (.noPosition env.body.messageID)
  | some pos =>
      if pos.streamID ≠ streamID then .error (.otherStream env.body.messageID pos.streamID)
      else if pos.offset < begin then .error (.beforeBegin env.body.messageID pos.offset)
      else if pos.offset ≥ end_ then .error (.beyondEnd env.body.messageID pos.offset)
      else if pos.offset < next then
        .error (.notFollowing env.body.messageID pos.offset (arith.pred next))
      else if types.has env.typeID = false then
        .error (.typeNotRequested env.body.messageID env.typeID)
      else .ok pos.offset

/-- The loop of `parseSegment` over the events of one multi-envelope.  The state is the
events so far, and `next`. -/
def parseEvents (types : TypeFilter) (streamID : UUID) (begin end_ : Nat) :
    List Envelope × Nat → List Envelope → Except SegmentFault (List Envelope × Nat)
  | st, [] => .ok st
  | (envelopes, next), env :: rest =>
      match parseEvent arith pb types streamID begin end_ next env with
      | .error fault => .error fault
      | .ok offset =>
          parseEvents types streamID begin end_ (envelopes ++ [env], arith.succ offset) rest

/-- The loop of `parseSegment` over the multi-envelopes, from the given index. -/
def parseMultis (types : TypeFilter) (streamID : UUID) (begin end_ : Nat) :
    Nat → List Envelope × Nat → List pb.Multi → Except SegmentFault (List Envelope)
  | _, (envelopes, _), [] => .ok envelopes
  | index, st, multi :: rest =>
      if pb.validMulti multi = false then .error (.invalidEnvelope index)
      else
        match parseEvents arith pb types streamID begin end_ st (pb.all multi) with
        | .error fault => .error fault
        | .ok st => parseMultis types streamID begin end_ (index + 1) st rest

/-- `parseSegment`, with the given arithmetic. -/
def parseSegmentWith (res : EventStreamSegment pb) (types : TypeFilter) :
    Except SegmentFault Segment :=
  if pb.validUUID res.eventStreamID = false then .error .invalidStreamID
  else if res.endOffset < res.beginOffset then .error .endsBeforeBegins
  else
    match parseMultis arith pb types res.eventStreamID res.beginOffset res.endOffset 0
        ([], res.beginOffset) res.envelopes with
    | .error fault => .error fault
    | .ok envelopes =>
        .ok
          { streamID := res.eventStreamID
            begin := res.beginOffset
            end_ := res.endOffset
            envelopes := envelopes }

/-- `parseSegment`.  Offsets are natural numbers here; that the sums of the source do not
wrap around is `parseSegmentWith_uint64`. -/
def parseSegment (res : EventStreamSegment pb) (types : TypeFilter) :
    Except SegmentFault Segment :=
  parseSegmentWith .exact pb res types

end

/-- `readError`, for a call that has ended with the given status.  The end of the messages
is not an error. -/
def readError (canceled : Bool) (code : Code) : Option CallError :=
  if code = .ok then none
  else if canceled then some .canceled
  else
    match code with
    | .notFound => some .unrecognizedStream
    | .outOfRange => some .offsetOutOfRange
    | code => some (.other code)

/-- `watchError`, for a call that has ended with the given status. -/
def watchError (canceled : Bool) (code : Code) : Option CallError :=
  if canceled then some .canceled
  else
    match code with
    | .ok => some (.other .unknown)
    | .aborted => some .consumerTooSlow
    | .unimplemented => some .unsupported
    | code => some (.other code)

/-- The loop of `Remote.Read` over the messages that it receives.  There is no status as
long as the call has not ended. -/
def readLoop (pb : Protobuf) (streamID : UUID) (types : TypeFilter)
    (fn : List Segment → Bool) (canceled : Bool) (status : Option Code) :
    Nat → Bool → List Segment → List (EventStreamSegment pb) → List Segment × Return
  | _, _, passed, [] => (passed, .ended (status.map (readError canceled)))
  | begin, first, passed, res :: rest =>
      match parseSegment pb res types with
      | .error fault => (passed, .ended (some (some (.invalidSegment fault))))
      | .ok seg =>
          if seg.streamID ≠ streamID then
            (passed, .ended (some (some (.invalidSegment (.streamNotRequested streamID)))))
          else if seg.begin ≠ begin then
            (passed, .ended (some (some (.invalidSegment (.notContiguous begin first)))))
          else if fn (passed ++ [seg]) then
            readLoop pb streamID types fn canceled status seg.end_ false (passed ++ [seg]) rest
          else (passed ++ [seg], .rejected)

/-- The loop of `Remote.Watch` over the messages that it receives. -/
def watchLoop (pb : Protobuf) (types : TypeFilter) (fn : List Segment → Bool)
    (canceled : Bool) (status : Option Code) :
    (UUID → Option Nat) → List Segment → List (EventStreamSegment pb) → List Segment × Return
  | _, passed, [] => (passed, .ended (status.map (watchError canceled)))
  | ends, passed, res :: rest =>
      match parseSegment pb res types with
      | .error fault => (passed, .ended (some (some (.invalidSegment fault))))
      | .ok seg =>
          match (ends seg.streamID).filter fun end_ => decide (seg.begin ≠ end_) with
          | some end_ =>
              (passed, .ended (some (some (.invalidSegment (.notContiguous end_ false)))))
          | none =>
              if fn (passed ++ [seg]) then
                watchLoop pb types fn canceled status
                  (Function.update ends seg.streamID (some seg.end_)) (passed ++ [seg]) rest
              else (passed ++ [seg], .rejected)

/-- What a client has received of the messages of a call and of its status.  A call whose
context is canceled may end at any point. -/
inductive Received {pb : Protobuf} (canceled : Bool) (res : List (EventStreamSegment pb))
    (status : Option Code) : List (EventStreamSegment pb) → Option Code → Prop where
  | waiting {received : List (EventStreamSegment pb)} (hreceived : received <+: res) :
      Received canceled res status received none
  | ended : Received canceled res status res status
  | canceled {received : List (EventStreamSegment pb)} (hreceived : received <+: res)
      (hcanceled : canceled = true) : Received canceled res status received (some .canceled)

/-- What `Remote.Read` may do, when the client is connected to the server.  `canceled` says
whether its context has been canceled. -/
def Remote.Reads (pb : Protobuf) (server : Server) (streamID : UUID) (types : TypeFilter)
    (begin : Nat) (fn : List Segment → Bool) (canceled : Bool)
    (outcome : List Segment × Return) : Prop :=
  ∃ filter res status received receivedStatus, MessageFilter.For types filter ∧
    server.ReadEvents pb ⟨streamID, begin, filter⟩ res status ∧
    Received canceled res status received receivedStatus ∧
    outcome = readLoop pb streamID types fn canceled receivedStatus begin true [] received

/-- What `Remote.Watch` may do, when the client is connected to the server. -/
def Remote.Watches (pb : Protobuf) (server : Server) (types : TypeFilter)
    (fn : List Segment → Bool) (canceled : Bool) (outcome : List Segment × Return) : Prop :=
  ∃ filter res status received receivedStatus, MessageFilter.For types filter ∧
    server.WatchEvents pb filter res status ∧
    Received canceled res status received receivedStatus ∧
    outcome = watchLoop pb types fn canceled receivedStatus (fun _ => none) [] received

end Runkit.EventStream
