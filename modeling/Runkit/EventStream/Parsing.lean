/-
  EventStream/Parsing.lean --- what a client accepts from another engine.

  Source: internal/eventstream/source/remote.go.

  Another engine may send anything.  `WellFormed` says which messages `parseSegment`
  accepts, without reference to the loops by which it looks for a fault.  The messages
  of a call are then read by a machine (`readStep`, `watchStep`), and what is passed to
  the consumer is the longest prefix of them that the machine accepts.
-/
import Runkit.EventStream.Remote
import Runkit.Foundation.LongestPrefix

set_option autoImplicit false

namespace Runkit.EventStream

open Runkit.Foundation

variable {pb : Protobuf} {types : TypeFilter} {streamID : UUID} {begin end_ next : Nat}

/-! ## Messages -/

/-- The message is one that a client accepts if it has asked for events of the types. -/
structure EventStreamSegment.WellFormed (types : TypeFilter) (res : EventStreamSegment pb) :
    Prop where
  streamID : pb.validUUID res.eventStreamID = true
  multis : ∀ multi ∈ res.envelopes, pb.validMulti multi = true
  ordered : res.beginOffset ≤ res.endOffset
  positions : ∀ env ∈ res.envelopes.flatMap pb.all,
    ∃ offset, env.body.position = some ⟨res.eventStreamID, offset⟩
  sorted : (res.envelopes.flatMap pb.all).Pairwise fun a b => a.offset < b.offset
  within : ∀ env ∈ res.envelopes.flatMap pb.all,
    res.beginOffset ≤ env.offset ∧ env.offset < res.endOffset
  types : ∀ ids, types = some ids → ∀ env ∈ res.envelopes.flatMap pb.all, env.typeID ∈ ids

/-! ## Events -/

/-- The event may be the next one of a segment, if `next` is the lowest offset that it may
have. -/
structure Acceptable (types : TypeFilter) (streamID : UUID) (begin end_ next : Nat)
    (env : Envelope) : Prop where
  position : env.body.position = some ⟨streamID, env.offset⟩
  from_begin : begin ≤ env.offset
  before_end : env.offset < end_
  follows : next ≤ env.offset
  admitted : admits types env = true

theorem parseEvent_eq_ok_iff (pb : Protobuf) {env : Envelope} {offset : Nat} :
    parseEvent .exact pb types streamID begin end_ next env = .ok offset ↔
      Acceptable types streamID begin end_ next env ∧ offset = env.offset := by
  unfold parseEvent
  cases hposition : env.body.position with
  | none =>
      dsimp only
      constructor
      · intro h
        split at h
        · cases h
        · cases h
      · rintro ⟨h, -⟩
        rw [h.position] at hposition
        cases hposition
  | some pos =>
      have hoffset : env.offset = pos.offset := by rw [Envelope.offset, hposition]; rfl
      dsimp only
      constructor
      · intro h
        split at h
        · cases h
        split at h
        · cases h
        split at h
        · cases h
        split at h
        · cases h
        split at h
        · cases h
        rename_i hstream hbegin hend hnext htype
        cases h
        rw [ne_eq, not_not] at hstream
        refine ⟨⟨?_, by omega, by omega, by omega, by simpa [admits] using htype⟩, hoffset.symm⟩
        rw [hposition, hoffset, ← hstream]
      · rintro ⟨⟨hpos, hbegin, hend, hnext, htype⟩, rfl⟩
        rw [hposition] at hpos
        have hstream : pos.streamID = streamID := congrArg (·.streamID) (Option.some.inj hpos)
        have hhas : ¬ types.has env.typeID = false := by
          rw [admits] at htype
          simp [htype]
        rw [if_neg (not_not.mpr hstream), if_neg (by omega), if_neg (by omega),
          if_neg (by omega), if_neg hhas, hoffset]

/-- The events may be the next ones of a segment. -/
def AllAcceptable (types : TypeFilter) (streamID : UUID) (begin end_ : Nat) :
    Nat → List Envelope → Prop
  | _, [] => True
  | next, env :: rest =>
      Acceptable types streamID begin end_ next env ∧
        AllAcceptable types streamID begin end_ (env.offset + 1) rest

theorem allAcceptable_append {envs more : List Envelope} :
    AllAcceptable types streamID begin end_ next (envs ++ more) ↔
      AllAcceptable types streamID begin end_ next envs ∧
        AllAcceptable types streamID begin end_ (endAfter next envs) more := by
  induction envs generalizing next with
  | nil => simp [AllAcceptable, endAfter]
  | cons env rest ih => simp only [List.cons_append, AllAcceptable, ih, and_assoc]; rfl

theorem endAfter_lt {envs : List Envelope} {bound : Nat}
    (h : AllAcceptable types streamID begin end_ next envs) (hend : end_ < bound)
    (hnext : next < bound) : endAfter next envs < bound := by
  induction envs generalizing next with
  | nil => exact hnext
  | cons env rest ih =>
      have hlt := h.1.before_end
      have hnext : env.offset + 1 < bound := by omega
      exact ih h.2 hnext

theorem parseEvents_eq_ok_iff (pb : Protobuf) (done : List Envelope) {envs : List Envelope}
    {st : List Envelope × Nat} :
    parseEvents .exact pb types streamID begin end_ (done, next) envs = .ok st ↔
      AllAcceptable types streamID begin end_ next envs ∧
        st = (done ++ envs, endAfter next envs) := by
  induction envs generalizing done next with
  | nil => simp [parseEvents, AllAcceptable, endAfter, eq_comm]
  | cons env rest ih =>
      rw [parseEvents, AllAcceptable]
      cases hparse : parseEvent .exact pb types streamID begin end_ next env with
      | error fault =>
          have hnot : ¬ Acceptable types streamID begin end_ next env := by
            intro h
            have := (parseEvent_eq_ok_iff pb).mpr ⟨h, rfl⟩
            rw [hparse] at this
            cases this
          simp [hnot]
      | ok offset =>
          obtain ⟨hacceptable, rfl⟩ := (parseEvent_eq_ok_iff pb).mp hparse
          have hend : endAfter next (env :: rest) = endAfter (env.offset + 1) rest := rfl
          have hsucc : OffsetArith.exact.succ env.offset = env.offset + 1 := rfl
          dsimp only
          rw [hsucc, ih, hend, List.append_assoc, List.singleton_append]
          simp [hacceptable]

theorem parseMultis_eq_ok_iff (index : Nat) (done : List Envelope) {multis : List pb.Multi}
    {envs : List Envelope} :
    parseMultis .exact pb types streamID begin end_ index (done, next) multis = .ok envs ↔
      (∀ multi ∈ multis, pb.validMulti multi = true) ∧
        AllAcceptable types streamID begin end_ next (multis.flatMap pb.all) ∧
        envs = done ++ multis.flatMap pb.all := by
  induction multis generalizing done next index with
  | nil =>
      rw [parseMultis, Except.ok.injEq, eq_comm]
      simp [AllAcceptable]
  | cons multi rest ih =>
      rw [parseMultis, List.flatMap_cons, allAcceptable_append, List.forall_mem_cons]
      cases hvalid : pb.validMulti multi with
      | false => simp
      | true =>
          rw [if_neg (by decide)]
          cases hparse : parseEvents .exact pb types streamID begin end_ (done, next)
              (pb.all multi) with
          | error fault =>
              have hnot : ¬ AllAcceptable types streamID begin end_ next (pb.all multi) := by
                intro h
                have := (parseEvents_eq_ok_iff pb done).mpr ⟨h, rfl⟩
                rw [hparse] at this
                cases this
              simp [hnot]
          | ok st =>
              obtain ⟨hacceptable, rfl⟩ := (parseEvents_eq_ok_iff pb done).mp hparse
              dsimp only
              rw [ih, List.append_assoc]
              simp [hacceptable]

/-- The events may be the next ones of a segment if and only if each is in it, of the
right stream and type, and they are in offset order. -/
theorem allAcceptable_iff {envs : List Envelope} :
    AllAcceptable types streamID begin end_ next envs ↔
      (∀ env ∈ envs, Acceptable types streamID begin end_ next env) ∧
        envs.Pairwise fun a b => a.offset < b.offset := by
  induction envs generalizing next with
  | nil => simp [AllAcceptable]
  | cons env rest ih =>
      rw [AllAcceptable, ih, List.forall_mem_cons, List.pairwise_cons]
      constructor
      · rintro ⟨hfirst, hrest, hsorted⟩
        have hnext := hfirst.follows
        refine ⟨⟨hfirst, ?_⟩, ?_, hsorted⟩
        · intro other hother
          obtain ⟨hposition, hbegin, hend, hfollows, htype⟩ := hrest other hother
          exact ⟨hposition, hbegin, hend, by omega, htype⟩
        · intro other hother
          exact (hrest other hother).follows
      · rintro ⟨⟨hfirst, hrest⟩, hlater, hsorted⟩
        refine ⟨hfirst, ?_, hsorted⟩
        intro other hother
        obtain ⟨hposition, hbegin, hend, -, htype⟩ := hrest other hother
        exact ⟨hposition, hbegin, hend, hlater other hother, htype⟩

/-! ## Segments -/

theorem EventStreamSegment.wellFormed_iff {res : EventStreamSegment pb} :
    res.WellFormed types ↔
      pb.validUUID res.eventStreamID = true ∧ res.beginOffset ≤ res.endOffset ∧
        (∀ multi ∈ res.envelopes, pb.validMulti multi = true) ∧
        AllAcceptable types res.eventStreamID res.beginOffset res.endOffset res.beginOffset
          (res.envelopes.flatMap pb.all) := by
  rw [allAcceptable_iff]
  constructor
  · intro h
    refine ⟨h.streamID, h.ordered, h.multis, ?_, h.sorted⟩
    intro env henv
    obtain ⟨offset, hposition⟩ := h.positions env henv
    obtain ⟨hbegin, hend⟩ := h.within env henv
    refine ⟨?_, hbegin, hend, hbegin, ?_⟩
    · rw [Envelope.offset, hposition]
      rfl
    · rw [admits]
      cases htypes : types with
      | none => rfl
      | some ids => exact decide_eq_true (h.types ids htypes env henv)
  · rintro ⟨hid, hordered, hmultis, hevents, hsorted⟩
    refine ⟨hid, hmultis, hordered, ?_, hsorted, ?_, ?_⟩
    · intro env henv
      exact ⟨env.offset, (hevents env henv).position⟩
    · intro env henv
      exact ⟨(hevents env henv).from_begin, (hevents env henv).before_end⟩
    · rintro ids rfl env henv
      exact of_decide_eq_true (hevents env henv).admitted

/-- `parseSegment` accepts the well-formed messages, as the segments that they stand for. -/
theorem parseSegment_eq_ok_iff {res : EventStreamSegment pb} {seg : Segment} :
    parseSegment pb res types = .ok seg ↔ res.WellFormed types ∧ seg = res.segment := by
  rw [EventStreamSegment.wellFormed_iff, parseSegment, parseSegmentWith]
  cases hid : pb.validUUID res.eventStreamID with
  | false => simp
  | true =>
      rw [if_neg (by decide)]
      by_cases hordered : res.endOffset < res.beginOffset
      · rw [if_pos hordered]
        have : ¬ res.beginOffset ≤ res.endOffset := by omega
        simp [this]
      rw [if_neg hordered]
      cases hparse : parseMultis .exact pb types res.eventStreamID res.beginOffset res.endOffset 0
          ([], res.beginOffset) res.envelopes with
      | error fault =>
          dsimp only
          refine ⟨nofun, ?_⟩
          rintro ⟨⟨-, -, hmultis, hevents⟩, -⟩
          have := (parseMultis_eq_ok_iff 0 []).mpr ⟨hmultis, hevents, rfl⟩
          rw [hparse] at this
          cases this
      | ok envs =>
          obtain ⟨hmultis, hevents, rfl⟩ := (parseMultis_eq_ok_iff 0 []).mp hparse
          have hle : res.beginOffset ≤ res.endOffset := by omega
          dsimp only
          rw [List.nil_append, Except.ok.injEq]
          constructor
          · rintro rfl
            exact ⟨⟨rfl, hle, hmultis, hevents⟩, rfl⟩
          · rintro ⟨-, rfl⟩
            rfl

/-! ## Offsets do not wrap around -/

theorem parseEvent_uint64 {env : Envelope} (hnext : next < 2 ^ 64) :
    parseEvent .uint64 pb types streamID begin end_ next env =
      parseEvent .exact pb types streamID begin end_ next env := by
  unfold parseEvent
  cases env.body.position with
  | none => rfl
  | some pos =>
      -- One is subtracted only from an offset that another one is lower than.
      have hpred : pos.offset < next →
          OffsetArith.uint64.pred next = OffsetArith.exact.pred next := by
        intro hlt
        change (next + 2 ^ 64 - 1) % 2 ^ 64 = next - 1
        omega
      dsimp only
      split
      · rfl
      split
      · rfl
      split
      · rfl
      split
      · rename_i hlt
        rw [hpred hlt]
      · rfl

theorem parseEvents_uint64 {envs done : List Envelope} (hend : end_ < 2 ^ 64)
    (hnext : next < 2 ^ 64) :
    parseEvents .uint64 pb types streamID begin end_ (done, next) envs =
      parseEvents .exact pb types streamID begin end_ (done, next) envs := by
  induction envs generalizing done next with
  | nil => rfl
  | cons env rest ih =>
      rw [parseEvents, parseEvents, parseEvent_uint64 hnext]
      cases hparse : parseEvent .exact pb types streamID begin end_ next env with
      | error fault => rfl
      | ok offset =>
          obtain ⟨hacceptable, rfl⟩ := (parseEvent_eq_ok_iff pb).mp hparse
          have hlt := hacceptable.before_end
          have hsucc : OffsetArith.uint64.succ env.offset = env.offset + 1 :=
            Nat.mod_eq_of_lt (by omega)
          dsimp only
          rw [hsucc]
          exact ih (by omega)

theorem parseMultis_uint64 {multis : List pb.Multi} {done : List Envelope} {index : Nat}
    (hend : end_ < 2 ^ 64) (hnext : next < 2 ^ 64) :
    parseMultis .uint64 pb types streamID begin end_ index (done, next) multis =
      parseMultis .exact pb types streamID begin end_ index (done, next) multis := by
  induction multis generalizing done next index with
  | nil => rfl
  | cons multi rest ih =>
      rw [parseMultis, parseMultis, parseEvents_uint64 hend hnext]
      split
      · rfl
      cases hparse : parseEvents .exact pb types streamID begin end_ (done, next)
          (pb.all multi) with
      | error fault => rfl
      | ok st =>
          obtain ⟨hacceptable, rfl⟩ := (parseEvents_eq_ok_iff pb done).mp hparse
          exact ih (endAfter_lt hacceptable hend hnext)

/-- Nothing that `parseSegment` computes from the offsets of a message wraps around. -/
theorem parseSegmentWith_uint64 {res : EventStreamSegment pb}
    (hbegin : res.beginOffset < 2 ^ 64) (hend : res.endOffset < 2 ^ 64) :
    parseSegmentWith .uint64 pb res types = parseSegment pb res types := by
  rw [parseSegment, parseSegmentWith, parseSegmentWith, parseMultis_uint64 hend hbegin]

/-! ## Calls -/

/-- Whether the next message of a call of `Remote.Read` is accepted, if it must begin at the
offset, and where the one after it must begin. -/
def readStep (pb : Protobuf) (streamID : UUID) (types : TypeFilter) (begin : Nat)
    (res : EventStreamSegment pb) : Option Nat :=
  match parseSegment pb res types with
  | .error _ => none
  | .ok seg => if seg.streamID = streamID ∧ seg.begin = begin then some seg.end_ else none

/-- Whether the next message of a call of `Remote.Watch` is accepted, given where the last
segment of each stream ended, and where they end after it. -/
def watchStep (pb : Protobuf) (types : TypeFilter) (ends : UUID → Option Nat)
    (res : EventStreamSegment pb) : Option (UUID → Option Nat) :=
  match parseSegment pb res types with
  | .error _ => none
  | .ok seg =>
      if (ends seg.streamID).all fun end_ => decide (seg.begin = end_) then
        some (Function.update ends seg.streamID (some seg.end_))
      else none

/-- The messages are well-formed segments of the stream that follow each other from the
offset. -/
structure Readable (streamID : UUID) (types : TypeFilter) (begin : Nat)
    (res : List (EventStreamSegment pb)) : Prop where
  wellFormed : ∀ r ∈ res, r.WellFormed types
  stream : ∀ r ∈ res, r.eventStreamID = streamID
  contiguous :
    Contiguous EventStreamSegment.beginOffset EventStreamSegment.endOffset begin res

/-- The messages are well-formed segments, each of which follows the previous one of its
stream, if there is one among `done` and those before it. -/
structure Watchable (types : TypeFilter) (done : List Segment)
    (res : List (EventStreamSegment pb)) : Prop where
  wellFormed : ∀ r ∈ res, r.WellFormed types
  follows : ∀ before r after, res = before ++ r :: after → ∀ end_,
    lastEnd r.eventStreamID (done ++ before.map EventStreamSegment.segment) = some end_ →
      r.beginOffset = end_

theorem readStep_eq_some_iff {res : EventStreamSegment pb} {next : Nat} :
    readStep pb streamID types begin res = some next ↔
      res.WellFormed types ∧ res.eventStreamID = streamID ∧ res.beginOffset = begin ∧
        next = res.endOffset := by
  unfold readStep
  cases hparse : parseSegment pb res types with
  | error fault =>
      refine ⟨nofun, ?_⟩
      rintro ⟨hwell, -⟩
      rw [parseSegment_eq_ok_iff.mpr ⟨hwell, rfl⟩] at hparse
      cases hparse
  | ok seg =>
      obtain ⟨hwell, rfl⟩ := parseSegment_eq_ok_iff.mp hparse
      simp [EventStreamSegment.segment, hwell, and_assoc, eq_comm]

theorem accepts_readStep_iff {res : List (EventStreamSegment pb)} :
    Accepts (readStep pb streamID types) begin res ↔ Readable streamID types begin res := by
  induction res generalizing begin with
  | nil => exact ⟨fun _ => ⟨nofun, nofun, trivial⟩, fun _ => accepts_nil⟩
  | cons r rest ih =>
      cases hstep : readStep pb streamID types begin r with
      | none =>
          refine ⟨fun h => absurd h (not_accepts_cons_of_none hstep), ?_⟩
          intro h
          have := readStep_eq_some_iff.mpr ⟨h.wellFormed r List.mem_cons_self,
            h.stream r List.mem_cons_self, h.contiguous.1, rfl⟩
          rw [hstep] at this
          cases this
      | some next =>
          obtain ⟨hwell, hstream, hbegin, rfl⟩ := readStep_eq_some_iff.mp hstep
          rw [accepts_cons_of_some hstep, ih]
          constructor
          · rintro ⟨hwells, hstreams, hcontiguous⟩
            exact ⟨List.forall_mem_cons.mpr ⟨hwell, hwells⟩,
              List.forall_mem_cons.mpr ⟨hstream, hstreams⟩, hbegin, hwell.ordered, hcontiguous⟩
          · rintro ⟨hwells, hstreams, -, -, hcontiguous⟩
            exact ⟨(List.forall_mem_cons.mp hwells).2, (List.forall_mem_cons.mp hstreams).2,
              hcontiguous⟩

theorem update_lastEnd (done : List Segment) (seg : Segment) :
    Function.update (fun id => lastEnd id done) seg.streamID (some seg.end_) =
      fun id => lastEnd id (done ++ [seg]) := by
  funext id
  by_cases heq : id = seg.streamID
  · rw [heq, Function.update_self, lastEnd_concat_self rfl]
  · rw [Function.update_of_ne heq, lastEnd_concat_of_ne (Ne.symm heq)]

theorem watchStep_eq_some_iff {res : EventStreamSegment pb} {done : List Segment}
    {ends : UUID → Option Nat} :
    watchStep pb types (fun id => lastEnd id done) res = some ends ↔
      res.WellFormed types ∧
        (∀ end_, lastEnd res.eventStreamID done = some end_ → res.beginOffset = end_) ∧
        ends = fun id => lastEnd id (done ++ [res.segment]) := by
  unfold watchStep
  cases hparse : parseSegment pb res types with
  | error fault =>
      refine ⟨nofun, ?_⟩
      rintro ⟨hwell, -⟩
      rw [parseSegment_eq_ok_iff.mpr ⟨hwell, rfl⟩] at hparse
      cases hparse
  | ok seg =>
      obtain ⟨hwell, rfl⟩ := parseSegment_eq_ok_iff.mp hparse
      dsimp only
      rw [update_lastEnd, Option.ite_none_right_eq_some, Option.all_eq_true]
      simp only [decide_eq_true_eq, Option.some.injEq]
      constructor
      · rintro ⟨hend, rfl⟩
        exact ⟨hwell, hend, rfl⟩
      · rintro ⟨-, hend, rfl⟩
        exact ⟨hend, rfl⟩

theorem accepts_watchStep_iff (done : List Segment) {res : List (EventStreamSegment pb)} :
    Accepts (watchStep pb types) (fun id => lastEnd id done) res ↔ Watchable types done res := by
  induction res generalizing done with
  | nil =>
      refine ⟨fun _ => ⟨nofun, ?_⟩, fun _ => accepts_nil⟩
      intro before r after h
      simp at h
  | cons r rest ih =>
      cases hstep : watchStep pb types (fun id => lastEnd id done) r with
      | none =>
          refine ⟨fun h => absurd h (not_accepts_cons_of_none hstep), ?_⟩
          intro h
          have hfirst := h.follows [] r rest rfl
          rw [List.map_nil, List.append_nil] at hfirst
          have := watchStep_eq_some_iff.mpr ⟨h.wellFormed r List.mem_cons_self, hfirst, rfl⟩
          rw [hstep] at this
          cases this
      | some ends =>
          obtain ⟨hwell, hfirst, rfl⟩ := watchStep_eq_some_iff.mp hstep
          rw [accepts_cons_of_some hstep, ih]
          constructor
          · rintro ⟨hwells, hfollows⟩
            refine ⟨List.forall_mem_cons.mpr ⟨hwell, hwells⟩, ?_⟩
            intro before r' after heq end_ hend
            rcases List.cons_eq_append_iff.mp heq with ⟨rfl, heq⟩ | ⟨before', rfl, heq⟩
            · cases heq
              rw [List.map_nil, List.append_nil] at hend
              exact hfirst end_ hend
            · rw [List.map_cons, ← List.singleton_append, ← List.append_assoc] at hend
              exact hfollows before' r' after (List.cons.inj heq).2 end_ hend
          · rintro ⟨hwells, hfollows⟩
            refine ⟨(List.forall_mem_cons.mp hwells).2, ?_⟩
            intro before r' after heq end_ hend
            refine hfollows (r :: before) r' after (by rw [heq]; rfl) end_ ?_
            rwa [List.map_cons, ← List.singleton_append, ← List.append_assoc]

/-! ## What is passed to the consumer -/

/-- A call passes on the accepted messages.  If it is not the consumer that ends it, it
ends as it should if all that it has received was accepted, and reports an invalid
segment otherwise. -/
structure PassesOn (fn : List Segment → Bool) (result : CallResult)
    (passed : List Segment) (received accepted : List (EventStreamSegment pb))
    (outcome : List Segment × Return) : Prop where
  all : accepted = received →
    outcome = deliverTo fn result passed (accepted.map EventStreamSegment.segment)
  invalid : accepted ≠ received → ∃ fault, outcome =
    deliverTo fn (some (some (.invalidSegment fault))) passed
      (accepted.map EventStreamSegment.segment)

section

variable {fn : List Segment → Bool} {canceled : Bool} {status : Option Code}
  {result : CallResult} {passed : List Segment} {received accepted : List (EventStreamSegment pb)}
  {outcome : List Segment × Return}

theorem PassesOn.cons {r : EventStreamSegment pb}
    (h : PassesOn fn result (passed ++ [r.segment]) received accepted outcome) :
    PassesOn fn result passed (r :: received) (r :: accepted)
      (if fn (passed ++ [r.segment]) then outcome else (passed ++ [r.segment], .rejected)) where
  all := by
    intro heq
    rw [List.map_cons, deliverTo, ← h.all (List.cons.inj heq).2]
  invalid := by
    intro hne
    obtain ⟨fault, houtcome⟩ := h.invalid fun heq => hne (by rw [heq])
    exact ⟨fault, by rw [List.map_cons, deliverTo, ← houtcome]⟩

theorem PassesOn.refuse {r : EventStreamSegment pb} (fault : SegmentFault) :
    PassesOn fn result passed (r :: received) []
      (passed, .ended (some (some (.invalidSegment fault)))) where
  all := nofun
  invalid := fun _ => ⟨fault, rfl⟩

/-- The loop of `Remote.Read` passes on what `readStep` accepts. -/
theorem readLoop_passesOn (begin : Nat) (first : Bool) (passed : List Segment)
    (received : List (EventStreamSegment pb)) :
    PassesOn fn (status.map (readError canceled)) passed received
      (longestPrefix (readStep pb streamID types) begin received)
      (readLoop pb streamID types fn canceled status begin first passed received) := by
  induction received generalizing begin first passed with
  | nil => exact ⟨fun _ => rfl, fun h => absurd rfl h⟩
  | cons r rest ih =>
      rw [readLoop]
      cases hparse : parseSegment pb r types with
      | error fault =>
          have hstep : readStep pb streamID types begin r = none := by
            rw [readStep, hparse]
          rw [longestPrefix_cons_of_none hstep]
          exact .refuse fault
      | ok seg =>
          obtain ⟨hwell, rfl⟩ := parseSegment_eq_ok_iff.mp hparse
          dsimp only
          by_cases hstream : r.segment.streamID = streamID
          · rw [if_neg (not_not.mpr hstream)]
            by_cases hbegin : r.segment.begin = begin
            · rw [if_neg (not_not.mpr hbegin)]
              have hstep := readStep_eq_some_iff.mpr ⟨hwell, hstream, hbegin, rfl⟩
              rw [longestPrefix_cons_of_some hstep]
              exact (ih r.segment.end_ false (passed ++ [r.segment])).cons
            · rw [if_pos hbegin]
              have hstep : readStep pb streamID types begin r = none := by
                rw [readStep, hparse]
                exact if_neg fun h => hbegin h.2
              rw [longestPrefix_cons_of_none hstep]
              exact .refuse _
          · rw [if_pos hstream]
            have hstep : readStep pb streamID types begin r = none := by
              rw [readStep, hparse]
              exact if_neg fun h => hstream h.1
            rw [longestPrefix_cons_of_none hstep]
            exact .refuse _

/-- The loop of `Remote.Watch` passes on what `watchStep` accepts. -/
theorem watchLoop_passesOn (ends : UUID → Option Nat) (passed : List Segment)
    (received : List (EventStreamSegment pb)) :
    PassesOn fn (status.map (watchError canceled)) passed received
      (longestPrefix (watchStep pb types) ends received)
      (watchLoop pb types fn canceled status ends passed received) := by
  induction received generalizing ends passed with
  | nil => exact ⟨fun _ => rfl, fun h => absurd rfl h⟩
  | cons r rest ih =>
      rw [watchLoop]
      cases hparse : parseSegment pb r types with
      | error fault =>
          have hstep : watchStep pb types ends r = none := by rw [watchStep, hparse]
          rw [longestPrefix_cons_of_none hstep]
          exact .refuse fault
      | ok seg =>
          obtain ⟨hwell, rfl⟩ := parseSegment_eq_ok_iff.mp hparse
          dsimp only
          cases hfilter : (ends r.segment.streamID).filter
              fun end_ => decide (r.segment.begin ≠ end_) with
          | some end_ =>
              obtain ⟨hend, hne⟩ := Option.filter_eq_some_iff.mp hfilter
              have hstep : watchStep pb types ends r = none := by
                rw [watchStep, hparse]
                refine if_neg ?_
                simpa [hend] using hne
              rw [longestPrefix_cons_of_none hstep]
              exact .refuse _
          | none =>
              have hstep : watchStep pb types ends r =
                  some (Function.update ends r.segment.streamID (some r.segment.end_)) := by
                rw [watchStep, hparse]
                refine if_pos ?_
                rw [Option.filter_eq_none_iff] at hfilter
                rw [Option.all_eq_true]
                intro end_ hend
                simpa using hfilter end_ hend
              rw [longestPrefix_cons_of_some hstep]
              exact (ih _ (passed ++ [r.segment])).cons

end

/-- Of all that another engine may send, a client passes on the longest prefix that is
well-formed and contiguous, and reports the first message that is not part of it as an
invalid segment. -/
theorem remote_passes_on_longest_prefix (pb : Protobuf) (types : TypeFilter) :
    (∀ (res : EventStreamSegment pb) (seg : Segment),
      parseSegment pb res types = .ok seg ↔ res.WellFormed types ∧ seg = res.segment) ∧
    (∀ res : EventStreamSegment pb, res.beginOffset < 2 ^ 64 → res.endOffset < 2 ^ 64 →
      parseSegmentWith .uint64 pb res types = parseSegment pb res types) ∧
    (∀ fn canceled status streamID begin (received : List (EventStreamSegment pb)),
      ∃ accepted, accepted <+: received ∧ Readable streamID types begin accepted ∧
        (∀ front, front <+: received → Readable streamID types begin front →
          front <+: accepted) ∧
        PassesOn fn (status.map (readError canceled)) [] received accepted
          (readLoop pb streamID types fn canceled status begin true [] received)) ∧
    (∀ fn canceled status (received : List (EventStreamSegment pb)),
      ∃ accepted, accepted <+: received ∧ Watchable types [] accepted ∧
        (∀ front, front <+: received → Watchable types [] front → front <+: accepted) ∧
        PassesOn fn (status.map (watchError canceled)) [] received accepted
          (watchLoop pb types fn canceled status (fun _ => none) [] received)) := by
  refine ⟨fun res seg => parseSegment_eq_ok_iff, fun res => parseSegmentWith_uint64, ?_, ?_⟩
  · intro fn canceled status streamID begin received
    refine ⟨_, longestPrefix_isPrefix begin received,
      accepts_readStep_iff.mp (accepts_longestPrefix begin received), ?_,
      readLoop_passesOn begin true [] received⟩
    intro front hfront hreadable
    exact (accepts_readStep_iff.mpr hreadable).isPrefix_longestPrefix hfront
  · intro fn canceled status received
    refine ⟨_, longestPrefix_isPrefix (fun _ => none) received,
      (accepts_watchStep_iff []).mp (accepts_longestPrefix (fun _ => none) received), ?_,
      watchLoop_passesOn (fun _ => none) [] received⟩
    intro front hfront hwatchable
    exact ((accepts_watchStep_iff []).mpr hwatchable).isPrefix_longestPrefix hfront

end Runkit.EventStream
