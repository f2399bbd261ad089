/-
  EventStream/SplitSegment.lean --- the parts that a server splits a segment into.

  Source: internal/eventstream/source/server.go.

  The loop of `splitSegment` builds one part at a time.  Whatever is true of a part with
  one event, and stays true as events are added that do not exceed the maximum, is true
  of every part (`splitLoop_parts`).  What the parts cover follows from how an event
  splits a range in front of it (`Divides`).
-/
import Runkit.EventStream.Remote

set_option autoImplicit false

namespace Runkit.EventStream

open Runkit.Foundation

variable {pb : Protobuf} {begin end_ maxBytes : Nat} {streamID : UUID}

/-! ## Ranges -/

/-- The segments cover `[begin, end_)`, and together hold the events. -/
structure Splits (begin end_ : Nat) (events : List Envelope) (parts : List Segment) : Prop where
  contiguous : Contiguous Segment.begin Segment.end_ begin parts
  reach : reach Segment.end_ begin parts = end_
  events : parts.flatMap Segment.envelopes = events

theorem Splits.single (seg : Segment) (h : seg.begin ≤ seg.end_) :
    Splits seg.begin seg.end_ seg.envelopes [seg] :=
  ⟨⟨rfl, h, trivial⟩, rfl, by simp⟩

theorem Splits.append {mid : Nat} {events events' : List Envelope} {parts parts' : List Segment}
    (h : Splits begin mid events parts) (h' : Splits mid end_ events' parts') :
    Splits begin end_ (events ++ events') (parts ++ parts') where
  contiguous := by
    rw [contiguous_append, h.reach]
    exact ⟨h.contiguous, h'.contiguous⟩
  reach := by rw [reach_append, h.reach, h'.reach]
  events := by rw [List.flatMap_append, h.events, h'.events]

/-- A notion of the events of a range, in which each event splits the range in front of
it. -/
structure Divides (R : Nat → Nat → List Envelope → Prop) : Prop where
  ordered : ∀ {begin end_ events}, R begin end_ events → begin ≤ end_
  split : ∀ {begin end_ more env events}, R begin end_ (more ++ env :: events) →
    R begin env.offset more ∧ R env.offset end_ (env :: events)

theorem inRange_divides : Divides InRange := ⟨InRange.ordered, InRange.split⟩

theorem covers_divides (log : EventLog) (types : TypeFilter) : Divides (Covers log types) :=
  ⟨Covers.ordered, Covers.split⟩

/-! ## One part -/

/-- What the source counts for a multi-envelope: the header that its events share, and
their bodies. -/
def multiSize (pb : Protobuf) (multi : pb.Multi) : Nat :=
  ((pb.all multi).head?.map fun env => pb.headerSize env.header).getD 0 +
    ((pb.all multi).map fun env => pb.bodySize env.body).sum

/-- What the source counts for the multi-envelopes of a part. -/
def partSize (pb : Protobuf) (multis : List pb.Multi) : Nat :=
  (multis.map (multiSize pb)).sum

theorem multiSize_asMultiEnvelope (env : Envelope) :
    multiSize pb (pb.asMultiEnvelope env) = pb.headerSize env.header + pb.bodySize env.body := by
  simp [multiSize, pb.all_asMultiEnvelope]

namespace Splitting

variable {st : Splitting pb} {env : Envelope}

/-- The events of the part. -/
def events (st : Splitting pb) : List Envelope := st.envelopes.flatMap pb.all

@[simp] theorem start_events (beginOffset : Nat) :
    (start beginOffset : Splitting pb).events = [] := rfl

@[simp] theorem add_beginOffset : (st.add env).beginOffset = st.beginOffset := by
  rw [add]
  split <;> rfl

/-- Wherever the event is added, it is the last one. -/
theorem add_events : (st.add env).events = st.events ++ [env] := by
  rw [add]
  split
  · rename_i multi happend
    obtain ⟨last, hlast, htry⟩ := Option.bind_eq_some_iff.mp happend
    have hall := pb.all_tryAppendEnvelope last env multi htry
    simp [events, envelopes, hlast, hall]
  · simp [events, envelopes, pb.all_asMultiEnvelope]

/-- The multi-envelopes of the part are valid. -/
def Valid (st : Splitting pb) : Prop := ∀ multi ∈ st.envelopes, pb.validMulti multi = true

theorem Valid.start (beginOffset : Nat) : (start beginOffset : Splitting pb).Valid := by
  intro multi h
  cases h

theorem Valid.add (h : st.Valid) (henv : pb.validEnvelope env = true) : (st.add env).Valid := by
  rw [Splitting.add]
  split
  · rename_i multi happend
    obtain ⟨last, hlast, htry⟩ := Option.bind_eq_some_iff.mp happend
    have hvalid : pb.validMulti last = true := h last (by simp [envelopes, hlast])
    intro other hother
    rcases List.mem_append.mp hother with hfront | hmulti
    · exact h other (List.mem_append_left _ hfront)
    · rw [List.mem_singleton.mp hmulti]
      exact pb.valid_tryAppendEnvelope last env multi hvalid henv htry
  · intro other hother
    rcases List.mem_append.mp hother with hfront | hmulti
    · exact h other hfront
    · rw [List.mem_singleton.mp hmulti]
      exact pb.valid_asMultiEnvelope env henv

/-- The part holds an event, its size is counted, and it is no larger than the maximum
unless there is one event only. -/
structure Sized (maxBytes : Nat) (st : Splitting pb) : Prop where
  nonempty : st.events ≠ []
  /-- The multi-envelope that is being built holds an event, whose header has been
  counted. -/
  open_ : ∀ multi ∈ st.multi, pb.all multi ≠ []
  counted : st.size = partSize pb st.envelopes
  positive : 0 < st.size
  bounded : st.size ≤ maxBytes ∨ st.events.length = 1

theorem Sized.start (beginOffset : Nat)
    (hsize : 0 < pb.headerSize env.header + pb.bodySize env.body) :
    ((Splitting.start beginOffset).add env : Splitting pb).Sized maxBytes where
  nonempty := by simp [add_events]
  open_ := by
    intro multi hmulti
    cases hmulti
    simp [pb.all_asMultiEnvelope]
  counted := by
    simp [add, Splitting.start, envelopes, partSize, multiSize_asMultiEnvelope]
  positive := by
    simpa [add, Splitting.start] using hsize
  bounded := Or.inr (by simp [add_events])

theorem Sized.add (h : st.Sized maxBytes) (hfits : st.exceeds maxBytes env = false) :
    (st.add env).Sized maxBytes := by
  have hle : st.size + pb.headerSize env.header + pb.bodySize env.body ≤ maxBytes := by
    have hpositive := h.positive
    simp only [exceeds, Bool.and_eq_false_iff, decide_eq_false_iff_not] at hfits
    omega
  have hpositive := h.positive
  have hcounted := h.counted
  have hnonempty : (st.add env).events ≠ [] := by simp [add_events]
  rw [Splitting.add] at hnonempty ⊢
  split at hnonempty
  · rename_i multi happend
    obtain ⟨last, hlast, htry⟩ := Option.bind_eq_some_iff.mp happend
    have hall := pb.all_tryAppendEnvelope last env multi htry
    -- The header of the event is that of the first event of the multi-envelope.
    have hsize : multiSize pb multi = multiSize pb last + pb.bodySize env.body := by
      obtain ⟨first, rest, hfirst⟩ := List.exists_cons_of_ne_nil (h.open_ last hlast)
      simp only [multiSize, hall, hfirst, List.cons_append, List.head?_cons, List.map_cons,
        List.map_append, List.map_nil, List.sum_cons, List.sum_append, List.sum_nil]
      omega
    refine ⟨hnonempty, ?_, ?_, ?_, Or.inl ?_⟩
    · intro other hother
      cases hother
      simp [hall]
    · rw [hcounted]
      simp only [partSize, envelopes, hlast, Option.toList_some, List.map_append, List.map_cons,
        List.map_nil, List.sum_append, List.sum_cons, List.sum_nil, hsize]
      omega
    · change 0 < st.size + pb.bodySize env.body
      omega
    · change st.size + pb.bodySize env.body ≤ maxBytes
      omega
  · rename_i happend
    refine ⟨hnonempty, ?_, ?_, ?_, Or.inl hle⟩
    · intro multi hmulti
      cases hmulti
      simp [pb.all_asMultiEnvelope]
    · rw [hcounted]
      simp only [partSize, envelopes, Option.toList_some, List.map_append, List.map_cons,
        List.map_nil, List.sum_append, List.sum_cons, List.sum_nil, multiSize_asMultiEnvelope]
      omega
    · change 0 < st.size + pb.headerSize env.header + pb.bodySize env.body
      omega

end Splitting

/-! ## All parts -/

/-- What is true of a part with one event, and stays true as events are added to it that
do not exceed the maximum, is true of every part. -/
theorem splitLoop_parts (Inv : Splitting pb → Prop) {envs : List Envelope}
    (hnew : ∀ env ∈ envs, Inv ((Splitting.start env.offset).add env))
    (hadd : ∀ st, ∀ env ∈ envs, Inv st → st.exceeds maxBytes env = false → Inv (st.add env))
    {st : Splitting pb} (hst : Inv st) :
    ∀ res ∈ splitLoop pb maxBytes streamID end_ st envs,
      ∃ part endOffset, res = Splitting.message part streamID endOffset ∧ Inv part := by
  induction envs generalizing st with
  | nil =>
      intro res hres
      rw [List.mem_singleton.mp hres]
      exact ⟨st, end_, rfl, hst⟩
  | cons env rest ih =>
      have hnext := @ih (fun env henv => hnew env (List.mem_cons_of_mem _ henv))
        (fun st env henv => hadd st env (List.mem_cons_of_mem _ henv))
      rw [splitLoop]
      split
      · intro res hres
        rcases List.mem_cons.mp hres with rfl | hres
        · exact ⟨st, env.offset, rfl, hst⟩
        · exact hnext (hnew env List.mem_cons_self) res hres
      · rename_i hfits
        exact hnext (hadd st env List.mem_cons_self hst (by simpa using hfits))

theorem splitLoop_streamID {envs : List Envelope} {st : Splitting pb} :
    ∀ res ∈ splitLoop pb maxBytes streamID end_ st envs, res.eventStreamID = streamID := by
  intro res hres
  obtain ⟨part, endOffset, rfl, -⟩ := splitLoop_parts (fun _ => True)
    (fun _ _ => trivial) (fun _ _ _ _ _ => trivial) trivial res hres
  rfl

theorem splitLoop_valid {envs : List Envelope} {st : Splitting pb}
    (hst : st.Valid) (henvs : ∀ env ∈ envs, pb.validEnvelope env = true) :
    ∀ res ∈ splitLoop pb maxBytes streamID end_ st envs,
      ∀ multi ∈ res.envelopes, pb.validMulti multi = true := by
  intro res hres
  obtain ⟨part, endOffset, rfl, hvalid⟩ := splitLoop_parts Splitting.Valid
    (fun env henv => (Splitting.Valid.start env.offset).add (henvs env henv))
    (fun st env henv hst _ => hst.add (henvs env henv)) hst res hres
  exact hvalid

/-- The parts that the loop makes of a segment of which the current part holds the first
events. -/
theorem splitLoop_splits {R : Nat → Nat → List Envelope → Prop} (hR : Divides R)
    (maxBytes : Nat) {envs : List Envelope} (st : Splitting pb)
    (hrange : R st.beginOffset end_ (st.events ++ envs)) :
    Splits st.beginOffset end_ (st.events ++ envs)
        ((splitLoop pb maxBytes streamID end_ st envs).map EventStreamSegment.segment) ∧
      ∀ res ∈ splitLoop pb maxBytes streamID end_ st envs,
        R res.segment.begin res.segment.end_ res.segment.envelopes := by
  induction envs generalizing st with
  | nil =>
      rw [List.append_nil] at hrange ⊢
      refine ⟨.single (st.message streamID end_).segment (hR.ordered hrange), ?_⟩
      intro res hres
      rw [List.mem_singleton.mp hres]
      exact hrange
  | cons env rest ih =>
      rw [splitLoop]
      split
      · -- The part ends where the event is, and another one begins there.
        obtain ⟨hfront, hback⟩ := hR.split hrange
        have hevents : ((Splitting.start env.offset).add env : Splitting pb).events = [env] := by
          rw [Splitting.add_events]
          rfl
        obtain ⟨hsplits, hparts⟩ := ih ((Splitting.start env.offset).add env) (by
          rw [Splitting.add_beginOffset, hevents]
          exact hback)
        rw [hevents, Splitting.add_beginOffset] at hsplits
        refine ⟨Splits.append (.single (st.message streamID env.offset).segment
          (hR.ordered hfront)) hsplits, ?_⟩
        intro res hres
        rcases List.mem_cons.mp hres with rfl | hres
        · exact hfront
        · exact hparts res hres
      · have hadd : st.events ++ env :: rest = (st.add env).events ++ rest := by
          rw [Splitting.add_events, List.append_assoc]
          rfl
        rw [hadd] at hrange ⊢
        have hnext := ih (st.add env) (by rwa [Splitting.add_beginOffset])
        rwa [Splitting.add_beginOffset] at hnext

theorem splitLoop_ne_nil {envs : List Envelope} {st : Splitting pb} :
    splitLoop pb maxBytes streamID end_ st envs ≠ [] := by
  induction envs generalizing st with
  | nil => exact List.cons_ne_nil _ _
  | cons env rest ih =>
      rw [splitLoop]
      split
      · exact List.cons_ne_nil _ _
      · exact ih

/-- The parts of a segment that has events hold events themselves, and only a part with a
single event is larger than the maximum. -/
theorem splitSegment_sized {seg : Segment} (hne : seg.envelopes ≠ [])
    (hsizes : ∀ env ∈ seg.envelopes, 0 < pb.headerSize env.header + pb.bodySize env.body) :
    ∀ res ∈ splitSegment pb maxBytes seg, ∃ part endOffset,
      res = Splitting.message part seg.streamID endOffset ∧ part.Sized maxBytes := by
  obtain ⟨first, rest, hfirst⟩ := List.exists_cons_of_ne_nil hne
  have hempty : (Splitting.start seg.begin : Splitting pb).exceeds maxBytes first = false := rfl
  rw [hfirst] at hsizes
  obtain ⟨hsize, hsizes⟩ := List.forall_mem_cons.mp hsizes
  unfold splitSegment
  rw [hfirst, splitLoop, hempty, if_neg (by decide)]
  exact splitLoop_parts (Splitting.Sized maxBytes)
    (fun env henv => .start env.offset (hsizes env henv))
    (fun st env henv hst hfits => hst.add hfits) (.start seg.begin hsize)

/-- What the parts of a segment are. -/
structure SplitInto (maxBytes : Nat) (seg : Segment) (parts : List (EventStreamSegment pb)) :
    Prop where
  stream : ∀ part ∈ parts, part.eventStreamID = seg.streamID
  contiguous : Contiguous EventStreamSegment.beginOffset EventStreamSegment.endOffset
    seg.begin parts
  first : parts.head?.map EventStreamSegment.beginOffset = some seg.begin
  last : parts.getLast?.map EventStreamSegment.endOffset = some seg.end_
  /-- Every event is in one part, in the same order. -/
  events : parts.flatMap (fun part => part.envelopes.flatMap pb.all) = seg.envelopes
  within : ∀ part ∈ parts, ∀ env ∈ part.envelopes.flatMap pb.all,
    part.beginOffset ≤ env.offset ∧ env.offset < part.endOffset
  nonempty : seg.envelopes ≠ [] → ∀ part ∈ parts, part.envelopes.flatMap pb.all ≠ []
  bounded : ∀ part ∈ parts, partSize pb part.envelopes ≤ maxBytes ∨
    (part.envelopes.flatMap pb.all).length = 1

/-- The parts of a segment cover it, each with at least one event and no more bytes than
the maximum, unless there is only one event to send. -/
theorem splitSegment_splitInto (pb : Protobuf) (maxBytes : Nat) {seg : Segment}
    (hrange : InRange seg.begin seg.end_ seg.envelopes)
    (hsizes : ∀ env ∈ seg.envelopes, 0 < pb.headerSize env.header + pb.bodySize env.body) :
    SplitInto maxBytes seg (splitSegment pb maxBytes seg) := by
  obtain ⟨hsplits, hparts⟩ :
      Splits seg.begin seg.end_ seg.envelopes
          ((splitSegment pb maxBytes seg).map EventStreamSegment.segment) ∧
        ∀ res ∈ splitSegment pb maxBytes seg,
          InRange res.segment.begin res.segment.end_ res.segment.envelopes :=
    splitLoop_splits inRange_divides maxBytes (.start seg.begin) hrange
  have hcontiguous := hsplits.contiguous
  have hreach := hsplits.reach
  have hevents := hsplits.events
  rw [List.flatMap_map] at hevents
  refine ⟨splitLoop_streamID, ?_, ?_, ?_, hevents, fun part hpart => (hparts part hpart).within,
    ?_, ?_⟩
  · rwa [contiguous_map] at hcontiguous
    · exact fun _ => rfl
    · exact fun _ => rfl
  · have hne : splitSegment pb maxBytes seg ≠ [] := splitLoop_ne_nil
    obtain ⟨part, parts, hcons⟩ := List.exists_cons_of_ne_nil hne
    rw [hcons, List.map_cons] at hcontiguous
    rw [hcons]
    exact congrArg some hcontiguous.1
  · rcases List.eq_nil_or_concat (splitSegment pb maxBytes seg) with hnil | ⟨parts, part, hconcat⟩
    · exact absurd hnil splitLoop_ne_nil
    · rw [hconcat, List.concat_eq_append, List.map_append, List.map_singleton,
        reach_concat] at hreach
      rw [hconcat, List.concat_eq_append, List.getLast?_concat]
      exact congrArg some hreach
  · intro hne part hpart
    obtain ⟨st, endOffset, rfl, hsized⟩ := splitSegment_sized hne hsizes part hpart
    exact hsized.nonempty
  · intro part hpart
    by_cases hne : seg.envelopes = []
    · rw [splitSegment, hne] at hpart
      cases List.mem_singleton.mp hpart
      exact Or.inl (Nat.zero_le _)
    · obtain ⟨st, endOffset, rfl, hsized⟩ := splitSegment_sized hne hsizes part hpart
      have hcounted := hsized.counted
      rcases hsized.bounded with hle | hone
      · rw [hcounted] at hle
        exact Or.inl hle
      · exact Or.inr hone

/-- Multi-envelopes as the bodies that share a header. -/
def sharedHeaders : Protobuf where
  Multi := Header × List Body
  asMultiEnvelope env := (env.header, [env.body])
  tryAppendEnvelope multi env :=
    if multi.1 = env.header then some (multi.1, multi.2 ++ [env.body]) else none
  all multi := multi.2.map (Envelope.mk multi.1)
  validMulti _ := true
  validEnvelope _ := true
  invalidPosition _ := false
  validUUID _ := true
  validFilter filter := filter != .unset
  headerSize _ := 1
  bodySize _ := 1
  all_asMultiEnvelope := fun _ => rfl
  all_tryAppendEnvelope := by
    rintro ⟨header, bodies⟩ env multi' h
    obtain ⟨rfl, hmulti⟩ := Option.ite_none_right_eq_some.mp h
    cases hmulti
    simp
  valid_asMultiEnvelope := fun _ _ => rfl
  valid_tryAppendEnvelope := fun _ _ _ _ _ _ => rfl
  validFilter_all := rfl
  validFilter_specific := fun _ _ _ => rfl

/-- Of two small events that share a header and one that does not, the first two fit into
one part. -/
theorem splitSegment_splitInto_of_three :
    (splitSegment sharedHeaders 4 ⟨uuid 100, 0, 9,
        [eventEnvelope 1 7 2, eventEnvelope 1 7 3, eventEnvelope 2 7 6]⟩).map
          (fun part => (part.beginOffset, part.endOffset)) = [(0, 6), (6, 9)] ∧
      SplitInto 4 ⟨uuid 100, 0, 9,
        [eventEnvelope 1 7 2, eventEnvelope 1 7 3, eventEnvelope 2 7 6]⟩
        (splitSegment sharedHeaders 4 ⟨uuid 100, 0, 9,
          [eventEnvelope 1 7 2, eventEnvelope 1 7 3, eventEnvelope 2 7 6]⟩) :=
  ⟨by decide, splitSegment_splitInto sharedHeaders 4 ⟨by decide, by decide, by decide⟩
    (fun _ _ => Nat.zero_lt_two)⟩

end Runkit.EventStream
