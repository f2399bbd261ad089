/-
  Projection/Checkpoints.lean --- the checkpoint offsets that projection handlers are
  given, and what a handler makes of them that applies events optimistically.

  `Catalog.Consume` keeps a checkpoint of its own, which moves past events that the
  handler does not consume; the handler's checkpoint stays behind at the event that it
  has handled last.  What carries the proof is that nothing that the handler consumes is
  between the two (`Attempt.Valid`).  It does not depend on what the handler returns.
-/
import Runkit.Projection.Sink

set_option autoImplicit false

namespace Runkit

open Runkit.Foundation

/-! ## Steps of `Catalog.Consume` -/

namespace EventStream

variable {S W C : Type}

namespace Consumer

variable {log : EventLog} {c c' : Catalog S} {k k' : Consumer} {seg : Segment}

theorem Step.request (hstep : Step log c k c' k') :
    k'.streamID = k.streamID ∧ k'.types = k.types := by
  cases hstep <;> exact ⟨rfl, rfl⟩

/-- The checkpoint moves only when a segment has been passed to the consumer. -/
theorem Step.cp_eq (hstep : Step log c k c' k') (hidle : k.delivering = none) :
    k'.cp = k.cp := by
  cases hstep with
  | accept hphase =>
      rw [delivering, hphase] at hidle
      cases hidle
  | readAccept hphase =>
      rw [delivering, hphase] at hidle
      cases hidle
  | _ => rfl

theorem Step.cp_of_accepted (hstep : Step log c k c' k') (hseg : k.delivering = some seg)
    (haccepted : k'.accepted = k.accepted ++ [seg]) : k'.cp = seg.end_ := by
  cases hstep with
  | accept hphase =>
      rw [delivering, hphase] at hseg
      exact congrArg Segment.end_ (Option.some.inj hseg)
  | readAccept hphase =>
      rw [delivering, hphase] at hseg
      exact congrArg Segment.end_ (Option.some.inj hseg)
  | _ => simp at haccepted

theorem Valid.next_of_delivering (h : k.Valid log c) (hseg : k.delivering = some seg) :
    k.Next log seg := by
  have hphase := h.phase
  rw [delivering] at hseg
  split at hseg
  · rename_i cs f confirmed phase heq
    rw [heq] at hphase
    exact hphase.2.2 seg hseg
  · cases hseg

end Consumer

/-- What a step does to one of the calls of `Catalog.Consume`. -/
theorem World.Step.consumer [DecidableEq W] [DecidableEq C] {w w' : World S W C} {i : C}
    {k : Consumer} (hstep : World.Step w w') (hk : w.consumers i = some k) :
    w'.consumers i = some k ∨ ∃ c' k', w'.consumers i = some k' ∧
      Consumer.Step (w.logs k.streamID) w.catalog k c' k' := by
  cases hstep with
  | grow hextends => exact Or.inl hk
  | watch hnew hsize => exact Or.inl hk
  | watchStep hwatch hstep => exact Or.inl hk
  | @consume j streamID types begin hnew htypes =>
      have hne : i ≠ j := by
        intro heq
        rw [heq, hnew] at hk
        cases hk
      exact Or.inl ((Function.update_of_ne hne _ _).trans hk)
  | @consumeStep j k₀ k' catalog hconsumer hstep =>
      by_cases heq : i = j
      · subst heq
        cases hk.symm.trans hconsumer
        exact Or.inr ⟨_, _, Function.update_self .., hstep⟩
      · exact Or.inl ((Function.update_of_ne heq _ _).trans hk)

end EventStream

namespace Projection

open Runkit.EventStream

variable {N S W C H : Type}

/-! ## What the handler reports -/

/-- The offset that is reported to the attempt, if one is. -/
def Exchange.report : Exchange → Option Nat
  | .reported offset => some offset
  | .called _ _ => none

/-- The offset that the handler has most recently reported to the attempt. -/
def reportedTo [DecidableEq N] [DecidableEq C] (n : N) (i : C)
    (history : List (N × C × Exchange)) : Option Nat :=
  history.findSome? fun e => if e.1 = n ∧ e.2.1 = i then e.2.2.report else none

/-- What has been reported to the attempts of a node, after another exchange. -/
def hear [DecidableEq C] (reported : C → Option Nat) : Option (C × Exchange) → C → Option Nat
  | some (i, .reported offset) => Function.update reported i (some offset)
  | _ => reported

section

variable [DecidableEq N] [DecidableEq C] {history : List (N × C × Exchange)} {n m : N}
  {e : Option (C × Exchange)}

theorem reportedTo_record :
    (fun i => reportedTo n i (State.record history n e)) =
      hear (fun i => reportedTo n i history) e := by
  funext j
  match e with
  | none => rfl
  | some (i, .called scope event) => simp [State.record, reportedTo, hear, Exchange.report]
  | some (i, .reported offset) =>
      by_cases heq : i = j
      · subst heq
        simp [State.record, reportedTo, hear, Exchange.report]
      · simp [State.record, reportedTo, hear, heq, Ne.symm heq]

theorem reportedTo_record_of_ne (hne : m ≠ n) :
    (fun i => reportedTo m i (State.record history n e)) = fun i => reportedTo m i history := by
  funext j
  match e with
  | none => rfl
  | some (i, x) => simp [State.record, reportedTo, hne.symm]

theorem hear_of_ne {reported : C → Option Nat} {i j : C} {x : Exchange} (hne : j ≠ i) :
    hear reported (some (i, x)) j = reported j := by
  match x with
  | .called scope event => rfl
  | .reported offset => exact Function.update_of_ne hne _ _

end

/-! ## Attempts -/

/-- `Catalog.Consume` is passing a segment to the attempt, the handler has last reported
`cp` to it, and `rest` are the events between there and the end of the segment. -/
def Attempt.Receives (types : Finset UUID) (log : EventLog) (consumer : Option Consumer)
    (reported : Option Nat) (a : Attempt) (streamID : UUID) (cp : Nat) (rest : List Envelope) :
    Prop :=
  streamID = a.streamID ∧ reported = some cp ∧ ∃ k seg, consumer = some k ∧
    k.streamID = a.streamID ∧ k.types = types ∧ k.delivering = some seg ∧
    Covers log (some types) cp seg.end_ rest

/-- What holds of an attempt at all times.  The handler's checkpoint is that of
`Catalog.Consume`, or nothing that the handler consumes is between the two. -/
def Attempt.Valid (types : Finset UUID) (log : EventLog) (consumer : Option Consumer)
    (reported : Option Nat) (a : Attempt) : Prop :=
  match a.phase with
  | .resuming => consumer = none ∧ reported = some a.cp
  | .consuming => reported = some a.cp ∧ ∃ k, consumer = some k ∧
      k.streamID = a.streamID ∧ k.types = types ∧
      (k.cp = a.cp ∨ Covers log (some types) a.cp k.cp [])
  | .handling streamID cp rest => a.Receives types log consumer reported streamID cp rest
  | .called streamID cp env rest =>
      a.Receives types log consumer reported streamID cp (env :: rest)
  | .failed => True

namespace Attempt

variable {types : Finset UUID} {log later : EventLog} {consumer : Option Consumer}
  {reported : Option Nat} {a : Attempt} {streamID : UUID} {cp : Nat} {rest : List Envelope}

theorem Receives.grow (h : a.Receives types log consumer reported streamID cp rest)
    (hextends : log.Extends later) :
    a.Receives types later consumer reported streamID cp rest := by
  obtain ⟨hid, hreported, k, seg, hk, hstream, htypes, hseg, hcovers⟩ := h
  exact ⟨hid, hreported, k, seg, hk, hstream, htypes, hseg, hcovers.grow hextends⟩

theorem Valid.grow (h : a.Valid types log consumer reported) (hextends : log.Extends later) :
    a.Valid types later consumer reported := by
  unfold Valid at h ⊢
  split at h
  · exact h
  · obtain ⟨hreported, k, hk, hstream, htypes, hcp⟩ := h
    exact ⟨hreported, k, hk, hstream, htypes, hcp.imp_right fun hcovers => hcovers.grow hextends⟩
  · exact h.grow hextends
  · exact h.grow hextends
  · exact True.intro

/-- The handler handles the first of the events. -/
theorem Receives.next {env : Envelope} {offset : Nat}
    (h : a.Receives types log consumer reported streamID cp (env :: rest)) :
    { a with phase := afterDispatch streamID env.offset offset rest }.Valid types log consumer
      (some offset) := by
  obtain ⟨hid, -, k, seg, hk, hstream, htypes, hseg, hcovers⟩ := h
  -- Any other offset is a conflict, which ends the attempt.
  by_cases hoffset : offset = env.offset + 1
  · subst hoffset
    rw [afterDispatch, if_neg (not_not_intro rfl)]
    exact ⟨hid, rfl, k, seg, hk, hstream, htypes, hseg, hcovers.cons.2⟩
  · rw [afterDispatch, if_pos hoffset]
    exact True.intro

/-- What the handler is given to handle is the first event at or after the offset that it
has reported. -/
theorem Receives.first {env : Envelope}
    (h : a.Receives types log consumer reported streamID cp (env :: rest)) :
    Covers log (some types) cp (env.offset + 1) [env] := by
  obtain ⟨-, -, k, seg, -, -, -, -, hcovers⟩ := h
  exact hcovers.cons.1

/-- A segment is passed to the attempt. -/
theorem Valid.receive {logs : UUID → EventLog} {k : Consumer} {seg : Segment}
    (h : a.Valid types (logs a.streamID) consumer reported) (hphase : a.phase = .consuming)
    (hconsumer : consumer = some k) (hseg : k.delivering = some seg)
    (hnext : k.Next (logs k.streamID) seg) :
    a.Receives types (logs a.streamID) consumer reported seg.streamID a.cp seg.envelopes := by
  rw [Valid, hphase] at h
  obtain ⟨hreported, k', hk', hstream, htypes, hcp⟩ := h
  cases hconsumer.symm.trans hk'
  have hof : Covers (logs a.streamID) (some types) k.cp seg.end_ seg.envelopes := by
    rw [← hnext.begin_eq, ← htypes, ← hstream]
    exact hnext.of
  refine ⟨hnext.stream.trans hstream, hreported, k, seg, hconsumer, hstream, htypes, hseg, ?_⟩
  -- The handler's checkpoint may be behind the beginning of the segment.
  rcases hcp with hcp | hcp
  · rwa [← hcp]
  · exact hcp.append hof

/-- All events of the segment have been handled. -/
theorem Receives.accept {S : Type} {consumer' : Option Consumer} {k k' : Consumer}
    {seg : Segment} {c c' : Catalog S}
    (h : a.Receives types log consumer reported streamID cp []) (hconsumer : consumer = some k)
    (hseg : k.delivering = some seg) (hstep : Consumer.Step later c k c' k')
    (haccepted : k'.accepted = k.accepted ++ [seg]) (hconsumer' : consumer' = some k') :
    { a with cp := cp, phase := .consuming }.Valid types log consumer' reported := by
  obtain ⟨-, hreported, k₀, seg₀, hk₀, hstream, htypes, hseg₀, hcovers⟩ := h
  cases hconsumer.symm.trans hk₀
  cases hseg.symm.trans hseg₀
  have hrequest := hstep.request
  refine ⟨hreported, k', hconsumer', hrequest.1.trans hstream, hrequest.2.trans htypes, Or.inr ?_⟩
  rw [hstep.cp_of_accepted hseg haccepted]
  exact hcovers

end Attempt

/-! ## Nodes -/

namespace Node

/-- What holds of a node at all times, given what the handler has reported. -/
structure Valid (logs : UUID → EventLog) (types : Finset UUID) (reported : C → Option Nat)
    (node : Node S W C) : Prop where
  world : (node.world logs).Invariant
  attempts : ∀ i a, node.attempts i = some a →
    a.Valid types (logs a.streamID) (node.consumers i) (reported i)

variable {logs : UUID → EventLog} {types : Finset UUID} {reported reported' : C → Option Nat}
  {node node' : Node S W C}

theorem Valid.start (cacheSize : Nat) :
    (Node.start cacheSize : Node S W C).Valid (fun _ => Log.empty _ _) types reported where
  world := World.Invariant.start cacheSize
  attempts := nofun

variable [DecidableEq W] [DecidableEq C]

theorem Valid.grow {id : UUID} {log : EventLog} (h : node.Valid logs types reported)
    (hextends : (logs id).Extends log) :
    node.Valid (Function.update logs id log) types reported where
  world := h.world.step (.grow hextends)
  attempts := by
    intro i a ha
    exact (h.attempts i a ha).grow (hextends.update a.streamID)

omit [DecidableEq W] in
/-- One attempt, and the call of `Catalog.Consume` that it makes, have changed. -/
theorem Valid.change {i : C} {a : Attempt} (h : node.Valid logs types reported)
    (hworld : (node'.world logs).Invariant)
    (hattempts : node'.attempts = Function.update node.attempts i (some a))
    (hconsumers : ∀ j, j ≠ i → node'.consumers j = node.consumers j)
    (hreported : ∀ j, j ≠ i → reported' j = reported j)
    (ha : a.Valid types (logs a.streamID) (node'.consumers i) (reported' i)) :
    node'.Valid logs types reported' where
  world := hworld
  attempts := by
    intro j other hother
    rw [hattempts] at hother
    obtain ⟨rfl, hnew⟩ | ⟨hne, hold⟩ := update_eq_some hother
    · cases hnew
      exact ha
    · rw [hconsumers j hne, hreported j hne]
      exact h.attempts j other hold

/-- The catalog goes on without disturbing the attempts. -/
theorem Valid.background {w : World S W C} (h : node.Valid logs types reported)
    (hstep : World.Step (node.world logs) w) (hlogs : w.logs = logs)
    (hundisturbed : node.Undisturbed w) : (node.setWorld w).Valid logs types reported where
  world := by
    subst hlogs
    exact h.world.step hstep
  attempts := by
    intro i a ha
    have hvalid := h.attempts i a ha
    have hkeep : ∀ {streamID : UUID} {cp : Nat} {rest : List Envelope},
        a.Receives types (logs a.streamID) (node.consumers i) (reported i) streamID cp rest →
        a.Receives types (logs a.streamID) (w.consumers i) (reported i) streamID cp rest := by
      rintro streamID cp rest ⟨hid, hreported, k, seg, hk, hstream, htypes, hseg, hcovers⟩
      exact ⟨hid, hreported, k, seg, hundisturbed.delivering i a k seg ha hk hseg, hstream,
        htypes, hseg, hcovers⟩
    unfold Attempt.Valid at hvalid ⊢
    split at hvalid
    · exact ⟨hundisturbed.uncalled i a ha hvalid.1, hvalid.2⟩
    · obtain ⟨hreported, k, hk, hstream, htypes, hcp⟩ := hvalid
      -- The checkpoint of `Catalog.Consume` moves only while it passes on a segment, and
      -- then it waits for the attempt.
      cases hdelivering : k.delivering with
      | some seg =>
          exact ⟨hreported, k, hundisturbed.delivering i a k seg ha hk hdelivering, hstream,
            htypes, hcp⟩
      | none =>
          obtain hsame | ⟨c', k', hk', hconsumer⟩ := hstep.consumer hk
          · exact ⟨hreported, k, hsame, hstream, htypes, hcp⟩
          · have hrequest := hconsumer.request
            refine ⟨hreported, k', hk', hrequest.1.trans hstream, hrequest.2.trans htypes, ?_⟩
            rwa [hconsumer.cp_eq hdelivering]
    · exact hkeep hvalid
    · exact hkeep hvalid
    · exact True.intro

theorem Step.valid {sink : Sink H} {h h' : H} {e : Option (C × Exchange)}
    (hstep : Step sink logs h node e h' node')
    (hvalid : node.Valid logs sink.eventTypes reported) :
    node'.Valid logs sink.eventTypes (hear reported e) := by
  have hunheard : ∀ {i : C} (j : C), j ≠ i → hear reported none j = reported j :=
    fun _ _ => rfl
  cases hstep with
  | background hstep hlogs hundisturbed => exact hvalid.background hstep hlogs hundisturbed
  | resume hnew huncalled hhandler =>
      refine hvalid.change hvalid.world rfl (fun _ _ => rfl) (fun _ => hear_of_ne) ?_
      exact ⟨huncalled, Function.update_self ..⟩
  | resumeFailed hhandler => exact hvalid
  | @consume _ i a hattempt hphase hnew htypes =>
      have ha := hvalid.attempts i a hattempt
      rw [Attempt.Valid, hphase] at ha
      refine hvalid.change (hvalid.world.step (.consume hnew htypes)) rfl
        (fun _ hne => Function.update_of_ne hne _ _) hunheard ?_
      exact ⟨ha.2, _, Function.update_self .., rfl, rfl, Or.inl rfl⟩
  | @consumeSegment _ i a k seg hattempt hphase hconsumer hseg =>
      have ha := hvalid.attempts i a hattempt
      have hnext := (hvalid.world.consumers i k hconsumer).next_of_delivering hseg
      exact hvalid.change hvalid.world rfl (fun _ _ => rfl) hunheard
        (ha.receive hphase hconsumer hseg hnext)
  | dispatchFailed hattempt hphase =>
      exact hvalid.change hvalid.world rfl (fun _ _ => rfl) hunheard True.intro
  | @dispatch _ i a streamID cp env rest hattempt hphase hlock =>
      have ha := hvalid.attempts i a hattempt
      rw [Attempt.Valid, hphase] at ha
      exact hvalid.change hvalid.world rfl (fun _ _ => rfl) hunheard ha
  | @handled _ _ i a streamID cp next env rest hattempt hphase hhandler =>
      have ha := hvalid.attempts i a hattempt
      rw [Attempt.Valid, hphase] at ha
      refine hvalid.change hvalid.world rfl (fun _ _ => rfl) (fun _ => hear_of_ne) ?_
      rw [show hear reported (some (i, .reported next)) i = some next from
        Function.update_self ..]
      exact ha.next
  | handleFailed hattempt hphase hhandler =>
      exact hvalid.change hvalid.world rfl (fun _ _ => rfl) hunheard True.intro
  | @accept _ i a streamID cp k k' seg catalog hattempt hphase hconsumer hseg hstep haccepted =>
      have ha := hvalid.attempts i a hattempt
      rw [Attempt.Valid, hphase] at ha
      refine hvalid.change (hvalid.world.step (.consumeStep hconsumer hstep)) rfl
        (fun _ hne => Function.update_of_ne hne _ _) hunheard ?_
      exact ha.accept hconsumer hseg hstep haccepted (Function.update_self ..)
  | @reject _ i a k k' catalog hattempt hphase hconsumer hstep hrejected =>
      refine hvalid.change (i := i) (a := a) (hvalid.world.step (.consumeStep hconsumer hstep)) ?_
        (fun _ hne => Function.update_of_ne hne _ _) hunheard ?_
      · rw [← hattempt]
        exact (Function.update_eq_self ..).symm
      · rw [Attempt.Valid, hphase]
        exact True.intro

end Node

/-! ## Calls of `HandleEvent` -/

/-- The handler is given the first event at or after the offset that it has reported,
and is given that offset as well. -/
def Due (logs : UUID → EventLog) (types : Finset UUID) (reported : Option Nat)
    (scope : EventScope) (event : Message) : Prop :=
  reported = some scope.checkpointOffset ∧ ∃ id env,
    scope = dispatchScope id env.offset scope.checkpointOffset ∧ event = env.body.message ∧
    Covers (logs id) (some types) scope.checkpointOffset (env.offset + 1) [env]

theorem Due.grow {logs : UUID → EventLog} {types : Finset UUID} {reported : Option Nat}
    {scope : EventScope} {event : Message} {id : UUID} {log : EventLog}
    (h : Due logs types reported scope event) (hextends : (logs id).Extends log) :
    Due (Function.update logs id log) types reported scope event := by
  obtain ⟨hreported, id', env, hscope, hevent, hcovers⟩ := h
  exact ⟨hreported, id', env, hscope, hevent, hcovers.grow (hextends.update id')⟩

namespace Node

variable [DecidableEq W] [DecidableEq C] {logs : UUID → EventLog} {reported : C → Option Nat}
  {node node' : Node S W C} {sink : Sink H} {h h' : H}

theorem Step.due {i : C} {scope : EventScope} {event : Message}
    (hstep : Step sink logs h node (some (i, .called scope event)) h' node')
    (hvalid : node.Valid logs sink.eventTypes reported) :
    Due logs sink.eventTypes (reported i) scope event := by
  cases hstep with
  | @dispatch _ _ a streamID cp env rest hattempt hphase hlock =>
      have ha := hvalid.attempts i a hattempt
      rw [Attempt.Valid, hphase] at ha
      have hcovers := ha.first
      rw [← ha.1] at hcovers
      exact ⟨ha.2.1, streamID, env, rfl, rfl, hcovers⟩

/-- What a step does to the projection. -/
theorem Step.projection {e : Option (C × Exchange)} (hstep : Step sink logs h node e h' node')
    (hvalid : node.Valid logs sink.eventTypes reported) :
    h' = h ∨ (∃ id r, sink.handler.checkpointOffset h id r h') ∨
      ∃ id env cp r, Covers (logs id) (some sink.eventTypes) cp (env.offset + 1) [env] ∧
        sink.handler.handleEvent h (dispatchScope id env.offset cp) env.body.message r h' := by
  have hcalled : ∀ {i : C} {a : Attempt} {streamID : UUID} {cp : Nat} {env : Envelope}
      {rest : List Envelope}, node.attempts i = some a → a.phase = .called streamID cp env rest →
      Covers (logs streamID) (some sink.eventTypes) cp (env.offset + 1) [env] := by
    intro i a streamID cp env rest hattempt hphase
    have ha := hvalid.attempts i a hattempt
    rw [Attempt.Valid, hphase] at ha
    have hcovers := ha.first
    rwa [← ha.1] at hcovers
  cases hstep with
  | resume hnew huncalled hhandler => exact Or.inr (Or.inl ⟨_, _, hhandler⟩)
  | resumeFailed hhandler => exact Or.inr (Or.inl ⟨_, _, hhandler⟩)
  | handled hattempt hphase hhandler =>
      exact Or.inr (Or.inr ⟨_, _, _, _, hcalled hattempt hphase, hhandler⟩)
  | handleFailed hattempt hphase hhandler =>
      exact Or.inr (Or.inr ⟨_, _, _, _, hcalled hattempt hphase, hhandler⟩)
  | _ => exact Or.inl rfl

end Node

/-! ## Handlers that apply events optimistically -/

/-- The handler applies an event only if its checkpoint is the one that it is given, and
then stores the offset that follows the event, both at once; it returns the checkpoint
that is stored afterwards.  It may fail at any time. -/
structure Optimistic (handler : ProjectionHandler H) (stored : H → String → Nat)
    (applied : H → String → List (Nat × Message)) : Prop where
  checkpointOffset : ∀ h id r h', handler.checkpointOffset h id r h' →
    stored h' = stored h ∧ applied h' = applied h
  handleEvent : ∀ h scope event r h', handler.handleEvent h scope event r h' →
    (stored h scope.streamID = scope.checkpointOffset ∧
      stored h' = Function.update (stored h) scope.streamID (scope.offset + 1) ∧
      applied h' = Function.update (applied h) scope.streamID
        (applied h scope.streamID ++ [(scope.offset, event)]) ∧
      (r = some (scope.offset + 1) ∨ r = none)) ∨
    (stored h' = stored h ∧ applied h' = applied h ∧
      ((stored h scope.streamID ≠ scope.checkpointOffset ∧
        r = some (stored h scope.streamID)) ∨ r = none))

/-- What a handler is given of an event. -/
def handed (env : Envelope) : Nat × Message := (env.offset, env.body.message)

/-- The events that have been applied are those before the checkpoint. -/
def UpToDate (log : EventLog) (types : Finset UUID) (stored : Nat)
    (applied : List (Nat × Message)) : Prop :=
  ∃ events, Covers log (some types) 0 stored events ∧ applied = events.map handed

section

variable {log : EventLog} {types : Finset UUID} {cp : Nat} {applied : List (Nat × Message)}

theorem UpToDate.apply {env : Envelope} (h : UpToDate log types cp applied)
    (hcovers : Covers log (some types) cp (env.offset + 1) [env]) :
    UpToDate log types (env.offset + 1) (applied ++ [handed env]) := by
  obtain ⟨events, hevents, rfl⟩ := h
  refine ⟨events ++ [env], hevents.append hcovers, ?_⟩
  rw [List.map_append, List.map_singleton]

theorem UpToDate.applied_eq (h : UpToDate log types cp applied) :
    applied = (log.read (admits (some types)) 0 cp).map handed := by
  obtain ⟨events, hevents, rfl⟩ := h
  rw [hevents.complete]

end

/-- The streams and the projection agree. -/
def Projects (logs : UUID → EventLog) (types : Finset UUID) (stored : String → Nat)
    (applied : String → List (Nat × Message)) : Prop :=
  ∀ id : UUID, UpToDate (logs id) types (stored id.asString) (applied id.asString)

section

variable {logs : UUID → EventLog} {types : Finset UUID} {stored : H → String → Nat}
  {applied : H → String → List (Nat × Message)} {handler : ProjectionHandler H} {h h' : H}

theorem Projects.grow {id : UUID} {log : EventLog}
    (hprojects : Projects logs types (stored h) (applied h)) (hextends : (logs id).Extends log) :
    Projects (Function.update logs id log) types (stored h) (applied h) := by
  intro id'
  obtain ⟨events, hevents, happlied⟩ := hprojects id'
  exact ⟨events, hevents.grow (hextends.update id'), happlied⟩

/-- The handler is given the first event at or after some offset.  If that is not the
stored one, nothing happens. -/
theorem Projects.handleEvent (hprojects : Projects logs types (stored h) (applied h))
    (hoptimistic : Optimistic handler stored applied) {id : UUID} {env : Envelope} {cp : Nat}
    {r : Option Nat} (hcovers : Covers (logs id) (some types) cp (env.offset + 1) [env])
    (hhandler : handler.handleEvent h (dispatchScope id env.offset cp) env.body.message r h') :
    Projects logs types (stored h') (applied h') := by
  obtain ⟨hcp, hstored, happlied, -⟩ | ⟨hstored, happlied, -⟩ :=
    hoptimistic.handleEvent _ _ _ _ _ hhandler
  · rw [hstored, happlied]
    intro id'
    by_cases heq : id' = id
    · subst heq
      have hbefore := hprojects id'
      rw [show stored h id'.asString = cp from hcp] at hbefore
      simpa [dispatchScope, handed] using hbefore.apply hcovers
    · have hne : id'.asString ≠ id.asString := fun htext => heq (UUID.asString_injective htext)
      simpa [dispatchScope, Function.update_of_ne hne] using hprojects id'
  · rw [hstored, happlied]
    exact hprojects

end

/-! ## All nodes together -/

namespace State

variable [DecidableEq N] [DecidableEq W] [DecidableEq C] {sink : Sink H}
  {st st' : State N S W C H}

/-- What holds in every state. -/
structure Invariant (sink : Sink H) (st : State N S W C H) : Prop where
  nodes : ∀ n, (st.nodes n).Valid st.logs sink.eventTypes fun i => reportedTo n i st.history
  calls : ∀ n i scope event earlier,
    (n, i, Exchange.called scope event) :: earlier <:+ st.history →
    Due st.logs sink.eventTypes (reportedTo n i earlier) scope event

omit [DecidableEq W] in
theorem Invariant.start {cacheSize : N → Nat} {h : H} :
    (State.start cacheSize h : State N S W C H).Invariant sink where
  nodes := fun n => Node.Valid.start (cacheSize n)
  calls := by
    intro n i scope event earlier hsuffix
    cases List.suffix_nil.mp hsuffix

theorem Invariant.step (h : st.Invariant sink) (hstep : Step sink st st') :
    st'.Invariant sink := by
  cases hstep with
  | grow hextends =>
      refine ⟨fun n => (h.nodes n).grow hextends, ?_⟩
      intro n i scope event earlier hsuffix
      exact (h.calls n i scope event earlier hsuffix).grow hextends
  | @node n node e p hstep =>
      have hvalid := h.nodes n
      refine ⟨?_, ?_⟩
      · intro m
        by_cases heq : m = n
        · subst heq
          have hvalid' := hstep.valid hvalid
          rw [← reportedTo_record] at hvalid'
          simpa using hvalid'
        · simpa [Function.update_of_ne heq, reportedTo_record_of_ne heq] using h.nodes m
      · intro m i scope event earlier hsuffix
        match e, hstep, hsuffix with
        | none, _, hsuffix => exact h.calls m i scope event earlier hsuffix
        | some (j, x), hstep, hsuffix =>
            obtain hnew | hold := List.suffix_cons_iff.mp hsuffix
            · cases hnew
              exact hstep.due hvalid
            · exact h.calls m i scope event earlier hold

/-- A step keeps the projection up to date if the handler is optimistic. -/
theorem Step.projects {stored : H → String → Nat} {applied : H → String → List (Nat × Message)}
    (hstep : Step sink st st') (h : st.Invariant sink)
    (hoptimistic : Optimistic sink.handler stored applied)
    (hprojects : Projects st.logs sink.eventTypes (stored st.projection) (applied st.projection)) :
    Projects st'.logs sink.eventTypes (stored st'.projection) (applied st'.projection) := by
  cases hstep with
  | grow hextends => exact hprojects.grow hextends
  | @node n node e p hstep =>
      change Projects st.logs sink.eventTypes (stored p) (applied p)
      obtain rfl | ⟨id, r, hcheckpoint⟩ | ⟨id, env, cp, r, hcovers, hhandle⟩ :=
        hstep.projection (h.nodes n)
      · exact hprojects
      · obtain ⟨hstored, happlied⟩ := hoptimistic.checkpointOffset _ _ _ _ hcheckpoint
        rw [hstored, happlied]
        exact hprojects
      · exact hprojects.handleEvent hoptimistic hcovers hhandle

theorem invariant_of_reaches {cacheSize : N → Nat} {h : H}
    (hreaches : Reaches sink (start cacheSize h) st) : st.Invariant sink := by
  refine run_preserves ?_ hreaches .start
  intro st st' hst hstep
  exact hst.step hstep

theorem projects_of_reaches {cacheSize : N → Nat} {h : H} {stored : H → String → Nat}
    {applied : H → String → List (Nat × Message)}
    (hreaches : Reaches sink (start cacheSize h) st)
    (hoptimistic : Optimistic sink.handler stored applied)
    (hstart : ∀ id, stored h id = 0 ∧ applied h id = []) :
    Projects st.logs sink.eventTypes (stored st.projection) (applied st.projection) := by
  have hpreserves : ∀ st st' : State N S W C H,
      (st.Invariant sink ∧
        Projects st.logs sink.eventTypes (stored st.projection) (applied st.projection)) →
      Step sink st st' →
      st'.Invariant sink ∧
        Projects st'.logs sink.eventTypes (stored st'.projection) (applied st'.projection) := by
    intro st st' hst hstep
    exact ⟨hst.1.step hstep, hstep.projects hst.1 hoptimistic hst.2⟩
  refine (run_preserves hpreserves hreaches ⟨.start, ?_⟩).2
  intro id
  obtain ⟨hstored, happlied⟩ := hstart id.asString
  refine ⟨[], ?_, happlied⟩
  rw [show stored (start cacheSize h : State N S W C H).projection id.asString = 0 from hstored]
  exact .empty (Nat.zero_le _)

/-- What holds of a projection, whatever its handler returns.  Each event that the
handler is given is one of its types, and is the first one at or after the offset that
the handler has most recently reported to the attempt, which it is given as well.  If the
handler applies events optimistically, it has applied exactly the events of its types
before the checkpoint that it has stored, once each and in their order. -/
theorem projection_checkpoints {cacheSize : N → Nat} {h : H}
    (hreaches : Reaches sink (start cacheSize h) st) :
    (∀ n i scope event earlier,
      (n, i, Exchange.called scope event) :: earlier <:+ st.history →
      ∃ id env, scope.streamID = id.asString ∧ env ∈ (st.logs id).entries ∧
        env.offset = scope.offset ∧ env.body.message = event ∧
        admits (some sink.eventTypes) env = true ∧
        reportedTo n i earlier = some scope.checkpointOffset ∧
        scope.checkpointOffset ≤ scope.offset ∧
        (st.logs id).read (admits (some sink.eventTypes)) scope.checkpointOffset
          scope.offset = []) ∧
    (∀ (stored : H → String → Nat) (applied : H → String → List (Nat × Message)),
      Optimistic sink.handler stored applied →
      (∀ id, stored h id = 0 ∧ applied h id = []) →
      ∀ id : UUID,
        applied st.projection id.asString =
          ((st.logs id).read (admits (some sink.eventTypes)) 0
            (stored st.projection id.asString)).map handed ∧
        (applied st.projection id.asString).Pairwise fun a b => a.1 < b.1) := by
  refine ⟨?_, ?_⟩
  · intro n i scope event earlier hsuffix
    obtain ⟨hreported, id, env, hscope, hevent, hcovers⟩ :=
      (invariant_of_reaches hreaches).calls n i scope event earlier hsuffix
    have hoffset : env.offset = scope.offset := by rw [hscope]; rfl
    have hmem : env ∈ (st.logs id).read (admits (some sink.eventTypes)) scope.checkpointOffset
        (env.offset + 1) := by
      rw [← hcovers.complete]
      exact List.mem_singleton_self env
    obtain ⟨hentry, hle, -, hadmits⟩ := Log.mem_read_iff.mp hmem
    have hsplit : Covers (st.logs id) (some sink.eventTypes) scope.checkpointOffset
        (env.offset + 1) ([] ++ [env]) := hcovers
    have hbefore := hsplit.split.1.complete
    rw [hoffset] at hle hbefore
    refine ⟨id, env, ?_, hentry, hoffset, hevent.symm, hadmits, hreported, hle, hbefore.symm⟩
    rw [hscope]
    rfl
  · intro stored applied hoptimistic hstart id
    have hprojects := projects_of_reaches hreaches hoptimistic hstart
    have happlied := (hprojects id).applied_eq
    refine ⟨happlied, ?_⟩
    rw [happlied, List.pairwise_map]
    exact Log.read_pairwise _ _ _ _

end State

/-! ## A run -/

namespace Node

variable [DecidableEq W] [DecidableEq C] {sink : Sink H} {logs : UUID → EventLog} {h : H}
  {node : Node S W C}

/-- `Catalog.Consume` goes on while it does not pass a segment to the attempt. -/
theorem Step.consumed {i : C} {k k' : Consumer} {catalog : Catalog S}
    (hconsumer : node.consumers i = some k) (hidle : k.delivering = none)
    (hstep : Consumer.Step (logs k.streamID) node.catalog k catalog k') :
    Step sink logs h node none h { node.setConsumer i k' with catalog := catalog } := by
  refine .background (w := { (node.setConsumer i k').world logs with catalog := catalog })
    (.consumeStep hconsumer hstep) rfl ⟨?_, ?_⟩
  · intro j a ha hj
    have hne : j ≠ i := by
      rintro rfl
      cases hconsumer.symm.trans hj
    exact (Function.update_of_ne hne _ _).trans hj
  · intro j a other seg ha hj hseg
    have hne : j ≠ i := by
      rintro rfl
      cases hconsumer.symm.trans hj
      cases hidle.symm.trans hseg
    exact (Function.update_of_ne hne _ _).trans hj

end Node

/-- A node that makes no attempts. -/
def Node.ofWorld (w : World S W C) : Node S W C where
  catalog := w.catalog
  watches := w.watches
  consumers := w.consumers
  attempts := fun _ => none
  locked := false

namespace State

/-- A system of one node. -/
def single (logs : UUID → EventLog) (node : Node S W C) (h : H)
    (history : List (Unit × C × Exchange)) : State Unit S W C H where
  logs := logs
  nodes := fun _ => node
  projection := h
  history := history

variable [DecidableEq W] [DecidableEq C] {sink : Sink H} {st₀ : State Unit S W C H}
  {logs : UUID → EventLog} {node node' : Node S W C} {h h' : H}
  {history : List (Unit × C × Exchange)}

theorem Reaches.stepped {e : Option (C × Exchange)}
    (hrun : Reaches sink st₀ (single logs node h history))
    (hstep : Node.Step sink logs h node e h' node') :
    Reaches sink st₀ (single logs node' h' (record history () e)) := by
  have hnodes : Function.update (fun _ : Unit => node) () node' = fun _ => node' := by
    funext n
    exact Function.update_self ..
  have hnext : Step sink (single logs node h history)
      { single logs node h history with
        nodes := Function.update (fun _ => node) () node'
        projection := h'
        history := record history () e } := .node hstep
  rw [hnodes] at hnext
  exact .tail hrun hnext

theorem Reaches.consumed {catalog catalog' : Catalog S} {watches : W → Option (Watch S)}
    {consumers : C → Option Consumer} {attempts : C → Option Attempt} {locked : Bool}
    (hrun : Reaches sink st₀
      (single logs ⟨catalog, watches, consumers, attempts, locked⟩ h history))
    (i : C) {k k' : Consumer} (hconsumer : consumers i = some k) (hidle : k.delivering = none)
    (hstep : Consumer.Step (logs k.streamID) catalog k catalog' k') :
    Reaches sink st₀
      (single logs ⟨catalog', watches, Function.update consumers i (some k'), attempts, locked⟩
        h history) :=
  hrun.stepped (.consumed hconsumer hidle hstep)

/-- The catalog does what it does on its own. -/
theorem Reaches.catalog {w w' : World S W C}
    (hrun : Reaches sink st₀ (single w.logs (.ofWorld w) h history))
    (hcatalog : World.Reaches w w') :
    Reaches sink st₀ (single w'.logs (.ofWorld w') h history) := by
  have hundisturbed : ∀ v v' : World S W C, (Node.ofWorld v).Undisturbed v' := by
    intro v v'
    refine ⟨?_, ?_⟩
    · intro i a ha
      cases ha
    · intro i a k seg ha
      cases ha
  induction hcatalog with
  | refl => exact hrun
  | @tail v v' _ hstep ih =>
      cases hstep with
      | grow hextends => exact .tail ih (.grow hextends)
      | watch hnew hsize =>
          exact ih.stepped (.background (.watch hnew hsize) rfl (hundisturbed v _))
      | watchStep hwatch hstep =>
          exact ih.stepped (.background (.watchStep hwatch hstep) rfl (hundisturbed v _))
      | consume hnew htypes =>
          exact ih.stepped (.background (.consume hnew htypes) rfl (hundisturbed v _))
      | consumeStep hconsumer hstep =>
          exact ih.stepped (.background (.consumeStep hconsumer hstep) rfl (hundisturbed v _))

end State

/-- A projection that keeps the events of each stream. -/
structure Table where
  stored : String → Nat
  applied : String → List (Nat × Message)

namespace Table

def empty : Table where
  stored := fun _ => 0
  applied := fun _ => []

/-- The table once the event has been applied. -/
def apply (t : Table) (scope : EventScope) (event : Message) : Table where
  stored := Function.update t.stored scope.streamID (scope.offset + 1)
  applied := Function.update t.applied scope.streamID
    (t.applied scope.streamID ++ [(scope.offset, event)])

theorem stored_apply (t : Table) (scope : EventScope) (event : Message) :
    (t.apply scope event).stored scope.streamID = scope.offset + 1 :=
  Function.update_self ..

/-- A handler that applies events optimistically, and never fails. -/
def handler : ProjectionHandler Table where
  checkpointOffset := fun t streamID r t' => r = some (t.stored streamID) ∧ t' = t
  handleEvent := fun t scope event r t' =>
    if t.stored scope.streamID = scope.checkpointOffset then
      r = some (scope.offset + 1) ∧ t' = t.apply scope event
    else
      r = some (t.stored scope.streamID) ∧ t' = t

theorem handler_optimistic : Optimistic handler stored applied where
  checkpointOffset := by
    rintro t streamID r t' ⟨-, rfl⟩
    exact ⟨rfl, rfl⟩
  handleEvent := by
    intro t scope event r t' hhandle
    simp only [handler] at hhandle
    split at hhandle
    · rename_i hcp
      obtain ⟨rfl, rfl⟩ := hhandle
      exact Or.inl ⟨hcp, rfl, rfl, Or.inl rfl⟩
    · rename_i hcp
      obtain ⟨rfl, rfl⟩ := hhandle
      exact Or.inr ⟨rfl, rfl, Or.inl ⟨hcp, rfl⟩⟩

theorem handleEvent_apply {t : Table} {scope : EventScope} {event : Message}
    (hcp : t.stored scope.streamID = scope.checkpointOffset) :
    handler.handleEvent t scope event (some (scope.offset + 1)) (t.apply scope event) := by
  simp [handler, hcp]

/-- A sink that consumes events of one of the types in `twoEvents`. -/
def sink : Sink Table where
  handler := handler
  eventTypes := {uuid 4}
  handlerLock := true

end Table

/-- All of `twoEvents`, for a consumer of the second one. -/
def sparseSegment : Segment := ⟨uuid 100, 0, 2, [eventEnvelope 21 4 1]⟩

/-- The handler resumes from the beginning of the stream, and handles the second event,
which is the first one that it consumes. -/
theorem table_reached : ∃ st : State Unit Unit Unit Unit Table,
    State.Reaches Table.sink (.start (fun _ => 1) .empty) st ∧
      st.logs (uuid 100) = twoEvents ∧
      st.projection.stored (uuid 100).asString = 2 ∧
      st.history =
        [((), (), .reported 2),
          ((), (), .called (dispatchScope (uuid 100) 1 0) ⟨uuid 4, []⟩),
          ((), (), .reported 0)] := by
  obtain ⟨w, hw, hfed⟩ := fed_reached (C := Unit) () ()
  have hsegment : sparseSegment.Of (w.logs (uuid 100)) (some {uuid 4}) := by
    rw [hfed.log]
    exact ⟨by decide, by decide, by decide⟩
  have h : State.Reaches Table.sink (.start (fun _ => 1) .empty)
    (.single w.logs (.ofWorld w) .empty []) := State.Reaches.catalog (w := World.start 1) .refl hw
  have h := h.stepped (@Node.Step.resume Unit Unit Unit Table _ _ _ _ _ _ _ () (uuid 100) 0
    rfl (hfed.consumers ()) ⟨rfl, rfl⟩)
  have h := h.stepped (.consume rfl rfl (hfed.consumers ()) (by decide))
  -- The first event is not cached, so that the segment is read from the source.
  have h := State.Reaches.consumed h () rfl rfl (.found rfl hfed.free hfed.listed)
  have h := h.consumed () rfl rfl (.enter rfl hfed.stream rfl hfed.feed rfl)
  have h := h.consumed () rfl rfl (.load rfl hfed.feed)
  have h := h.consumed () rfl rfl
    (@Consumer.Step.startRead Unit _ _ _ 0 0 false (.before 0) _ rfl hfed.feed rfl)
  have h := h.consumed () rfl rfl (@Consumer.Step.readDeliver Unit _ _ _ 0 0 false
    (.before 0) sparseSegment rfl rfl rfl hsegment)
  have h := h.stepped (@Node.Step.consumeSegment Unit Unit Unit Table _ _ _ _ _ _ () _ _
    sparseSegment rfl rfl rfl rfl)
  have h := h.stepped (@Node.Step.dispatch Unit Unit Unit Table _ _ _ _ _ _ () _ (uuid 100) 0
    (eventEnvelope 21 4 1) [] rfl rfl fun _ => rfl)
  have h := h.stepped (@Node.Step.handled Unit Unit Unit Table _ _ _ _ _ _ _ () _ (uuid 100) 0
    2 (eventEnvelope 21 4 1) [] rfl rfl (Table.handleEvent_apply rfl))
  exact ⟨_, h, hfed.log, Table.stored_apply .empty (dispatchScope (uuid 100) 1 0) _, rfl⟩

theorem projection_checkpoints_table : ∃ st : State Unit Unit Unit Unit Table,
    (∃ earlier, ((), (), Exchange.called (dispatchScope (uuid 100) 1 0) ⟨uuid 4, []⟩) :: earlier
        <:+ st.history ∧ reportedTo () () earlier = some 0) ∧
      st.projection.applied (uuid 100).asString = [(1, ⟨uuid 4, []⟩)] := by
  obtain ⟨st, hreaches, hlog, hstored, hhistory⟩ := table_reached
  have hmain := State.projection_checkpoints hreaches
  have hsuffix : ((), (), Exchange.called (dispatchScope (uuid 100) 1 0) ⟨uuid 4, []⟩) ::
      [((), (), .reported 0)] <:+ st.history := by
    rw [hhistory]
    exact List.suffix_cons _ _
  obtain ⟨id, env, -, -, -, -, -, hreported, -⟩ := hmain.1 _ _ _ _ _ hsuffix
  obtain ⟨happlied, -⟩ := hmain.2 Table.stored Table.applied Table.handler_optimistic
    (fun _ => ⟨rfl, rfl⟩) (uuid 100)
  rw [hstored, hlog] at happlied
  exact ⟨st, ⟨_, hsuffix, hreported⟩, happlied⟩

end Projection

end Runkit
