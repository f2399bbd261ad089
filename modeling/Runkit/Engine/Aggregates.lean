/-
  Engine/Aggregates.lean --- the root of an aggregate instance is a replay of its
  events.

  Snapshots may be stale, missing or unusable, and instances may be created by
  several transactions at once.  None of this shows: the root that a handler is
  given is a new root to which all committed events of the instance have been
  applied.  The invariant behind it says that all of these events are on one
  stream, and that a snapshot is the replay of the events up to its offset.
-/
import Runkit.Aggregate.Observe
import Runkit.Engine.Streams

set_option autoImplicit false

namespace Runkit.Aggregate

open Runkit.Foundation Runkit.Schema

variable {ρ : Type}

/-! ## What a handler records -/

/-- Unless the handler is stopped by a panic, `RecordEvent` applies the event to the root
if it packs it.  It packs the event before it is validated, so a handler that recovers from
a later panic goes on with a root that lacks the event. -/
def RecordCall.AppliesPacked (h : AggregateHandler ρ) (call : RecordCall) : Prop :=
  call.recovers = true → call.event.message.typeID ∈ h.outboundMessageTypes →
    call.valid = true ∧ call.applies = true

/-- A call after which the handler goes on has applied the event that it packed, if any. -/
theorem recordEvent_root {h : AggregateHandler ρ} {cause : Envelope} {instanceID : String}
    {call : RecordCall} {scope next : Scope ρ} {panics : Bool} (happlies : call.AppliesPacked h)
    (hrecovers : panics = true → call.recovers = true)
    (hnext : recordEvent h cause instanceID call scope = (next, panics)) :
    next.root = (packedEvents h cause instanceID [call]).foldl
      (fun root env => h.applyEvent root env.body.message) scope.root := by
  unfold recordEvent at hnext
  split at hnext
  · rename_i htype
    cases hnext
    simp [packedEvents, htype]
  · rename_i htype
    have hpacked := not_not.mp htype
    dsimp only at hnext
    split at hnext
    · rename_i hinvalid
      cases hnext
      obtain ⟨hvalid, -⟩ := happlies (hrecovers rfl) hpacked
      simp [hvalid] at hinvalid
    · split at hnext
      · rename_i hunapplied
        cases hnext
        obtain ⟨-, hreturns⟩ := happlies (hrecovers rfl) hpacked
        simp [hreturns] at hunapplied
      · cases hnext
        simp [packedEvents, hpacked]

/-- A handler that applies what it packs leaves a root to which all of its events have been
applied. -/
theorem recordEvents_root {h : AggregateHandler ρ} {cause : Envelope} {instanceID : String}
    {calls : List RecordCall} {scope scope' : Scope ρ}
    (happlies : ∀ call ∈ calls, call.AppliesPacked h)
    (hrecord : recordEvents h cause instanceID calls scope = some scope') :
    scope'.root = (packedEvents h cause instanceID calls).foldl
      (fun root env => h.applyEvent root env.body.message) scope.root := by
  induction calls generalizing scope with
  | nil =>
      cases hrecord
      rfl
  | cons call rest ih =>
      have hcall := happlies call List.mem_cons_self
      have hrest : ∀ call ∈ rest, call.AppliesPacked h :=
        fun call hcall => happlies call (List.mem_cons_of_mem _ hcall)
      rw [packedEvents_cons, List.foldl_append]
      unfold recordEvents at hrecord
      split at hrecord
      · rename_i next hnext
        rw [← recordEvent_root hcall (by simp) hnext]
        exact ih hrest hrecord
      · rename_i next hnext
        split at hrecord
        · rename_i hrecovers
          rw [← recordEvent_root hcall (fun _ => hrecovers) hnext]
          exact ih hrest hrecord
        · cases hrecord

theorem handleCommand_root {h : AggregateHandler ρ} {a : Attempt} {cause : Envelope}
    {instanceID : String} {root : ρ} {scope : Scope ρ}
    (happlies : ∀ call ∈ a.records, call.AppliesPacked h)
    (hscope : handleCommand h a cause instanceID root = some scope) :
    scope.root = scope.events.foldl
      (fun root env => h.applyEvent root env.body.message) root := by
  rw [handleCommand_events hscope]
  unfold handleCommand at hscope
  split at hscope
  · cases hscope
  · rename_i scope' hrecord
    split at hscope
    · cases hscope
      exact recordEvents_root happlies hrecord
    · cases hscope

theorem replay_append (h : AggregateHandler ρ) (root : ρ) (front back : List EventRow) :
    replay h root (front ++ back) = replay h (replay h root front) back :=
  List.foldl_append ..

theorem replay_eventRows (h : AggregateHandler ρ) (root : ρ) {streamID correlationID : UUID}
    {aggregate : Option (UUID × String)} {base : Nat} {events : List Envelope} :
    replay h root (EventStream.eventRows streamID correlationID aggregate base events) =
      events.foldl (fun root env => h.applyEvent root env.body.message) root := by
  have henvelopes := @EventStream.eventRows_envelopes streamID correlationID aggregate base events
  conv_rhs => rw [← henvelopes, List.foldl_map]
  rfl

end Runkit.Aggregate

namespace Runkit.Engine

open Runkit.Foundation Runkit.Schema Runkit.MessagePump

variable {ρ : Type}

/-! ## Reading the events of an instance -/

section Reading

variable {id : UUID} {stream : Stream} {key : UUID} {instanceID : String}

theorem Dense.filter_eq_window (h : Dense id stream) (p : EventRow → Bool) :
    stream.events.filter p = window (·.streamOffset) p 0 stream.next stream.events := by
  apply List.filter_congr
  intro row hrow
  have hbelow := h.below row hrow
  simp [hbelow]

/-- The query of `applyHistoricalEvents` returns a window of the stream. -/
theorem Dense.historicalEvents_eq (h : Dense id stream) (lo : Nat) :
    Aggregate.historicalEvents key instanceID lo stream =
      window (·.streamOffset) (Aggregate.recordedBy key instanceID) lo stream.next
        stream.events := by
  have hfilter : (stream.events.filter fun row =>
      Aggregate.recordedBy key instanceID row && decide (lo ≤ row.streamOffset)) =
        window (·.streamOffset) (Aggregate.recordedBy key instanceID) lo stream.next
          stream.events := by
    apply List.filter_congr
    intro row hrow
    have hbelow := h.below row hrow
    simp [hbelow, Bool.and_comm]
  have hsorted : (window (·.streamOffset) (Aggregate.recordedBy key instanceID) lo stream.next
      stream.events).Pairwise fun a b => a.streamOffset ≤ b.streamOffset := by
    apply window_pairwise
    exact h.sorted.imp Nat.le_of_lt
  unfold Aggregate.historicalEvents
  rw [hfilter]
  exact List.Pairwise.insertionSort_eq hsorted

end Reading

/-! ## Instances and their events -/

/-- The stream that an instance is bound to. -/
def boundTo (rows : Database) (key : UUID) (instanceID : String) : Option UUID :=
  (rows (.aggregateInstance key instanceID)).bind (·.streamID)

/-- What holds of an instance, its events and its snapshot. -/
structure InstanceInvariant (app : Application ρ) (rows : Database) (key : UUID)
    (instanceID : String) : Prop where
  /-- All events of the instance are on the stream that it is bound to. -/
  confined : ∀ id, boundTo rows key instanceID ≠ some id →
    Aggregate.instanceEvents key instanceID (rows (.stream id)) = []
  unbound : ∀ row, rows (.aggregateInstance key instanceID) = some row →
    row.streamID = none → row.snapshotOffset = none
  /-- A snapshot is the replay of the events up to its offset. -/
  snapshot : ∀ row id offset, rows (.aggregateInstance key instanceID) = some row →
    row.streamID = some id → row.snapshotOffset = some offset →
      offset < (rows (.stream id)).next ∧
        (app.aggregate key).unmarshalBinary (app.aggregate key).new row.snapshot =
          Aggregate.replay (app.aggregate key) (app.aggregate key).new
            (window (·.streamOffset) (Aggregate.recordedBy key instanceID) 0 (offset + 1)
              (rows (.stream id)).events)

/-- The committed events of an instance, in the order of their offsets. -/
def committedEvents (rows : Database) (key : UUID) (instanceID : String) : List EventRow :=
  match boundTo rows key instanceID with
  | none => []
  | some id => Aggregate.instanceEvents key instanceID (rows (.stream id))

theorem boundTo_of_row {rows : Database} {key : UUID} {instanceID : String}
    {row : AggregateInstanceRow}
    (hrow : row = (rows (.aggregateInstance key instanceID)).getD Aggregate.newInstanceRow) :
    boundTo rows key instanceID = row.streamID := by
  unfold boundTo
  cases hinstance : rows (.aggregateInstance key instanceID) with
  | none =>
      rw [hinstance] at hrow
      subst hrow
      rfl
  | some stored =>
      rw [hinstance] at hrow
      subst hrow
      rfl

/-- A row that is not that of a new instance has been stored. -/
theorem stored_of_ne_new {rows : Database} {key : UUID} {instanceID : String}
    {row : AggregateInstanceRow}
    (hrow : row = (rows (.aggregateInstance key instanceID)).getD Aggregate.newInstanceRow)
    (hne : row ≠ Aggregate.newInstanceRow) :
    rows (.aggregateInstance key instanceID) = some row := by
  cases hinstance : rows (.aggregateInstance key instanceID) with
  | none =>
      rw [hinstance] at hrow
      exact absurd hrow hne
  | some stored =>
      rw [hinstance] at hrow
      rw [hrow, Option.getD_some]

theorem committedEvents_of_row {rows : Database} {key : UUID} {instanceID : String}
    {row : AggregateInstanceRow}
    (hrow : row = (rows (.aggregateInstance key instanceID)).getD Aggregate.newInstanceRow) :
    committedEvents rows key instanceID =
      match row.streamID with
      | none => []
      | some id => Aggregate.instanceEvents key instanceID (rows (.stream id)) := by
  unfold committedEvents
  rw [boundTo_of_row hrow]

/-- Whatever becomes of the snapshot, the root that is loaded is the replay of
all committed events of the instance. -/
theorem loadedRoot_eq_replay {app : Application ρ} {rows : Database} {key : UUID}
    {instanceID : String} {a : Aggregate.Attempt} {row : AggregateInstanceRow}
    (hdense : ∀ id, Dense id (rows (.stream id)))
    (hinv : InstanceInvariant app rows key instanceID)
    (hrow : row = (rows (.aggregateInstance key instanceID)).getD Aggregate.newInstanceRow) :
    Aggregate.loadedRoot (app.aggregate key) a rows instanceID row =
      Aggregate.replay (app.aggregate key) (app.aggregate key).new
        (committedEvents rows key instanceID) := by
  rw [committedEvents_of_row hrow]
  unfold Aggregate.loadedRoot
  cases hstream : row.streamID with
  | none => rfl
  | some id =>
      have hstored : rows (.aggregateInstance key instanceID) = some row := by
        apply stored_of_ne_new hrow
        intro hnew
        rw [hnew] at hstream
        cases hstream
      have hdense' := hdense id
      simp only [app.aggregate_key, hdense'.historicalEvents_eq, Aggregate.instanceEvents,
        hdense'.filter_eq_window]
      split
      · rename_i hused
        obtain ⟨hoffset, -⟩ := hused
        cases hsnapshot : row.snapshotOffset with
        | none =>
            rw [Aggregate.nextOffset, hsnapshot] at hoffset
            exact absurd rfl hoffset
        | some offset =>
            obtain ⟨hbelow, hunmarshal⟩ := hinv.snapshot row id offset hstored hstream hsnapshot
            have hnext : Aggregate.nextOffset row = offset + 1 := by
              rw [Aggregate.nextOffset, hsnapshot]
            rw [hnext, hunmarshal, ← Aggregate.replay_append,
              ← window_split hdense'.sorted (Nat.zero_le _) hbelow]
      · rfl

/-! ## What one transaction does -/

/-- The handler of an aggregate does not recover from panics of `RecordEvent`. -/
def NoRecovery : Request ρ → Prop
  | .aggregateCommand _ _ a => ∀ call ∈ a.records, call.recovers = false
  | _ => True

/-- The handler of an aggregate does not go on after a panic of `RecordEvent` that left an
event packed but not applied. -/
def AppliesPacked (app : Application ρ) : Request ρ → Prop
  | .aggregateCommand key _ a =>
      ∀ call ∈ a.records, call.AppliesPacked (app.aggregate key)
  | _ => True

theorem NoRecovery.appliesPacked {app : Application ρ} {r : Request ρ} (h : NoRecovery r) :
    AppliesPacked app r := by
  cases r with
  | aggregateCommand key c a =>
      intro call hcall hrecovers
      cases (h call hcall).symm.trans hrecovers
  | _ => exact True.intro

/-- What is unmarshaled is what was marshaled. -/
def Unmarshals (app : Application ρ) : Prop :=
  ∀ key root data, (app.aggregate key).marshalBinary root = some data →
    (app.aggregate key).unmarshalBinary (app.aggregate key).new (some data) = root

section Commit

variable {app : Application ρ} {before after : Database} {key : UUID} {instanceID : String}

/-- Snapshots stay valid while a stream grows. -/
theorem InstanceInvariant.grow (hinv : InstanceInvariant app before key instanceID)
    (hgrows : ∀ id, Grows (before (.stream id)) (after (.stream id)))
    (hrow : after (.aggregateInstance key instanceID) =
      before (.aggregateInstance key instanceID))
    (hevents : ∀ id, Aggregate.instanceEvents key instanceID (after (.stream id)) =
      Aggregate.instanceEvents key instanceID (before (.stream id))) :
    InstanceInvariant app after key instanceID where
  confined := by
    intro id hid
    rw [boundTo, hrow] at hid
    rw [hevents id]
    exact hinv.confined id hid
  unbound := by
    rw [hrow]
    exact hinv.unbound
  snapshot := by
    intro row id offset hstored hstream hoffset
    rw [hrow] at hstored
    obtain ⟨hbelow, hunmarshal⟩ := hinv.snapshot row id offset hstored hstream hoffset
    refine ⟨Nat.lt_of_lt_of_le hbelow (hgrows id).next_le, ?_⟩
    rw [hunmarshal, (hgrows id).read_eq _ 0 (offset + 1) hbelow]

section Completed

variable {a : Aggregate.Attempt} {messageID : UUID} {cause : Envelope}
  {row : AggregateInstanceRow} {scope : Aggregate.Scope ρ} {streamID : UUID} {base : Nat}

/-- The events of the instance after a command has been handled are those before,
followed by the ones recorded. -/
theorem instanceEvents_completed {correlationID : UUID} {snapshot : Option Bytes}
    {events : List Envelope}
    (hcompleted : Schema.Aggregate.CompletedWithEvents messageID key instanceID correlationID
      snapshot events row streamID base before after) :
    Aggregate.instanceEvents key instanceID (after (.stream streamID)) =
      Aggregate.instanceEvents key instanceID (before (.stream streamID)) ++
        EventStream.eventRows streamID correlationID (some (key, instanceID)) base events := by
  have hall : (EventStream.eventRows streamID correlationID (some (key, instanceID)) base
      events).filter (Aggregate.recordedBy key instanceID) =
        EventStream.eventRows streamID correlationID (some (key, instanceID)) base events := by
    rw [List.filter_eq_self]
    intro added hadded
    rw [Aggregate.recordedBy, EventStream.eventRows_aggregate hadded]
    exact decide_eq_true rfl
  rw [hcompleted.stream]
  unfold Aggregate.instanceEvents EventStream.appended
  rw [List.filter_append, hall]

/-- The root that a handler leaves is the replay of all events of the instance,
its own ones included. -/
theorem scope_root_eq_replay {correlationID : UUID} (hdense : ∀ id, Dense id (before (.stream id)))
    (hinv : InstanceInvariant app before key instanceID)
    (happlies : ∀ call ∈ a.records, call.AppliesPacked (app.aggregate key))
    (hhandled : Aggregate.Handled (app.aggregate key) a cause before instanceID row scope)
    (hcompleted : Schema.Aggregate.CompletedWithEvents messageID key instanceID correlationID
      (Aggregate.marshalSnapshot (app.aggregate key) a scope.root) scope.events row streamID
      base before after) :
    scope.root = Aggregate.replay (app.aggregate key) (app.aggregate key).new
      (Aggregate.instanceEvents key instanceID (after (.stream streamID))) := by
  have hrow := hhandled.row_eq
  rw [app.aggregate_key] at hrow
  have hcommitted : committedEvents before key instanceID =
      Aggregate.instanceEvents key instanceID (before (.stream streamID)) := by
    rw [committedEvents_of_row hrow]
    obtain hnew | hbound := hcompleted.bound
    · have hunbound : boundTo before key instanceID ≠ some streamID := by
        rw [boundTo_of_row hrow, hnew]
        simp
      rw [hnew, hinv.confined streamID hunbound]
    · rw [hbound]
  rw [Aggregate.handleCommand_root happlies hhandled.scope_eq,
    loadedRoot_eq_replay hdense hinv hrow, hcommitted, instanceEvents_completed hcompleted,
    Aggregate.replay_append, Aggregate.replay_eventRows]

theorem InstanceInvariant.complete {correlationID : UUID} (hmarshal : Unmarshals app)
    (hdense : ∀ id, Dense id (before (.stream id)))
    (hdense' : ∀ id, Dense id (after (.stream id)))
    (hgrows : ∀ id, Grows (before (.stream id)) (after (.stream id)))
    (hinv : InstanceInvariant app before key instanceID)
    (happlies : ∀ call ∈ a.records, call.AppliesPacked (app.aggregate key))
    (hhandled : Aggregate.Handled (app.aggregate key) a cause before instanceID row scope)
    (hcompleted : Schema.Aggregate.CompletedWithEvents messageID key instanceID correlationID
      (Aggregate.marshalSnapshot (app.aggregate key) a scope.root) scope.events row streamID
      base before after) :
    InstanceInvariant app after key instanceID := by
  have hrow := hhandled.row_eq
  rw [app.aggregate_key] at hrow
  have hroot := scope_root_eq_replay hdense hinv happlies hhandled hcompleted
  have hrowEq := hcompleted.row_eq
  have hbound : boundTo after key instanceID = some streamID := by
    rw [boundTo, hrowEq]
    exact Schema.Aggregate.completedInstance_streamID ..
  refine ⟨?_, ?_, ?_⟩
  · intro id hid
    rw [hbound] at hid
    have hne : id ≠ streamID := fun heq => hid (by rw [heq])
    rw [hcompleted.frame (.stream id) (by simpa using hne) (by simp) (by simp)]
    apply hinv.confined
    rw [boundTo_of_row hrow]
    obtain hnew | hold := hcompleted.bound
    · rw [hnew]
      simp
    · rw [hold]
      exact hid
  · intro stored hstored hnone
    rw [boundTo, hstored] at hbound
    cases hnone.symm.trans hbound
  · intro stored id offset hstored hstream hoffset
    rw [boundTo, hstored] at hbound
    cases hstream.symm.trans hbound
    rw [hrowEq] at hstored
    cases hsnapshot : Aggregate.marshalSnapshot (app.aggregate key) a scope.root with
    | none =>
        -- The snapshot from before is kept, and with it the events that it covers.
        rw [hsnapshot] at hstored
        cases hstored
        have hkept : row.snapshotOffset = some offset := hoffset
        have hexists : before (.aggregateInstance key instanceID) = some row := by
          apply stored_of_ne_new hrow
          intro hnew
          rw [hnew] at hkept
          cases hkept
        obtain hnew | hold := hcompleted.bound
        · rw [hinv.unbound row hexists hnew] at hkept
          cases hkept
        · obtain ⟨hbelow, hunmarshal⟩ := hinv.snapshot row streamID offset hexists hold hkept
          refine ⟨Nat.lt_of_lt_of_le hbelow (hgrows streamID).next_le, ?_⟩
          rw [(hgrows streamID).read_eq _ 0 (offset + 1) hbelow]
          exact hunmarshal
    | some data =>
        rw [hsnapshot] at hstored
        cases hstored
        have hnext : (after (.stream streamID)).next = base + scope.events.length := by
          rw [hcompleted.stream, EventStream.appended_next]
        have hpositive : 0 < scope.events.length :=
          List.length_pos_iff.mpr hcompleted.nonempty
        have hlast : offset + 1 = (after (.stream streamID)).next := by
          have heq : base + scope.events.length - 1 = offset := Option.some.inj hoffset
          omega
        refine ⟨by omega, ?_⟩
        have hdata : (app.aggregate key).marshalBinary scope.root = some data := by
          unfold Aggregate.marshalSnapshot at hsnapshot
          split at hsnapshot
          · exact hsnapshot
          · cases hsnapshot
        rw [hlast, ← (hdense' streamID).filter_eq_window]
        exact (hmarshal key scope.root data hdata).trans hroot

end Completed

/-- One transaction keeps the invariant of every instance. -/
theorem Committed.instanceInvariant {locks : Key → Bool} {trace : List (Observation ρ)}
    {r : Request ρ} {response : Response} (hmarshal : Unmarshals app)
    (h : Committed app before locks trace r response after) (happlies : AppliesPacked app r)
    (hdense : ∀ id, Dense id (before (.stream id)))
    (hinv : InstanceInvariant app before key instanceID) :
    InstanceInvariant app after key instanceID := by
  have hdense' : ∀ id, Dense id (after (.stream id)) := fun id => h.events.dense (hdense id)
  have hgrows : ∀ id, Grows (before (.stream id)) (after (.stream id)) := fun id =>
    grows_of_extends (hdense id) (hdense' id) (h.events.continues id)
  cases h.aggregateInstance key instanceID with
  | kept hrow hevents => exact hinv.grow hgrows hrow hevents
  | created hbefore hafter hstreams =>
      refine ⟨?_, ?_, ?_⟩
      · intro id _
        rw [hstreams id]
        exact hinv.confined id (by simp [boundTo, hbefore])
      · intro row hrow _
        cases hafter.symm.trans hrow
        rfl
      · intro row id offset hrow hstream
        cases hafter.symm.trans hrow
        cases hstream
  | deleted hbefore hunbound hafter hstreams =>
      refine ⟨?_, ?_, ?_⟩
      · intro id _
        rw [hstreams id]
        exact hinv.confined id (by simp [boundTo, hbefore, hunbound])
      · intro row hrow
        cases hafter.symm.trans hrow
      · intro row id offset hrow
        cases hafter.symm.trans hrow
  | completed hhandled hcompleted =>
      exact hinv.complete hmarshal hdense hdense' hgrows happlies hhandled hcompleted

end Commit

/-! ## What holds in every state -/

/-- No handler of an aggregate recovers from panics of `RecordEvent`. -/
def NeverRecovers (_begun : List (Request ρ)) (r : Request ρ) : Prop := NoRecovery r

/-- What holds of all instances. -/
structure AggregateInvariant (app : Application ρ) (begun : List (Request ρ))
    (rows : Database) (history : List (Transaction ρ)) : Prop where
  begun : ∀ r ∈ begun, NoRecovery r
  streams : StreamInvariant app rows history
  instances : ∀ key instanceID, InstanceInvariant app rows key instanceID

theorem AggregateInvariant.initial (app : Application ρ) :
    AggregateInvariant app [] emptyDatabase [] where
  begun := by simp
  streams := .initial app
  instances := by
    intro key instanceID
    refine ⟨fun _ _ => rfl, ?_, ?_⟩
    · intro row hrow
      cases hrow
    · intro row id offset hrow
      cases hrow

/-- The root is a new root to which exactly the committed events of the instance
have been applied, in the order of their offsets; all of them are on the stream
that the instance is bound to. -/
structure ReplayedFrom (app : Application ρ) (rows : Database) (key : UUID)
    (instanceID : String) (root : ρ) : Prop where
  root_eq : root = Aggregate.replay (app.aggregate key) (app.aggregate key).new
    (committedEvents rows key instanceID)
  ordered : (committedEvents rows key instanceID).Pairwise fun a b =>
    a.streamOffset < b.streamOffset
  complete : ∀ id row, row ∈ (rows (.stream id)).events →
    row.aggregate = some (key, instanceID) →
      boundTo rows key instanceID = some id ∧ row ∈ committedEvents rows key instanceID

theorem InstanceInvariant.replayedFrom {app : Application ρ} {rows : Database} {key : UUID}
    {instanceID : String} (hdense : ∀ id, Dense id (rows (.stream id)))
    (hinv : InstanceInvariant app rows key instanceID) :
    ReplayedFrom app rows key instanceID
      (Aggregate.replay (app.aggregate key) (app.aggregate key).new
        (committedEvents rows key instanceID)) where
  root_eq := rfl
  ordered := by
    unfold committedEvents
    split
    · exact List.Pairwise.nil
    · exact (hdense _).sorted.sublist List.filter_sublist
  complete := by
    intro id row hrow haggregate
    have hmem : row ∈ Aggregate.instanceEvents key instanceID (rows (.stream id)) :=
      List.mem_filter.mpr ⟨hrow, decide_eq_true haggregate⟩
    have hbound : boundTo rows key instanceID = some id := by
      by_contra hother
      rw [hinv.confined id hother] at hmem
      cases hmem
    refine ⟨hbound, ?_⟩
    rw [committedEvents, hbound]
    exact hmem

/-- A command that the instance has handled. -/
def CommandFor (key : UUID) (instanceID : String) (record : Transaction ρ) : Prop :=
  ∃ c a messageID, record.request = .aggregateCommand key c a ∧ a.route = some instanceID ∧
    record.result = .delivery (.delivered messageID)

section Runs

variable {T : Type} [DecidableEq T] {app : Application ρ}
  {allow : List (Request ρ) → Request ρ → Prop} {e e' : System T ρ}

/-- The system gets from one state to another while the transaction `t` stays
open. -/
def ReachesWhileOpen (app : Application ρ) (allow : List (Request ρ) → Request ρ → Prop)
    (t : T) : System T ρ → System T ρ → Prop :=
  Relation.ReflTransGen fun p p' =>
    Pool.Step (program app) allow p p' ∧ (p'.sessions t).isSome = true

theorem aggregate_invariant (hmarshal : Unmarshals app)
    (h : Reaches app NeverRecovers start e) :
    e.Consistent databaseRely (program app) ∧
      AggregateInvariant app e.begun e.rows e.history := by
  refine invariant_of_committed (AggregateInvariant app) ?_ ?_ h start_consistent
    (.initial app)
  · intro begun rows history r hinv hallowed
    exact ⟨List.forall_mem_append.mpr ⟨hinv.begun, List.forall_mem_singleton.mpr hallowed⟩,
      hinv.streams, hinv.instances⟩
  · intro begun history record locks hinv hrequested hcommitted
    refine ⟨hinv.begun, hinv.streams.commit hcommitted, ?_⟩
    intro key instanceID
    exact hcommitted.instanceInvariant hmarshal (hinv.begun _ hrequested).appliesPacked
      hinv.streams.dense (hinv.instances key instanceID)

omit [DecidableEq T] in
/-- What is known of the instances that an open transaction has loaded. -/
theorem called_of_open {t : T} {o : Open (Request ρ) Key Row (Observation ρ) Response}
    {key : UUID} {c : Circumstances} {a : Aggregate.Attempt}
    (hconsistent : e.Consistent databaseRely (program app)) (hopen : e.sessions t = some o)
    (hrequest : o.request = .aggregateCommand key c a) :
    ∀ observation ∈ o.session.trace,
      Aggregate.Called (app.aggregate key) a e.rows observation o.session := by
  have hvisits := hconsistent.visits t o hopen
  rw [hrequest] at hvisits
  refine hvisits.noted (Φ := Aggregate.Called (app.aggregate key) a e.rows) ?_
    (fun _ _ _ => Aggregate.Called.mono) (by simp)
  refine transact_notes (Tx.Notes.except_bind Aggregate.commandPump_notes ?_)
  exact fun _ _ _ => Silent.notes Tx.emits_ok

omit [DecidableEq T] in
/-- The root that an open transaction has called `HandleCommand` with is the replay of the
committed events of the instance. -/
theorem replayed_of_open {t : T} {o : Open (Request ρ) Key Row (Observation ρ) Response}
    {key : UUID} {c : Circumstances} {a : Aggregate.Attempt}
    (hconsistent : e.Consistent databaseRely (program app))
    (hdense : ∀ id, Dense id (e.rows (.stream id)))
    (hinv : ∀ key instanceID, InstanceInvariant app e.rows key instanceID)
    (hopen : e.sessions t = some o) (hrequest : o.request = .aggregateCommand key c a)
    {handlerKey : UUID} {instanceID : String} {root : ρ}
    (hroot : Observation.handleCommand handlerKey instanceID root ∈ o.session.trace) :
    handlerKey = key ∧ ReplayedFrom app e.rows key instanceID root := by
  obtain ⟨hkey, -, hloaded⟩ := called_of_open hconsistent hopen hrequest _ hroot
  rw [app.aggregate_key] at hkey
  subst hkey
  refine ⟨rfl, ?_⟩
  rw [hloaded, loadedRoot_eq_replay hdense (hinv _ _) rfl]
  exact (hinv _ _).replayedFrom hdense

/-- A transaction in which an instance handles a command has locked it. -/
theorem locked_of_runs {r : Request ρ} {response : Response} {rows : Database}
    {s : Session Key Row (Observation ρ)} {key : UUID} {c : Circumstances}
    {a : Aggregate.Attempt} {instanceID : String} {messageID : UUID}
    (hruns : Tx.Runs databaseRely rows (program app r) .start response s)
    (hrequest : r = .aggregateCommand key c a) (hroute : a.route = some instanceID)
    (hresult : response = .delivery (.delivered messageID)) :
    s.locks (.aggregateInstance key instanceID) = true := by
  subst hrequest hresult
  have hcommitted := program_committed hruns
  generalize s.view rows = after at hcommitted
  cases hcommitted with
  | aggregateCommand hcommand =>
      cases hcommand with
      | delivered _ hcompletes =>
          cases hcompletes with
          | withoutEvents hhandled hlock _ =>
              cases hroute.symm.trans hhandled.route
              rwa [app.aggregate_key] at hlock
          | withEvents hhandled hlock _ =>
              cases hroute.symm.trans hhandled.route
              rwa [app.aggregate_key] at hlock
          | missing hhandled hlock _ _ _ =>
              cases hroute.symm.trans hhandled.route
              rwa [app.aggregate_key] at hlock

/-- While a transaction that has locked an instance stays open, it keeps the
lock, and no other transaction in which the instance handles a command
commits. -/
theorem undisturbed {t : T} {key : UUID} {instanceID : String}
    (hconsistent : e.Consistent databaseRely (program app))
    (hlocked : ∃ o, e.sessions t = some o ∧
      o.session.locks (.aggregateInstance key instanceID) = true)
    (h : ReachesWhileOpen app allow t e e') :
    e'.Consistent databaseRely (program app) ∧
      (∃ o, e'.sessions t = some o ∧
        o.session.locks (.aggregateInstance key instanceID) = true) ∧
      ∃ added, e'.history = e.history ++ added ∧
        ∀ record ∈ added, ¬ CommandFor key instanceID record := by
  induction h with
  | refl => exact ⟨hconsistent, hlocked, [], by simp, by simp⟩
  | tail _ hlast ih =>
      obtain ⟨hmid, ⟨o, hopen, hlock⟩, added, hhistory, hadded⟩ := ih
      obtain ⟨hstep, hstays⟩ := hlast
      refine ⟨hstep.consistent (program_respects app) hmid, ?_⟩
      cases hstep with
      | @begin t' r hidle hallowed =>
          have hne : t ≠ t' := by
            rintro rfl
            cases hidle.symm.trans hopen
          exact ⟨⟨o, by simp [Function.update_of_ne hne, hopen], hlock⟩, added, hhistory, hadded⟩
      | @advance t' o' q s hopen' hadvance =>
          refine ⟨?_, added, hhistory, hadded⟩
          by_cases heq : t = t'
          · subst heq
            cases hopen.symm.trans hopen'
            exact ⟨_, Function.update_self .., (hadvance.step databaseRely).locks_mono _ hlock⟩
          · exact ⟨o, by simp [Function.update_of_ne heq, hopen], hlock⟩
      | @commit t' o' response hopen' hdone =>
          have hne : t ≠ t' := by
            rintro rfl
            simp at hstays
          refine ⟨⟨o, by simp [Function.update_of_ne hne, hopen], hlock⟩, added ++ [_],
            by rw [Pool.commit_history, hhistory, List.append_assoc], ?_⟩
          intro record hrecord
          obtain hrecord | hrecord := List.mem_append.mp hrecord
          · exact hadded record hrecord
          · rw [List.mem_singleton.mp hrecord]
            rintro ⟨c, a, messageID, hrequest, hroute, hresult⟩
            have hlock' := locked_of_runs (hmid.runs hopen' hdone) hrequest hroute hresult
            exact hne (hmid.exclusive _ _ _ _ _ hopen hopen' hlock hlock')
      | @rollback t' o' hopen' =>
          have hne : t ≠ t' := by
            rintro rfl
            simp at hstays
          exact ⟨⟨o, by simp [Function.update_of_ne hne, hopen], hlock⟩, added, hhistory, hadded⟩

/-- Whenever a transaction has called `HandleCommand`, the root that it passed is
the replay of the committed events of the instance; and from the moment at which
it loads the instance until it ends, no other command of the instance commits. -/
theorem aggregate_root_replayed (hmarshal : Unmarshals app)
    (h : Reaches app NeverRecovers start e) {t : T}
    {o : Open (Request ρ) Key Row (Observation ρ) Response} {key : UUID} {c : Circumstances}
    {a : Aggregate.Attempt} (hopen : e.sessions t = some o)
    (hrequest : o.request = .aggregateCommand key c a) (handlerKey : UUID)
    (instanceID : String) :
    (∀ root, Observation.handleCommand handlerKey instanceID root ∈ o.session.trace →
        handlerKey = key ∧ ReplayedFrom app e.rows key instanceID root) ∧
      (Observation.loading handlerKey instanceID ∈ o.session.trace →
        ∀ e', ReachesWhileOpen app NeverRecovers t e e' →
          ∃ added, e'.history = e.history ++ added ∧
            ∀ record ∈ added, ¬ CommandFor handlerKey instanceID record) := by
  obtain ⟨hconsistent, hinv⟩ := aggregate_invariant hmarshal h
  refine ⟨?_, ?_⟩
  · intro root hroot
    exact replayed_of_open hconsistent hinv.streams.dense hinv.instances hopen hrequest hroot
  · intro hloading e' hreaches
    obtain ⟨-, hlock⟩ := called_of_open hconsistent hopen hrequest _ hloading
    exact (undisturbed hconsistent ⟨o, hopen, hlock⟩ hreaches).2.2

end Runs

/-- Two commands have been executed and the first one has been handled; the
handler has just been called with the second one. -/
def countingThird : System Unit Nat :=
  Pool.leaveOpen (program counters) ()
    (.aggregateCommand (uuid 50) (finding 11) (recording [22])) 6
    (Pool.serve (program counters)
      [.executeCommand (commandEnvelope 10) 0,
        .aggregateCommand (uuid 50) (finding 10) (recording [20, 21]),
        .executeCommand (commandEnvelope 11) 0] start)

theorem recording_noRecovery (ids : List UInt64) :
    ∀ call ∈ (recording ids).records, call.recovers = false := by
  intro call hcall
  obtain ⟨id, -, rfl⟩ := List.mem_map.mp hcall
  rfl

theorem countingThird_reached : Reaches counters NeverRecovers start countingThird := by
  refine .trans (Pool.serve_run () (fun _ => rfl) ?_)
    (Pool.leaveOpen_run () (fun _ => rfl) (recording_noRecovery [22]))
  exact ⟨True.intro, recording_noRecovery [20, 21], True.intro, True.intro⟩

theorem counters_unmarshals : Unmarshals counters := by
  intro key root data hdata
  cases hdata
  exact List.length_replicate

theorem aggregate_root_replayed_counting :
    ∃ o, countingThird.sessions () = some o ∧
      Observation.handleCommand (uuid 50) "a" 2 ∈ o.session.trace ∧
      ReplayedFrom counters countingThird.rows (uuid 50) "a" 2 := by
  have hcalled : Observation.handleCommand (uuid 50) "a" 2 ∈
      ((countingThird.sessions ()).map (·.session.trace)).getD [] := by decide
  refine ⟨_, rfl, hcalled, ?_⟩
  exact ((aggregate_root_replayed (t := ()) counters_unmarshals countingThird_reached rfl rfl
    (uuid 50) "a").1 2 hcalled).2

end Runkit.Engine
