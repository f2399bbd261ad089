/-
  Engine/Changes.lean --- how transactions change each table, and runs.

  `program_respects` says that a transaction changes rows only as other
  transactions rely on.  With it and `program_committed` every interleaving is
  reduced to serial transactions: `invariant_of_committed` is the rule by which
  everything about runs is proved.
-/
import Runkit.Engine

set_option autoImplicit false

namespace Runkit.Engine

open Runkit.Foundation Runkit.Schema Runkit.Schema.Stmt Runkit.MessagePump

variable {ρ : Type}

/-! ## What is changed, table by table -/

section Changes

variable {app : Application ρ} {before after : Database} {locks : Key → Bool}
  {trace : List (Observation ρ)} {r : Request ρ} {response : Response}

/-- The events that are recorded by the attempt that a transaction commits, in
recording order.  Only a command that has been delivered has any. -/
def recordedEvents (app : Application ρ) (before : Database) :
    Request ρ → Response → List Envelope
  | .aggregateCommand key _ a, .delivery (.delivered messageID) =>
      match before (.command messageID), a.route with
      | some row, some instanceID =>
          Aggregate.packedEvents (app.aggregate key) row.envelope instanceID a.records
      | _, _ => []
  | .integrationCommand key _ a, .delivery (.delivered messageID) =>
      match before (.command messageID) with
      | some row => Integration.packedEvents (app.integration key) row.envelope a.records
      | none => []
  | _, _ => []

/-- Some aggregate instance is bound to a stream that does not exist. -/
def Dangling (rows : Database) : Prop :=
  ∃ key instanceID row streamID, rows (.aggregateInstance key instanceID) = some row ∧
    row.streamID = some streamID ∧ (rows (.stream streamID)).nextOffset = none

/-- How a transaction can change the streams: it appends the events that it
recorded to one of them, all at once. -/
inductive EventsChange (before : Database) (locks : Key → Bool) (after : Database)
    (recorded : List Envelope) : Prop where
  | unchanged (hrecorded : recorded = [] ∨ Dangling before)
      (hsame : ∀ id, after (.stream id) = before (.stream id)) :
      EventsChange before locks after recorded
  | append {id correlationID : UUID} {aggregate : Option (UUID × String)}
      (hrecorded : recorded ≠ [])
      (hlock : ∀ key instanceID, aggregate = some (key, instanceID) →
        locks (.aggregateInstance key instanceID) = true)
      (hafter : after (.stream id) = EventStream.appended id correlationID aggregate
        (before (.stream id)).next recorded (before (.stream id)))
      (hothers : ∀ id', id' ≠ id → after (.stream id') = before (.stream id')) :
      EventsChange before locks after recorded

/-- An aggregate appends the events that it recorded to one stream. -/
theorem aggregate_events {key : UUID} {a : Aggregate.Attempt} {c : Circumstances}
    {messageID : UUID} {row : CommandRow} (hrow : before (.command messageID) = some row)
    (h : Aggregate.Completes (app.aggregate key) a messageID row.envelope before locks after) :
    EventsChange before locks after
      (recordedEvents app before (.aggregateCommand key c a)
        (.delivery (.delivered messageID))) := by
  have hrecorded : ∀ {instanceID instanceRow scope},
      Aggregate.Handled (app.aggregate key) a row.envelope before instanceID instanceRow scope →
      recordedEvents app before (.aggregateCommand key c a) (.delivery (.delivered messageID)) =
        scope.events := by
    intro instanceID instanceRow scope hhandled
    simp only [recordedEvents, hrow, hhandled.route]
    exact (Aggregate.handleCommand_events hhandled.scope_eq).symm
  cases h with
  | withoutEvents hhandled hlock hevents =>
      exact .unchanged (Or.inl ((hrecorded hhandled).trans hevents)) (by simp)
  | missing hhandled hlock hinstance hstream hmissing =>
      exact .unchanged (Or.inr ⟨_, _, _, _, hinstance, hstream, hmissing⟩) (by simp)
  | @withEvents instanceID instanceRow scope streamID base _ hhandled hlock hcompleted =>
      rw [hrecorded hhandled]
      have hbase : (before (.stream streamID)).next = base := by
        obtain hbase | ⟨hbase, -, hzero⟩ := hcompleted.base_eq
        · exact Stream.next_of_some hbase
        · rw [Stream.next_of_none hbase, hzero]
      refine .append hcompleted.nonempty ?_ (hbase ▸ hcompleted.stream) ?_
      · intro key' instanceID' heq
        cases heq
        exact hlock
      · intro id hid
        exact hcompleted.frame _ (by simpa using hid) (by simp) (by simp)

/-- An integration appends the events that it recorded to one stream. -/
theorem integration_events {key : UUID} {a : Integration.Attempt} {c : Circumstances}
    {messageID : UUID} {row : CommandRow} (hrow : before (.command messageID) = some row)
    (h : Integration.Completes (app.integration key) a messageID row.envelope before after) :
    EventsChange before locks after
      (recordedEvents app before (.integrationCommand key c a)
        (.delivery (.delivered messageID))) := by
  have hrecorded : ∀ {events},
      Integration.handleCommand (app.integration key) a row.envelope = some events →
      recordedEvents app before (.integrationCommand key c a)
        (.delivery (.delivered messageID)) = events := by
    intro events hhandled
    simp only [recordedEvents, hrow]
    exact (Integration.handleCommand_events hhandled).symm
  cases h with
  | withoutEvents hhandled => exact .unchanged (Or.inl (hrecorded hhandled)) (by simp)
  | @withEvents events streamID base _ hhandled hcompleted =>
      rw [hrecorded hhandled]
      have hbase : (before (.stream streamID)).next = base := by
        obtain hbase | ⟨hbase, hzero⟩ := hcompleted.base_eq
        · exact Stream.next_of_some hbase
        · rw [Stream.next_of_none hbase, hzero]
      refine .append hcompleted.nonempty (by simp) (hbase ▸ hcompleted.stream) ?_
      intro id hid
      exact hcompleted.frame _ (by simpa using hid) (by simp)

/-- How a transaction can change the streams. -/
theorem Committed.events (h : Committed app before locks trace r response after) :
    EventsChange before locks after (recordedEvents app before r response) := by
  cases h with
  | executeCommand hadded => exact .unchanged (Or.inl rfl) (by cases hadded <;> simp)
  | aggregateCommand hcommitted =>
      cases hcommitted with
      | idle => exact .unchanged (Or.inl rfl) (fun _ => rfl)
      | unreadable _ => exact .unchanged (Or.inl rfl) (by simp)
      | delivered hrow hcompletes => exact aggregate_events hrow hcompletes
      | failed _ hleaves => exact .unchanged (Or.inl rfl) (by simp [hleaves.frame])
      | busy _ hleaves => exact .unchanged (Or.inl rfl) (by simp [hleaves.frame])
  | integrationCommand hcommitted =>
      cases hcommitted with
      | idle => exact .unchanged (Or.inl rfl) (fun _ => rfl)
      | unreadable _ => exact .unchanged (Or.inl rfl) (by simp)
      | delivered hrow hcompletes => exact integration_events hrow hcompletes
      | failed _ hleaves => exact .unchanged (Or.inl rfl) (by simp [hleaves.2])
      | busy _ hleaves => exact .unchanged (Or.inl rfl) (by simp [hleaves.2])
  | deadline hcommitted =>
      exact .unchanged (Or.inl rfl) (fun id => hcommitted.frame (.stream id))
  | consume hconsumed =>
      exact .unchanged (Or.inl rfl) (fun id => hconsumed.frame (.stream id) (by simp))

/-- How a transaction can change the row of an aggregate instance. -/
inductive InstanceChange (app : Application ρ) (before : Database) (key : UUID)
    (instanceID : String) (after : Database) : Request ρ → Prop where
  | kept {r : Request ρ}
      (hafter : after (.aggregateInstance key instanceID) =
        before (.aggregateInstance key instanceID))
      (hevents : ∀ id, Aggregate.instanceEvents key instanceID (after (.stream id)) =
        Aggregate.instanceEvents key instanceID (before (.stream id))) :
      InstanceChange app before key instanceID after r
  /-- Only a delivery that fails leaves a new row behind. -/
  | created {r : Request ρ}
      (hbefore : before (.aggregateInstance key instanceID) = none)
      (hafter : after (.aggregateInstance key instanceID) = some Aggregate.newInstanceRow)
      (hstreams : ∀ id, after (.stream id) = before (.stream id)) :
      InstanceChange app before key instanceID after r
  | deleted {r : Request ρ} {row : AggregateInstanceRow}
      (hbefore : before (.aggregateInstance key instanceID) = some row)
      (hunbound : row.streamID = none)
      (hafter : after (.aggregateInstance key instanceID) = none)
      (hstreams : ∀ id, after (.stream id) = before (.stream id)) :
      InstanceChange app before key instanceID after r
  | completed {c : Circumstances} {a : Aggregate.Attempt} {messageID : UUID}
      {cause : Envelope} {row : AggregateInstanceRow} {scope : Aggregate.Scope ρ}
      {streamID : UUID} {base : Nat}
      (hhandled : Aggregate.Handled (app.aggregate key) a cause before instanceID row scope)
      (hcompleted : Schema.Aggregate.CompletedWithEvents messageID key instanceID
        ((app.aggregate key).packer.sealedHeader cause key instanceID).correlationID
        (Aggregate.marshalSnapshot (app.aggregate key) a scope.root) scope.events row streamID
        base before after) :
      InstanceChange app before key instanceID after (.aggregateCommand key c a)

/-- Appending events of another instance, or of an integration, adds no events of
this instance. -/
theorem instanceEvents_appended {id correlationID key : UUID} {instanceID : String}
    {aggregate : Option (UUID × String)} {base : Nat} {events : List Envelope}
    {stream : Stream} (hother : aggregate ≠ some (key, instanceID)) :
    Aggregate.instanceEvents key instanceID
        (EventStream.appended id correlationID aggregate base events stream) =
      Aggregate.instanceEvents key instanceID stream := by
  have hnone : (EventStream.eventRows id correlationID aggregate base events).filter
      (Aggregate.recordedBy key instanceID) = [] := by
    rw [List.filter_eq_nil_iff]
    intro row hrow hrecorded
    rw [Aggregate.recordedBy, EventStream.eventRows_aggregate hrow] at hrecorded
    exact hother (decide_eq_true_eq.mp hrecorded)
  unfold Aggregate.instanceEvents EventStream.appended
  rw [List.filter_append, hnone, List.append_nil]

theorem aggregate_instance {key key' : UUID} {a : Aggregate.Attempt} {c : Circumstances}
    {messageID : UUID} {cause : Envelope}
    (h : Aggregate.Completes (app.aggregate key) a messageID cause before locks after)
    (instanceID : String) :
    InstanceChange app before key' instanceID after (.aggregateCommand key c a) := by
  cases h with
  | @withoutEvents instanceID' row scope hhandled hlock hevents =>
      rw [app.aggregate_key]
      by_cases hsame : key' = key ∧ instanceID = instanceID'
      · obtain ⟨rfl, rfl⟩ := hsame
        cases hbefore : before (.aggregateInstance key' instanceID) with
        | none => exact .kept (by simp [Schema.Aggregate.withoutUnbound, hbefore]) (by simp)
        | some row =>
            cases hstream : row.streamID with
            | none =>
                exact .deleted hbefore hstream
                  (by simp [Schema.Aggregate.withoutUnbound, hstream]) (by simp)
            | some streamID =>
                exact .kept (by simp [Schema.Aggregate.withoutUnbound, hbefore, hstream])
                  (by simp)
      · exact .kept (by simp [hsame]) (by simp)
  | missing hhandled hlock hinstance hstream hmissing => exact .kept (by simp) (by simp)
  | @withEvents instanceID' row scope streamID base _ hhandled hlock hcompleted =>
      rw [app.aggregate_key] at hcompleted
      by_cases hsame : key' = key ∧ instanceID = instanceID'
      · obtain ⟨rfl, rfl⟩ := hsame
        exact .completed hhandled hcompleted
      · refine .kept (hcompleted.frame _ (by simp) (by simpa using hsame) (by simp)) ?_
        intro id
        by_cases hid : id = streamID
        · subst hid
          rw [hcompleted.stream]
          exact instanceEvents_appended fun heq => hsame (by simpa [eq_comm] using heq)
        · rw [hcompleted.frame _ (by simpa using hid) (by simp) (by simp)]

theorem aggregate_leaves_instance {key key' : UUID} {messageID : UUID} {e : Error}
    {left : Database} {row : Option CommandRow} {r : Request ρ}
    (h : Aggregate.Leaves (app.aggregate key) before e left) (instanceID : String) :
    InstanceChange app before key' instanceID
      (Function.update left (.command messageID) row) r := by
  cases h with
  | busy => exact .kept (by simp) (by simp)
  | failed => exact .kept (by simp) (by simp)
  | loaded instanceID' =>
      rw [app.aggregate_key]
      by_cases hsame : key' = key ∧ instanceID = instanceID'
      · obtain ⟨rfl, rfl⟩ := hsame
        cases hbefore : before (.aggregateInstance key' instanceID) with
        | none => exact .created hbefore (by simp) (by simp)
        | some row => exact .kept (by simp [hbefore]) (by simp)
      · exact .kept (by simp [hsame]) (by simp)

theorem integration_instance {key key' : UUID} {a : Integration.Attempt} {messageID : UUID}
    {cause : Envelope} {r : Request ρ}
    (h : Integration.Completes (app.integration key) a messageID cause before after)
    (instanceID : String) : InstanceChange app before key' instanceID after r := by
  cases h with
  | withoutEvents _ => exact .kept (by simp) (by simp)
  | @withEvents events streamID base _ _ hcompleted =>
      refine .kept (hcompleted.frame _ (by simp) (by simp)) ?_
      intro id
      by_cases hid : id = streamID
      · subst hid
        rw [hcompleted.stream]
        exact instanceEvents_appended (by simp)
      · rw [hcompleted.frame _ (by simpa using hid) (by simp)]

/-- How a transaction can change the row of an aggregate instance. -/
theorem Committed.aggregateInstance (h : Committed app before locks trace r response after)
    (key : UUID) (instanceID : String) : InstanceChange app before key instanceID after r := by
  cases h with
  | executeCommand hadded => cases hadded <;> exact .kept (by simp) (by simp)
  | aggregateCommand hcommitted =>
      cases hcommitted with
      | idle => exact .kept rfl fun _ => rfl
      | unreadable _ => exact .kept (by simp) (by simp)
      | delivered _ hcompletes => exact aggregate_instance hcompletes instanceID
      | failed _ hleaves => exact aggregate_leaves_instance hleaves instanceID
      | busy _ hleaves => exact aggregate_leaves_instance hleaves instanceID
  | integrationCommand hcommitted =>
      cases hcommitted with
      | idle => exact .kept rfl fun _ => rfl
      | unreadable _ => exact .kept (by simp) (by simp)
      | delivered _ hcompletes => exact integration_instance hcompletes instanceID
      | failed _ hleaves => exact .kept (by simp [hleaves.2]) (by simp [hleaves.2])
      | busy _ hleaves => exact .kept (by simp [hleaves.2]) (by simp [hleaves.2])
  | deadline hcommitted =>
      refine .kept (hcommitted.frame (.aggregateInstance key instanceID)) ?_
      intro id
      rw [hcommitted.frame (.stream id)]
  | consume hconsumed =>
      refine .kept (hconsumed.frame (.aggregateInstance key instanceID) (by simp)) ?_
      intro id
      rw [hconsumed.frame (.stream id) (by simp)]

/-- A stream does not cease to exist. -/
theorem EventsChange.missing_of_missing {recorded : List Envelope}
    (h : EventsChange before locks after recorded) {id : UUID}
    (hafter : (after (.stream id)).nextOffset = none) :
    (before (.stream id)).nextOffset = none := by
  cases h with
  | unchanged _ hsame => rwa [hsame id] at hafter
  | @append id' correlationID aggregate _ _ happended hothers =>
      by_cases hid : id = id'
      · subst hid
        rw [happended] at hafter
        cases hafter
      · rwa [hothers id hid] at hafter

/-- A transaction binds instances only to streams that exist. -/
theorem Committed.dangling (h : Committed app before locks trace r response after)
    (hafter : Dangling after) : Dangling before := by
  obtain ⟨key, instanceID, row, streamID, hrow, hstream, hmissing⟩ := hafter
  have hmissing' := h.events.missing_of_missing hmissing
  cases h.aggregateInstance key instanceID with
  | kept hkept _ => exact ⟨key, instanceID, row, streamID, hkept ▸ hrow, hstream, hmissing'⟩
  | created _ hcreated _ =>
      rw [hcreated] at hrow
      cases hrow
      cases hstream
  | deleted _ _ hdeleted _ =>
      rw [hdeleted] at hrow
      cases hrow
  | @completed _ _ _ _ instanceRow scope boundTo base hhandled hcompleted =>
      have hbound : row.streamID = some boundTo := by
        rw [hcompleted.row_eq] at hrow
        cases hrow
        exact Schema.Aggregate.completedInstance_streamID ..
      cases hbound.symm.trans hstream
      rw [hcompleted.stream] at hmissing
      cases hmissing

/-- The tables that only the transactions of process handlers write to. -/
inductive OfProcess : Key → Prop where
  | handlerCheckpoint {handlerKey streamID : UUID} :
      OfProcess (.handlerCheckpoint handlerKey streamID)
  | processInstance {handlerKey : UUID} {instanceID : String} :
      OfProcess (.processInstance handlerKey instanceID)
  | deadline {messageID : UUID} : OfProcess (.deadline messageID)

/-- Whether the transaction is one of a process handler. -/
def Request.ofProcess : Request ρ → Bool
  | .deadline _ _ _ => true
  | .consume _ _ => true
  | _ => false

/-- The transactions of the message pump of an aggregate leave most tables alone. -/
theorem aggregate_frame {key : UUID} {a : Aggregate.Attempt} {o : Outcome} {k : Key}
    (h : CommandCommitted
      (fun messageID env =>
        Aggregate.Completes (app.aggregate key) a messageID env before locks)
      (Aggregate.Leaves (app.aggregate key) before) before o after)
    (hcommand : ∀ messageID, k ≠ .command messageID) (hstream : ∀ id, k ≠ .stream id)
    (hinstance : ∀ key instanceID, k ≠ .aggregateInstance key instanceID) :
    after k = before k := by
  cases h with
  | idle => rfl
  | unreadable _ => simp [hcommand]
  | delivered _ hcompletes =>
      cases hcompletes with
      | withoutEvents _ _ _ => simp [hcommand, hinstance]
      | withEvents _ _ hcompleted =>
          exact hcompleted.frame _ (hstream _) (hinstance _ _) (hcommand _)
      | missing _ _ _ _ _ => simp [hcommand]
  | failed _ hleaves => simp [hcommand, hleaves.frame (hinstance _)]
  | busy _ hleaves => simp [hcommand, hleaves.frame (hinstance _)]

/-- So do those of the message pump of an integration. -/
theorem integration_frame {key : UUID} {a : Integration.Attempt} {o : Outcome} {k : Key}
    (h : CommandCommitted
      (fun messageID env => Integration.Completes (app.integration key) a messageID env before)
      (fun e left => e = .failed ∧ left = before) before o after)
    (hcommand : ∀ messageID, k ≠ .command messageID) (hstream : ∀ id, k ≠ .stream id) :
    after k = before k := by
  cases h with
  | idle => rfl
  | unreadable _ => simp [hcommand]
  | delivered _ hcompletes =>
      cases hcompletes with
      | withoutEvents _ => simp [hcommand]
      | withEvents _ hcompleted => exact hcompleted.frame _ (hstream _) (hcommand _)
  | failed _ hleaves => simp [hcommand, hleaves.2]
  | busy _ hleaves => simp [hcommand, hleaves.2]

/-- Other transactions leave the tables of process handlers alone. -/
theorem Committed.processFrame (h : Committed app before locks trace r response after)
    (hr : r.ofProcess = false) {k : Key} (hk : OfProcess k) : after k = before k := by
  have hcommand : ∀ messageID, k ≠ .command messageID := by cases hk <;> simp
  have hstream : ∀ id, k ≠ .stream id := by cases hk <;> simp
  have hinstance : ∀ key instanceID, k ≠ .aggregateInstance key instanceID := by
    cases hk <;> simp
  cases h with
  | executeCommand hadded => cases hadded <;> cases hk <;> simp
  | aggregateCommand hcommitted => exact aggregate_frame hcommitted hcommand hstream hinstance
  | integrationCommand hcommitted => exact integration_frame hcommitted hcommand hstream
  | deadline _ => cases hr
  | consume _ => cases hr

/-- A transaction does not change which deadlines belong to a process instance
that it has not locked. -/
theorem Committed.belongsTo (h : Committed app before locks trace r response after)
    {messageID handlerKey : UUID} {instanceID : String}
    (hlock : locks (.processInstance handlerKey instanceID) = false) :
    belongsTo handlerKey instanceID (after (.deadline messageID)) =
      belongsTo handlerKey instanceID (before (.deadline messageID)) := by
  cases hr : r.ofProcess with
  | false => rw [h.processFrame hr .deadline]
  | true =>
      cases h with
      | deadline hcommitted => exact hcommitted.belongsTo hlock
      | consume hconsumed => exact hconsumed.belongsTo hlock
      | _ => cases hr

/-- A transaction appends events of an aggregate instance only if it has locked
the instance. -/
theorem EventsChange.mayBecome {recorded : List Envelope} {others : Key → Bool}
    (h : EventsChange before locks after recorded)
    (hothers : ∀ k, others k = true → locks k = false) (id : UUID) :
    StreamMayBecome others (before (.stream id)) (after (.stream id)) := by
  cases h with
  | unchanged hrecorded hsame =>
      rw [hsame id]
      exact .refl _ _
  | @append id' correlationID aggregate hrecorded hlock hafter hsame =>
      by_cases hid : id = id'
      · subst hid
        refine ⟨_, by rw [hafter]; rfl, ?_⟩
        intro row hmem handlerKey instanceID haggregate
        rw [EventStream.eventRows_aggregate hmem] at haggregate
        by_contra hheld
        have hfree := hothers _ (by simpa using hheld)
        rw [hlock handlerKey instanceID haggregate] at hfree
        cases hfree
      · rw [hsame id hid]
        exact .refl _ _

/-- Transactions change rows only as other transactions rely on. -/
theorem program_respects (app : Application ρ) : Respects databaseRely (program app) := by
  intro r before response s hruns others hothers k
  have hcommitted := program_committed hruns
  have hothers' : ∀ k, others k = true → s.locks k = false := hothers
  cases k with
  | stream id => exact hcommitted.events.mayBecome hothers' id
  | deadline messageID =>
      intro handlerKey instanceID hlock
      exact hcommitted.belongsTo (hothers' _ hlock)
  | _ => exact True.intro

end Changes

/-! ## Runs -/

/-- All transactions of all nodes.  `T` identifies the open ones. -/
abbrev System (T ρ : Type) := Pool T (Request ρ) Key Row (Observation ρ) Response

/-- A committed transaction. -/
abbrev Transaction (ρ : Type) := Record (Request ρ) Key Row (Observation ρ) Response

/-- The system before anything has happened. -/
def start {T : Type} : System T ρ := Pool.initial emptyDatabase

/-- No restriction on the requests. -/
def AnyRequest (_begun : List (Request ρ)) (_r : Request ρ) : Prop := True

/-- The system gets from one state to another by any number of steps, beginning
requests only as `allow` permits. -/
def Reaches {T : Type} [DecidableEq T] (app : Application ρ)
    (allow : List (Request ρ) → Request ρ → Prop) : System T ρ → System T ρ → Prop :=
  Relation.ReflTransGen (Pool.Step (program app) allow)

section Runs

variable {T : Type} [DecidableEq T] {app : Application ρ}
  {allow : List (Request ρ) → Request ρ → Prop}

/-- What a committed transaction did. -/
theorem committed_of_serial {record : Transaction ρ}
    (h : Serial databaseRely (program app) record) :
    ∃ locks, Committed app record.before locks record.trace record.request record.result
      record.after := by
  obtain ⟨s, hruns, htrace, hafter⟩ := h
  rw [htrace, hafter]
  exact ⟨s.locks, program_committed hruns⟩

/-- An invariant that every transaction keeps holds in every state that the
system reaches, whatever the interleaving. -/
theorem invariant_of_committed
    (inv : List (Request ρ) → Database → List (Transaction ρ) → Prop)
    (hbegin : ∀ begun rows history r,
      inv begun rows history → allow begun r → inv (begun ++ [r]) rows history)
    (hcommit : ∀ begun history (record : Transaction ρ) locks,
      inv begun record.before history → record.request ∈ begun →
      Committed app record.before locks record.trace record.request record.result
        record.after →
      inv begun record.after (history ++ [record]))
    {p p' : System T ρ} (hreaches : Reaches app allow p p')
    (hp : p.Consistent databaseRely (program app)) (hinv : inv p.begun p.rows p.history) :
    p'.Consistent databaseRely (program app) ∧ inv p'.begun p'.rows p'.history := by
  refine Pool.run_invariant (program_respects app) inv hbegin ?_ hreaches hp hinv
  intro begun history record hbefore hmember hserial
  obtain ⟨locks, hcommitted⟩ := committed_of_serial hserial
  exact hcommit begun history record locks hbefore hmember hcommitted

omit [DecidableEq T] in
theorem start_consistent :
    (start : System T ρ).Consistent databaseRely (program app) :=
  Pool.Consistent.initial _

end Runs

end Runkit.Engine
