/-
  Engine/FailedCommands.lean --- commands that aggregates fail to handle.

  Source: internal/aggregate/commandpump.go and internal/messagepump/pump.go.

  A delivery that fails is postponed in the same transaction, which is then committed with
  whatever has been written until the failure.  The aggregate pump has written nothing, unless
  the instance did not exist: `tryCreateInstance` has inserted a row by then, and only
  `aggregate.complete_without_events` deletes a row that is bound to no stream.  Such a row is
  left behind if the handler panics in `New` or in `HandleCommand`; there are no events to
  replay yet, so nothing else can fail.
-/
import Runkit.Engine.Streams

set_option autoImplicit false

namespace Runkit.Aggregate

open Runkit.Foundation Runkit.Schema Runkit.Schema.Stmt Runkit.MessagePump

variable {ρ : Type}

/-! ## Handlers that panic -/

/-- `RecordEvent` panics, and the handler does not recover. -/
def RecordCall.Panics (h : AggregateHandler ρ) (call : RecordCall) : Prop :=
  call.recovers = false ∧
    (call.event.message.typeID ∉ h.outboundMessageTypes ∨ call.valid = false ∨
      call.applies = false)

/-- The handler panics in `New` or in `HandleCommand`. -/
def Attempt.Panics (h : AggregateHandler ρ) (a : Attempt) : Prop :=
  a.constructs = false ∨ a.returns = false ∨ ∃ call ∈ a.records, call.Panics h

theorem recordEvent_panics {h : AggregateHandler ρ} {cause : Envelope} {instanceID : String}
    {call : RecordCall} {scope scope' : Scope ρ}
    (hrecord : recordEvent h cause instanceID call scope = (scope', true)) :
    call.event.message.typeID ∉ h.outboundMessageTypes ∨ call.valid = false ∨
      call.applies = false := by
  unfold recordEvent at hrecord
  split at hrecord
  · rename_i htype
    exact Or.inl htype
  · dsimp only at hrecord
    split at hrecord
    · rename_i hvalid
      exact Or.inr (Or.inl (by simpa using hvalid))
    · split at hrecord
      · rename_i happlies
        exact Or.inr (Or.inr (by simpa using happlies))
      · cases hrecord

theorem recordEvents_panics {h : AggregateHandler ρ} {cause : Envelope} {instanceID : String}
    {calls : List RecordCall} {scope : Scope ρ}
    (hrecord : recordEvents h cause instanceID calls scope = none) :
    ∃ call ∈ calls, call.Panics h := by
  induction calls generalizing scope with
  | nil => cases hrecord
  | cons call rest ih =>
      unfold recordEvents at hrecord
      split at hrecord
      · obtain ⟨later, hmem, hpanics⟩ := ih hrecord
        exact ⟨later, List.mem_cons_of_mem _ hmem, hpanics⟩
      · rename_i hcall
        split at hrecord
        · obtain ⟨later, hmem, hpanics⟩ := ih hrecord
          exact ⟨later, List.mem_cons_of_mem _ hmem, hpanics⟩
        · rename_i hrecovers
          refine ⟨call, List.mem_cons_self, ?_, recordEvent_panics hcall⟩
          simpa using hrecovers

theorem handleCommand_panics {h : AggregateHandler ρ} {a : Attempt} {cause : Envelope}
    {instanceID : String} {root : ρ} (hhandle : handleCommand h a cause instanceID root = none) :
    a.Panics h := by
  unfold handleCommand at hhandle
  split at hhandle
  · rename_i hrecord
    exact Or.inr (Or.inr (recordEvents_panics hrecord))
  · split at hhandle
    · cases hhandle
    · rename_i hreturns
      exact Or.inr (Or.inl (by simpa using hreturns))

/-! ## What is left behind -/

/-- What a delivery that fails has done to the database, and why. -/
inductive Withdraws (h : AggregateHandler ρ) (a : Attempt) (before : Database) :
    Error → Database → Prop where
  | unchanged {e : Error} : Withdraws h a before e before
  | created {instanceID : String} (hunpacks : a.unpacks = true)
      (hroute : a.route = some instanceID)
      (hnew : before (.aggregateInstance h.key instanceID) = none) (hpanics : a.Panics h) :
      Withdraws h a before .failed
        (Function.update before (.aggregateInstance h.key instanceID) (some newInstanceRow))

section

variable {s t : Session Key Row (Observation ρ)} {h : AggregateHandler ρ} {a : Attempt}
  {instanceID : String}

/-- An instance that does not exist can only fail to be loaded because of `New`. -/
theorem loadInstance_failed_new {rows : Database}
    (hnew : s.view rows (.aggregateInstance h.key instanceID) = none)
    (hruns : Tx.Runs databaseRely rows (loadInstance h a instanceID).run s (.error .failed) t) :
    a.constructs = false := by
  unfold loadInstance at hruns
  obtain ⟨e, hr, herror⟩ | ⟨row, u, hlock, hrest⟩ := Tx.runs_except_bind.mp hruns
  · cases hr
    obtain ⟨hr, -⟩ | ⟨_, hr, -⟩ := lockInstance_runs herror <;> cases hr
  obtain ⟨hr, -⟩ | ⟨_, hr, hrow, -⟩ := lockInstance_runs hlock
  · cases hr
  cases hr
  rw [hnew, Option.getD_none] at hrow
  subst hrow
  rw [Tx.runs_emit_bind] at hrest
  unfold newRoot at hrest
  cases hconstructs : a.constructs with
  | false => rfl
  | true =>
      rw [hconstructs, if_pos rfl, Tx.runs_pure_bind] at hrest
      obtain ⟨hr, -⟩ := Tx.runs_ok.mp hrest
      cases hr

/-- The instance has been locked, or created, before the handler panics. -/
theorem Withdraws.of_loaded {before : Database} {row : AggregateInstanceRow}
    (hunpacks : a.unpacks = true) (hroute : a.route = some instanceID)
    (hrow : row = (before (.aggregateInstance h.key instanceID)).getD newInstanceRow)
    (hpanics : before (.aggregateInstance h.key instanceID) = none → a.Panics h) :
    Withdraws h a before .failed
      (Function.update before (.aggregateInstance h.key instanceID) (some row)) := by
  cases hbefore : before (.aggregateInstance h.key instanceID) with
  | none =>
      rw [hbefore, Option.getD_none] at hrow
      rw [hrow]
      exact .created hunpacks hroute hbefore (hpanics hbefore)
  | some stored =>
      rw [hbefore, Option.getD_some] at hrow
      rw [hrow, ← hbefore, Function.update_eq_self]
      exact .unchanged

theorem handleDelivery_withdraws {del : Delivery} {env : Envelope} {before : Database}
    {e : Error} (hview : s.view before = before)
    (hpending : ∀ id, s.pending (.stream id) = none)
    (hruns : Tx.Runs databaseRely before (handleDelivery h a del env).run s (.error e) t) :
    Withdraws h a before e (t.view before) := by
  obtain ⟨hr, rfl⟩ | ⟨instanceID, hunpacks, hroute, hruns⟩ := handleDelivery_routes hruns
  · rw [hview]
    exact .unchanged
  obtain ⟨_, hr, herror⟩ | ⟨⟨root, streamID⟩, u, hload, hrest⟩ := Tx.runs_except_bind.mp hruns
  · cases hr
    obtain ⟨hr, rfl⟩ | ⟨row, hrow, hafter, -, hr | hr⟩ := loadInstance_runs hpending herror
    · rw [hview]
      exact .unchanged
    · cases hr
      rw [hview] at hrow hafter
      rw [hafter]
      refine .of_loaded hunpacks hroute hrow fun hnew => Or.inl ?_
      exact loadInstance_failed_new (by rw [hview]; exact hnew) herror
    · cases hr
  obtain ⟨hr, -⟩ | ⟨row, hrow, hafter, hlock, hr | hr⟩ := loadInstance_runs hpending hload
  · cases hr
  · cases hr
  cases hr
  rw [hview] at hrow hafter
  unfold handleLoaded at hrest
  rw [Tx.runs_emit_bind] at hrest
  split at hrest
  · rename_i hhandle
    obtain ⟨hr, rfl⟩ := Tx.runs_throw.mp hrest
    cases hr
    rw [Session.note_view, hafter]
    exact .of_loaded hunpacks hroute hrow fun _ => handleCommand_panics hhandle
  · rename_i scope hscope
    have hhandled : Handled h a env before instanceID row scope := ⟨hroute, hrow, hscope⟩
    obtain ⟨hr, -⟩ := complete_runs (s := u.note _) hhandled hafter hlock hrest
    cases hr

/-- What a transaction of the aggregate command pump can commit, with what a delivery that fails
leaves behind. -/
theorem commandPump_withdraws {p : Backoff} {c : Circumstances} {before : Database}
    {o : Outcome} (hruns : Tx.Runs databaseRely before (deliver (commandPump h c a) p c).run
      .start (.ok o) s) :
    CommandCommitted (fun messageID env => Completes h a messageID env before s.locks)
      (Withdraws h a before) before o (s.view before) := by
  have hdriver : (commandPump h c a).OfCommands h.commandTypeIDs c := ⟨rfl, rfl⟩
  refine hdriver.committed (fun locks messageID env => Completes h a messageID env before locks)
    _ ?_ ?_ hruns
  · intro messageID row t hrow hhandle
    obtain ⟨-, hcompletes⟩ | ⟨e, hr, -⟩ := handleDelivery_runs rfl (fun _ => rfl) hhandle
    · exact hcompletes
    · cases hr
  · intro messageID row e t hrow hhandle
    have hwithdraws := handleDelivery_withdraws rfl (fun _ => rfl) hhandle
    refine ⟨hwithdraws, ?_⟩
    generalize t.view before = after at hwithdraws
    cases hwithdraws <;> simp [hrow]

end

end Runkit.Aggregate

namespace Runkit.Engine

open Runkit.Foundation Runkit.Schema Runkit.Schema.Stmt Runkit.MessagePump

variable {ρ : Type}

/-- The transaction has acquired a command for an instance that does not exist, and has failed
because the handler of the aggregate panics, in `New` or in `HandleCommand`. -/
def PanicsOnNew (app : Application ρ) (record : Transaction ρ) : Prop :=
  ∃ key c a messageID instanceID, record.request = .aggregateCommand key c a ∧
    record.result = .delivery (.failed messageID) ∧ a.unpacks = true ∧
    a.Panics (app.aggregate key) ∧ a.route = some instanceID ∧
    record.before (.aggregateInstance key instanceID) = none

/-! ## What one transaction does -/

section Commit

variable {app : Application ρ} {before after : Database} {locks : Key → Bool}
  {trace : List (Observation ρ)} {r : Request ρ} {response : Response} {key : UUID}
  {instanceID : String}

/-- An instance that a command has created by the time that it is handled is bound to a
stream. -/
theorem completes_bound {handlerKey : UUID} {a : Aggregate.Attempt} {messageID : UUID}
    {cause : Envelope} {row : AggregateInstanceRow}
    (h : Aggregate.Completes (app.aggregate handlerKey) a messageID cause before locks after)
    (hbefore : before (.aggregateInstance key instanceID) = none)
    (hafter : after (.aggregateInstance key instanceID) = some row) : row.streamID ≠ none := by
  cases h with
  | @withoutEvents instanceID' _ _ _ _ _ =>
      rw [app.aggregate_key, Function.update_of_ne (by simp)] at hafter
      by_cases hsame : key = handlerKey ∧ instanceID = instanceID'
      · obtain ⟨rfl, rfl⟩ := hsame
        rw [Function.update_self, hbefore] at hafter
        cases hafter
      · rw [Function.update_of_ne (by simpa using hsame), hbefore] at hafter
        cases hafter
  | @withEvents instanceID' _ _ _ _ _ _ _ hcompleted =>
      rw [app.aggregate_key] at hcompleted
      by_cases hsame : key = handlerKey ∧ instanceID = instanceID'
      · obtain ⟨rfl, rfl⟩ := hsame
        rw [hcompleted.row_eq] at hafter
        cases hafter
        rw [Schema.Aggregate.completedInstance_streamID]
        nofun
      · rw [hcompleted.frame _ (by simp) (by simpa using hsame) (by simp), hbefore] at hafter
        cases hafter
  | missing _ _ _ _ _ =>
      rw [Function.update_of_ne (by simp), hbefore] at hafter
      cases hafter

/-- A row that is bound to no stream is only left behind by a delivery that fails. -/
theorem Committed.created_failed (h : Committed app before locks trace r response after)
    (hbefore : before (.aggregateInstance key instanceID) = none)
    (hafter : after (.aggregateInstance key instanceID) = some Aggregate.newInstanceRow) :
    ∃ handlerKey c a messageID, r = .aggregateCommand handlerKey c a ∧
      response = .delivery (.failed messageID) := by
  have hsame : after (.aggregateInstance key instanceID) ≠
      before (.aggregateInstance key instanceID) := by
    rw [hbefore, hafter]
    nofun
  cases h with
  | executeCommand hadded => cases hadded <;> exact absurd (by simp) hsame
  | aggregateCommand hcommitted =>
      cases hcommitted with
      | idle => exact absurd rfl hsame
      | unreadable _ => exact absurd (by simp) hsame
      | delivered _ hcompletes => exact absurd rfl (completes_bound hcompletes hbefore hafter)
      | failed _ _ => exact ⟨_, _, _, _, rfl, rfl⟩
      | busy _ hleaves =>
          cases hleaves
          exact absurd (by simp) hsame
  | integrationCommand hcommitted =>
      exact absurd (integration_frame hcommitted (by simp) (by simp)) hsame
  | deadline hcommitted => exact absurd (hcommitted.frame (.aggregateInstance ..)) hsame
  | consume hconsumed => exact absurd (hconsumed.frame (.aggregateInstance ..) (by simp)) hsame

/-- What a transaction of the aggregate command pump has committed. -/
theorem withdraws_of_serial {record : Transaction ρ} {c : Circumstances} {a : Aggregate.Attempt}
    (h : Serial databaseRely (program app) record)
    (hrequest : record.request = .aggregateCommand key c a) :
    ∃ o locks, record.result = .delivery o ∧
      CommandCommitted
        (fun messageID env =>
          Aggregate.Completes (app.aggregate key) a messageID env record.before locks)
        (Aggregate.Withdraws (app.aggregate key) a record.before) record.before o
        record.after := by
  obtain ⟨s, hruns, -, hafter⟩ := h
  rw [hrequest, program, runs_transact] at hruns
  obtain ⟨outcome, hresponse, hdeliver⟩ := Tx.runs_ok_return hruns
  refine ⟨outcome, s.locks, hresponse, ?_⟩
  rw [hafter]
  exact Aggregate.commandPump_withdraws hdeliver

/-- The transaction changes no more than when, and after how many failures, the command is
delivered again. -/
def OnlyPostpones (messageID : UUID) (record : Transaction ρ) : Prop :=
  ∃ row failures deliverAt, record.before (.command messageID) = some row ∧
    record.after = Function.update record.before (.command messageID)
      (some (postponed row failures deliverAt))

theorem withdraws_unchanged {record : Transaction ρ} {c : Circumstances} {a : Aggregate.Attempt}
    {messageID : UUID} {left : Database}
    (h : Aggregate.Withdraws (app.aggregate key) a record.before .failed left)
    (hnew : ¬ PanicsOnNew app record) (hrequest : record.request = .aggregateCommand key c a)
    (hresult : record.result = .delivery (.failed messageID)) : left = record.before := by
  cases h with
  | unchanged => rfl
  | created hunpacks hroute hnone hpanics =>
      rw [app.aggregate_key] at hnone
      exact absurd
        ⟨key, c, a, messageID, _, hrequest, hresult, hunpacks, hpanics, hroute, hnone⟩ hnew

theorem onlyPostpones_of_serial {record : Transaction ρ} {c : Circumstances}
    {a : Aggregate.Attempt} {messageID : UUID}
    (h : Serial databaseRely (program app) record) (hnew : ¬ PanicsOnNew app record)
    (hrequest : record.request = .aggregateCommand key c a)
    (hresult : record.result = .delivery (.failed messageID) ∨
      record.result = .delivery (.busy messageID)) : OnlyPostpones messageID record := by
  obtain ⟨o, locks, ho, hcommitted⟩ := withdraws_of_serial h hrequest
  rw [ho] at hresult
  generalize hafter : record.after = after at hcommitted
  cases hcommitted with
  | idle => rcases hresult with hresult | hresult <;> cases hresult
  | unreadable _ => rcases hresult with hresult | hresult <;> cases hresult
  | delivered _ _ => rcases hresult with hresult | hresult <;> cases hresult
  | failed hrow hleaves =>
      have hleft := withdraws_unchanged hleaves hnew hrequest ho
      subst hleft
      rcases hresult with hresult | hresult <;> cases hresult
      exact ⟨_, _, _, hrow, hafter⟩
  | busy hrow hleaves =>
      -- Nothing has been written by the time that a lock turns out to be held.
      cases hleaves
      rcases hresult with hresult | hresult <;> cases hresult
      exact ⟨_, _, _, hrow, hafter⟩

end Commit

/-! ## Every run -/

/-- Every instance is bound to a stream that holds an event of it. -/
def InstancesBound (rows : Database) : Prop :=
  ∀ key instanceID row, rows (.aggregateInstance key instanceID) = some row →
    ∃ streamID, row.streamID = some streamID ∧
      ∃ event ∈ (rows (.stream streamID)).events, event.aggregate = some (key, instanceID)

section Runs

variable {T : Type} [DecidableEq T] {app : Application ρ} {e : System T ρ}

theorem InstancesBound.commit {record : Transaction ρ} (h : InstancesBound record.before)
    (hserial : Serial databaseRely (program app) record)
    (hnew : ¬ PanicsOnNew app record) : InstancesBound record.after := by
  obtain ⟨locks, hcommitted⟩ := committed_of_serial hserial
  intro key instanceID row hrow
  have hchange := hcommitted.aggregateInstance key instanceID
  generalize record.request = r at hchange
  cases hchange with
  | kept hkept hevents =>
      rw [hkept] at hrow
      obtain ⟨streamID, hstream, event, hmem, haggregate⟩ := h key instanceID row hrow
      have hbefore : event ∈ Aggregate.instanceEvents key instanceID
          (record.before (.stream streamID)) :=
        List.mem_filter.mpr ⟨hmem, decide_eq_true haggregate⟩
      rw [← hevents streamID] at hbefore
      exact ⟨streamID, hstream, event, (List.mem_filter.mp hbefore).1, haggregate⟩
  | created hbefore hafter _ =>
      obtain ⟨handlerKey, c, a, messageID, hrequest, hresult⟩ :=
        hcommitted.created_failed hbefore hafter
      obtain ⟨_, _, _, -, hpostponed⟩ :=
        onlyPostpones_of_serial hserial hnew hrequest (Or.inl hresult)
      rw [hpostponed, Function.update_of_ne (by simp), hbefore] at hafter
      cases hafter
  | deleted _ _ hafter _ => cases hafter.symm.trans hrow
  | @completed _ _ _ cause _ scope streamID base _ hcompleted =>
      rw [hcompleted.row_eq] at hrow
      cases hrow
      refine ⟨streamID, Schema.Aggregate.completedInstance_streamID .., ?_⟩
      have hrows : EventStream.eventRows streamID
          ((app.aggregate key).packer.sealedHeader cause key instanceID).correlationID
          (some (key, instanceID)) base scope.events ≠ [] := by
        intro hnil
        have henvelopes := congrArg (List.map (·.envelope)) hnil
        rw [EventStream.eventRows_envelopes] at henvelopes
        exact hcompleted.nonempty henvelopes
      obtain ⟨event, hmem⟩ := List.exists_mem_of_ne_nil _ hrows
      refine ⟨event, ?_, EventStream.eventRows_aggregate hmem⟩
      rw [hcompleted.stream]
      exact List.mem_append_right _ hmem

/-- Commands that aggregates fail to handle, in every run in which no handler panics on a
command for an instance that does not exist. -/
theorem failed_command_only_postponed (h : Reaches app AnyRequest start e)
    (hnew : ∀ record ∈ e.history, ¬ PanicsOnNew app record) :
    (∀ record ∈ e.history, ∀ key c a messageID, record.request = .aggregateCommand key c a →
      record.result = .delivery (.failed messageID) ∨
        record.result = .delivery (.busy messageID) →
      OnlyPostpones messageID record) ∧
    InstancesBound e.rows := by
  have hserial := Pool.history_serial (program_respects app) h start_consistent
    fun record hrecord => absurd hrecord List.not_mem_nil
  refine ⟨?_, ?_⟩
  · intro record hrecord key c a messageID hrequest hresult
    exact onlyPostpones_of_serial (hserial record hrecord) (hnew record hrecord) hrequest hresult
  · have hinvariant := (Pool.run_invariant (program_respects app)
      (fun _ rows history =>
        (∀ record ∈ history, ¬ PanicsOnNew app record) →
          InstancesBound rows) ?_ ?_ h start_consistent ?_).2
    · exact hinvariant hnew
    · intro begun rows history r hinv _
      exact hinv
    · intro begun history record hinv _ hrecord hall
      have hbefore := hinv fun other hother => hall other (List.mem_append_left _ hother)
      exact hbefore.commit hrecord
        (hall record (List.mem_append_right _ List.mem_cons_self))
    · intro _ key instanceID row hrow
      cases hrow

end Runs

/-- An attempt in which the handler of the instance `"a"` panics. -/
def panicking : Aggregate.Attempt := { recording [] with returns := false }

/-- The instance has recorded two events before its handler panics. -/
def panickedLater : System Unit Nat :=
  Pool.serve (program counters)
    [.executeCommand (commandEnvelope 11) 0,
      .aggregateCommand (uuid 50) (finding 11) panicking] countedTwo

theorem panickedLater_reached : Reaches counters AnyRequest start panickedLater :=
  .trans countedTwo_reached (Pool.serve_run () (fun _ => rfl) (allAllowed_anyRequest _ _))

theorem failed_command_only_postponed_later :
    (∃ record ∈ panickedLater.history, record.result = .delivery (.failed (uuid 11)) ∧
      OnlyPostpones (uuid 11) record) ∧ InstancesBound panickedLater.rows := by
  have hnew : ∀ record ∈ panickedLater.history, ¬ PanicsOnNew counters record := by
    intro record hrecord
    obtain ⟨i, hi, rfl⟩ := List.getElem_of_mem hrecord
    have hlength : i < 4 := hi
    rintro ⟨key, c, a, messageID, instanceID, hrequest, hresult, -, -, hroute, hnone⟩
    match i, hlength with
    | 0, _ => cases hrequest
    | 1, _ => cases hresult
    | 2, _ => cases hrequest
    | 3, _ =>
        cases hrequest
        cases hroute
        cases hnone
  obtain ⟨hpostponed, hbound⟩ := failed_command_only_postponed panickedLater_reached hnew
  have hlast : ∃ record ∈ panickedLater.history,
      record.request = .aggregateCommand (uuid 50) (finding 11) panicking ∧
        record.result = .delivery (.failed (uuid 11)) :=
    ⟨_, List.mem_of_getElem? (i := 3) rfl, rfl, rfl⟩
  obtain ⟨record, hrecord, hrequest, hresult⟩ := hlast
  exact ⟨⟨record, hrecord, hresult,
    hpostponed record hrecord _ _ _ _ hrequest (Or.inl hresult)⟩, hbound⟩

/-- The handler panics on the first command, which creates the instance. -/
def panickedFirst : System Unit Nat :=
  Pool.serve (program counters)
    [.executeCommand (commandEnvelope 10) 0,
      .aggregateCommand (uuid 50) (finding 10) panicking] start

/-- The row of an instance that has no events is committed. -/
theorem failed_command_leaves_instance :
    Reaches counters AnyRequest start panickedFirst ∧
      (∃ record ∈ panickedFirst.history, record.result = .delivery (.failed (uuid 10)) ∧
        record.before (.aggregateInstance (uuid 50) "a") = none ∧
        ¬ OnlyPostpones (uuid 10) record) ∧
      panickedFirst.rows (.aggregateInstance (uuid 50) "a") = some Aggregate.newInstanceRow ∧
      ¬ InstancesBound panickedFirst.rows := by
  refine ⟨Pool.serve_run () (fun _ => rfl) (allAllowed_anyRequest _ _), ?_, rfl, ?_⟩
  · refine ⟨_, List.mem_of_getElem? (i := 1) rfl, rfl, rfl, ?_⟩
    rintro ⟨row, failures, deliverAt, -, hafter⟩
    have hinstance := congrFun hafter (.aggregateInstance (uuid 50) "a")
    rw [Function.update_of_ne (by simp)] at hinstance
    cases hinstance
  · intro hbound
    obtain ⟨streamID, hstream, -⟩ := hbound (uuid 50) "a" Aggregate.newInstanceRow rfl
    cases hstream

end Runkit.Engine
