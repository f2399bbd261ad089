/-
  Engine/Causality.lean --- where messages come from.

  Each envelope has a causation ID, that of the message that was being handled when it was
  packed, and a correlation ID, that of the message at the beginning of all this.
  `Engine.ExecuteCommand` finds the events that a command has led to by their correlation
  IDs, in a column of their own.

  Whatever is queued, scheduled or recorded descends, by way of committed transactions, from
  a command that was executed or from an event of another engine (`Descends`), and has the
  correlation ID of the message that it descends from.

  That an effect refers to its cause and has its correlation ID is up to the packer, and is
  assumed of it (`Packer`).  What is shown here is that the engine packs every message on
  behalf of the one that it is handling, that it stores what has been packed and nothing else,
  and that the column agrees with the envelope.

  Source: execute.go, internal/aggregate/commandpump.go, internal/integration/commandpump.go,
  internal/process/sink.go, internal/process/deadlinepump.go and
  internal/eventstream/source/local.go (loadSegment).
-/
import Runkit.Engine.Commands
import Runkit.Engine.Instances

set_option autoImplicit false

namespace Runkit.Engine

open Runkit.Foundation Runkit.Schema Runkit.MessagePump

variable {ρ : Type}

/-! ## Messages -/

/-- The database holds the message in the envelope. -/
inductive Stored (rows : Database) : Envelope → Prop where
  | command {messageID : UUID} {row : CommandRow} (h : rows (.command messageID) = some row) :
      Stored rows row.envelope
  | deadline {messageID : UUID} {row : DeadlineRow} (h : rows (.deadline messageID) = some row) :
      Stored rows row.envelope
  | event {streamID : UUID} {row : EventRow} (h : row ∈ (rows (.stream streamID)).events) :
      Stored rows row.envelope

/-- The event as `loadSegment` returns it: its envelope says where it is. -/
def located (row : EventRow) : Envelope :=
  { row.envelope with
    body := { row.envelope.body with position := some ⟨row.streamID, row.streamOffset⟩ } }

/-- The message that a transaction takes up: what its message pump has acquired, or the event
that its sink is passed. -/
def takenUp (before : Database) : Request ρ → Response → Option Envelope
  | .aggregateCommand _ _ _, .delivery o | .integrationCommand _ _ _, .delivery o =>
      (acquired o).bind fun messageID => (before (.command messageID)).map (·.envelope)
  | .deadline _ _ _, .delivery o =>
      (acquired o).bind fun messageID => (before (.deadline messageID)).map (·.envelope)
  | .consume _ call, .consumed _ => call.env
  | _, _ => none

/-- The second message was packed while the first one was being handled. -/
structure EffectOf (cause env : Envelope) : Prop where
  causation : env.header.causationID = cause.body.messageID
  correlation : env.header.correlationID = cause.header.correlationID

/-- A message with the header of the effects of another one is one of them. -/
theorem EffectOf.of_header {packer : Packer} {cause env : Envelope} {key : UUID}
    {instanceID : String} (hheader : env.header = packer.sealedHeader cause key instanceID) :
    EffectOf cause env where
  causation := by rw [hheader, packer.causationID_eq]
  correlation := by rw [hheader, packer.correlationID_eq]

/-- A message that was not there before the transaction. -/
inductive Introduced (before : Database) (r : Request ρ) (response : Response)
    (env : Envelope) : Prop where
  | executed {now : Time} (hrequest : r = .executeCommand env now)
      (hresult : response = .added env.body.messageID true)
  | effect {cause : Envelope} (htaken : takenUp before r response = some cause)
      (heffect : EffectOf cause env)

/-! ## What one transaction introduces -/

section Changes

variable {app : Application ρ} {before after : Database} {locks : Key → Bool}
  {trace : List (Observation ρ)} {r : Request ρ} {response : Response}

theorem takenUp_stored {cause : Envelope} (h : takenUp before r response = some cause) :
    Stored before cause ∨ ∃ key call, r = .consume key call ∧ call.env = some cause := by
  unfold takenUp at h
  split at h
  · obtain ⟨messageID, -, henv⟩ := Option.bind_eq_some_iff.mp h
    obtain ⟨row, hrow, rfl⟩ := Option.map_eq_some_iff.mp henv
    exact Or.inl (.command hrow)
  · obtain ⟨messageID, -, henv⟩ := Option.bind_eq_some_iff.mp h
    obtain ⟨row, hrow, rfl⟩ := Option.map_eq_some_iff.mp henv
    exact Or.inl (.command hrow)
  · obtain ⟨messageID, -, henv⟩ := Option.bind_eq_some_iff.mp h
    obtain ⟨row, hrow, rfl⟩ := Option.map_eq_some_iff.mp henv
    exact Or.inl (.deadline hrow)
  · exact Or.inr ⟨_, _, rfl, h⟩
  · cases h

/-! ### Events -/

/-- An event that a transaction has appended has the correlation ID of the message that the
transaction takes up, in its envelope and in its column. -/
structure Recorded (before : Database) (r : Request ρ) (response : Response) (row : EventRow) :
    Prop where
  introduced : Introduced before r response row.envelope
  column : row.correlationID = row.envelope.header.correlationID

/-- The events of one multi-envelope are recorded with the correlation ID in its header. -/
theorem eventRows_recorded {packer : Packer} {cause : Envelope} {streamID key : UUID}
    {instanceID : String} {aggregate : Option (UUID × String)} {base : Nat}
    {events : List Envelope} {row : EventRow}
    (htaken : takenUp before r response = some cause)
    (hheaders : ∀ env ∈ events, env.header = packer.sealedHeader cause key instanceID)
    (hrow : row ∈ EventStream.eventRows streamID
      (packer.sealedHeader cause key instanceID).correlationID aggregate base events) :
    Recorded before r response row := by
  obtain ⟨i, hi, rfl⟩ := List.mem_mapIdx.mp hrow
  have hheader := hheaders _ (List.getElem_mem hi)
  exact ⟨.effect htaken (.of_header hheader), congrArg Header.correlationID hheader.symm⟩

/-- An event on a stream was there before, or has been recorded. -/
theorem Committed.eventRecorded (h : Committed app before locks trace r response after)
    {id : UUID} {row : EventRow} (hrow : row ∈ (after (.stream id)).events) :
    row ∈ (before (.stream id)).events ∨ Recorded before r response row := by
  have hsame : after (.stream id) = before (.stream id) →
      row ∈ (before (.stream id)).events ∨ Recorded before r response row :=
    fun heq => Or.inl (heq ▸ hrow)
  cases h with
  | executeCommand hadded => exact hsame (by cases hadded <;> simp)
  | @aggregateCommand key c a o _ hcommitted =>
      cases hcommitted with
      | idle => exact hsame rfl
      | unreadable _ => exact hsame (by simp)
      | failed _ hleaves => exact hsame (by simp [hleaves.frame])
      | busy _ hleaves => exact hsame (by simp [hleaves.frame])
      | @delivered messageID command _ hcommand hcompletes =>
          cases hcompletes with
          | withoutEvents _ _ _ => exact hsame (by simp)
          | missing _ _ _ _ _ => exact hsame (by simp)
          | @withEvents instanceID _ scope streamID base _ hhandled _ hcompleted =>
              by_cases hid : id = streamID
              · subst hid
                rw [hcompleted.stream, EventStream.appended] at hrow
                obtain hold | hnew := List.mem_append.mp hrow
                · exact Or.inl hold
                · refine Or.inr (eventRows_recorded (by simp [takenUp, acquired, hcommand]) ?_
                    hnew)
                  intro env henv
                  rw [Aggregate.handleCommand_events hhandled.scope_eq] at henv
                  obtain ⟨call, -, rfl⟩ := List.mem_map.mp henv
                  exact Packer.packEffect_header ..
              · exact hsame (hcompleted.frame _ (by simpa using hid) (by simp) (by simp))
  | @integrationCommand key c a o _ hcommitted =>
      cases hcommitted with
      | idle => exact hsame rfl
      | unreadable _ => exact hsame (by simp)
      | failed _ hleaves => exact hsame (by simp [hleaves.2])
      | busy _ hleaves => exact hsame (by simp [hleaves.2])
      | @delivered messageID command _ hcommand hcompletes =>
          cases hcompletes with
          | withoutEvents _ => exact hsame (by simp)
          | @withEvents events streamID base _ hhandled hcompleted =>
              by_cases hid : id = streamID
              · subst hid
                rw [hcompleted.stream, EventStream.appended] at hrow
                obtain hold | hnew := List.mem_append.mp hrow
                · exact Or.inl hold
                · refine Or.inr (eventRows_recorded (by simp [takenUp, acquired, hcommand]) ?_
                    hnew)
                  intro env henv
                  rw [Integration.handleCommand_events hhandled] at henv
                  obtain ⟨call, -, rfl⟩ := List.mem_map.mp henv
                  exact Packer.packEffect_header ..
              · exact hsame (hcompleted.frame _ (by simpa using hid) (by simp))
  | deadline hcommitted => exact hsame (hcommitted.frame (.stream id))
  | consume hconsumed => exact hsame (hconsumed.frame (.stream id) (by simp))

/-! ### Commands and deadlines -/

/-- A message is stored as long as the tables of messages do not change. -/
theorem Stored.congr {rows rows' : Database} {env : Envelope} (h : Stored rows env)
    (hcommands : ∀ messageID, rows' (.command messageID) = rows (.command messageID))
    (hdeadlines : ∀ messageID, rows' (.deadline messageID) = rows (.deadline messageID))
    (hstreams : ∀ id, rows' (.stream id) = rows (.stream id)) : Stored rows' env := by
  cases h with
  | command hrow => exact .command ((hcommands _).trans hrow)
  | deadline hrow => exact .deadline ((hdeadlines _).trans hrow)
  | event hrow => exact .event ((hstreams _).symm ▸ hrow)

/-- A message that is stored after a deadline has been written was stored before, or is that
deadline. -/
theorem Stored.of_update_deadline {rows : Database} {messageID : UUID}
    {deadline : Option DeadlineRow} {env : Envelope}
    (h : Stored (Function.update rows (.deadline messageID) deadline) env) :
    Stored rows env ∨ ∃ row, deadline = some row ∧ row.envelope = env := by
  generalize hrows : Function.update rows (.deadline messageID) deadline = rows' at h
  cases h with
  | command hrow =>
      rw [← hrows, Function.update_of_ne (by simp)] at hrow
      exact Or.inl (.command hrow)
  | @deadline other row hrow =>
      by_cases hid : other = messageID
      · subst hid
        rw [← hrows, Function.update_self] at hrow
        exact Or.inr ⟨row, hrow, rfl⟩
      · rw [← hrows, Function.update_of_ne (by simpa using hid)] at hrow
        exact Or.inl (.deadline hrow)
  | event hrow =>
      rw [← hrows, Function.update_of_ne (by simp)] at hrow
      exact Or.inl (.event hrow)

theorem Stored.of_withCheckpoint {rows : Database} {key streamID : UUID} {offset : Nat}
    {env : Envelope} (h : Stored (Process.withCheckpoint key streamID offset rows) env) :
    Stored rows env :=
  h.congr (fun _ => (Process.withCheckpoint_of_ne (by simp)).symm)
    (fun _ => (Process.withCheckpoint_of_ne (by simp)).symm)
    (fun _ => (Process.withCheckpoint_of_ne (by simp)).symm)

theorem Stored.of_withInstance {rows : Database} {key : UUID} {instanceID : String}
    {row : ProcessInstanceRow} {env : Envelope}
    (h : Stored (Process.withInstance key instanceID row rows) env) : Stored rows env :=
  h.congr (fun _ => (Process.withInstance_of_ne (by simp)).symm)
    (fun _ => (Process.withInstance_of_ne (by simp)).symm)
    (fun _ => (Process.withInstance_of_ne (by simp)).symm)

section Processes

variable {h : ProcessHandler ρ} {b : Process.Behavior ρ} {cause env : Envelope}
  {instanceID : String} {row : ProcessInstanceRow} {scope : Process.Scope ρ}

/-- A command in the queue was there before, or is one of those that have been added. -/
theorem Stored.of_withCommands {rows : Database} {now : Time} {envs : List Envelope}
    (hdistinct : (envs.map (·.body.messageID)).Nodup)
    (hstored : Stored (Process.withCommands now envs rows) env) :
    Stored rows env ∨ env ∈ envs := by
  generalize hrows : Process.withCommands now envs rows = rows' at hstored
  cases hstored with
  | @command messageID command hcommand =>
      rw [← hrows] at hcommand
      by_cases hmem : ∃ env ∈ envs, env.body.messageID = messageID
      · obtain ⟨env, henv, rfl⟩ := hmem
        rw [Process.withCommands_of_mem henv hdistinct] at hcommand
        cases hcommand
        exact Or.inr henv
      · rw [Process.withCommands_of_not_mem fun env henv heq => hmem ⟨env, henv, heq⟩] at hcommand
        exact Or.inl (.command hcommand)
  | deadline hdeadline =>
      rw [← hrows, Process.withCommands_of_ne (by simp)] at hdeadline
      exact Or.inl (.deadline hdeadline)
  | event hevent =>
      rw [← hrows, Process.withCommands_of_ne (by simp)] at hevent
      exact Or.inl (.event hevent)

/-- What a process handler sends while it handles a message is an effect of that message. -/
theorem effects_of_invoked (hinvoked : Process.Invoked h b cause instanceID before row scope) :
    (∀ env ∈ scope.commands, EffectOf cause env) ∧ ∀ env ∈ scope.deadlines, EffectOf cause env := by
  have hpacked := Process.handleMessage_packedBy hinvoked.scope_eq
  constructor
  · intro env henv
    obtain ⟨effect, -, rfl⟩ := hpacked.commands env henv
    exact .of_header (h.packer.packEffect_header ..)
  · intro env henv
    obtain ⟨effect, t, -, rfl⟩ := hpacked.deadlines env henv
    exact .of_header (h.packer.packDeadline_header ..)

/-- What is stored once the effects of a handler have been applied. -/
theorem Stored.of_applyScope (hinvoked : Process.Invoked h b cause instanceID before row scope)
    (hdistinct : scope.ended = false → (scope.deadlines.map (·.body.messageID)).Nodup)
    (hstored : Stored (Process.applyScope h b instanceID row scope
      (Process.withInstance h.key instanceID row before)) env) :
    Stored before env ∨ EffectOf cause env := by
  obtain ⟨hcommands, hdeadlines⟩ := effects_of_invoked hinvoked
  generalize hrows : Process.applyScope h b instanceID row scope
    (Process.withInstance h.key instanceID row before) = rows at hstored
  cases hstored with
  | command hcommand =>
      rw [← hrows, Process.applyScope_command] at hcommand
      obtain hold | hnew := Stored.of_withCommands hinvoked.distinct (.command hcommand)
      · exact Or.inl hold.of_withInstance
      · exact Or.inr (hcommands _ hnew)
  | @deadline messageID deadline hdeadline =>
      have hrescheduled : Rescheduled h.key instanceID scope messageID
          (before (.deadline messageID)) (some deadline) := by
        rw [← hdeadline, ← hrows]
        exact applyScope_rescheduled hdistinct messageID
      generalize hold : before (.deadline messageID) = old at hrescheduled
      cases hrescheduled with
      | kept _ => exact Or.inl (.deadline hold)
      | scheduled _ henv _ => exact Or.inr (hdeadlines _ henv)
  | event hevent =>
      rw [← hrows, Process.applyScope_frame (.stream _)] at hevent
      exact Or.inl (.event hevent)

end Processes

/-- What a transaction of the deadline pump stores. -/
theorem Stored.of_deadlineCommitted {key : UUID} {c : Circumstances}
    {a : Process.DeadlineAttempt ρ} {o : Outcome} {env : Envelope}
    (h : Process.DeadlineCommitted (app.process key) c a before locks o after)
    (hstored : Stored after env) :
    Stored before env ∨ Introduced before (.deadline key c a) (.delivery o) env := by
  have htaken : ∀ {o : Outcome} {messageID : UUID} {row : DeadlineRow},
      acquired o = some messageID → before (.deadline messageID) = some row →
      takenUp before (.deadline key c a) (.delivery o) = some row.envelope := by
    intro o messageID row ho hrow
    simp [takenUp, ho, hrow]
  have hpostponed : ∀ {messageID : UUID} {row : DeadlineRow} {failures : Nat} {t : Time},
      before (.deadline messageID) = some row →
      Stored before (Process.postponedDeadline row failures t).envelope := by
    intro messageID row failures t hrow
    have hold : Stored before row.envelope := .deadline hrow
    exact hold
  cases h with
  | idle => exact Or.inl hstored
  | unreadable hacquired =>
      obtain hold | ⟨_, heq, rfl⟩ := hstored.of_update_deadline
      · exact Or.inl hold
      · cases heq
        exact Or.inl (hpostponed hacquired.row_eq)
  | delivered hacquired hcompletes _ =>
      refine Or.imp_right (.effect (htaken rfl hacquired.row_eq)) ?_
      cases hcompletes with
      | ended hinvoked hended => exact hstored.of_applyScope hinvoked (by simp [hended])
      | saved hinvoked _ _ _ hdistinct =>
          obtain hstored | ⟨_, heq, -⟩ := hstored.of_update_deadline
          · exact hstored.of_applyScope hinvoked fun _ => hdistinct
          · cases heq
  | failed hacquired hleaves =>
      obtain hleft | ⟨_, heq, rfl⟩ := hstored.of_update_deadline
      swap
      · cases heq
        exact Or.inl (hpostponed hacquired.row_eq)
      refine Or.imp_right (.effect (htaken rfl hacquired.row_eq)) ?_
      cases hleaves with
      | failed => exact Or.inl hleft
      | loaded _ => exact Or.inl hleft.of_withInstance
      | unsaved hinvoked _ _ _ =>
          -- The commands stay although the deadline is going to be handled again.
          obtain hold | hnew := hleft.of_withCommands hinvoked.distinct
          · exact Or.inl hold.of_withInstance
          · exact Or.inr ((effects_of_invoked hinvoked).1 _ hnew)

/-- What a transaction of a sink stores. -/
theorem Stored.of_consumed {key : UUID} {call : Process.ConsumeCall ρ} {actual : Nat}
    {env : Envelope} (h : Process.Consumed (app.process key) call before locks actual trace after)
    (hstored : Stored after env) :
    Stored before env ∨ Introduced before (.consume key call) (.consumed actual) env := by
  cases h with
  | conflict _ _ => exact Or.inl hstored.of_withCheckpoint
  | skipped _ _ => exact Or.inl hstored.of_withCheckpoint
  | dispatched _ henv hdispatched =>
      refine Or.imp_right (.effect henv) ?_
      have hafter := hstored.of_withCheckpoint
      cases hdispatched with
      | unrouted => exact Or.inl hafter.of_withCheckpoint
      | ended _ _ _ => exact Or.inl hafter.of_withCheckpoint
      | handled _ hinvoked _ _ _ hdistinct =>
          exact (hafter.of_applyScope hinvoked hdistinct).imp_left Stored.of_withCheckpoint

/-- A transaction that delivers commands adds none. -/
theorem CommandChange.envelope {messageID : UUID} {command : Option CommandRow}
    {row : CommandRow} {o : Outcome}
    (h : CommandChange messageID command (some row) (some o)) :
    ∃ old, command = some old ∧ row.envelope = old.envelope := by
  cases h with
  | failed hold => exact ⟨_, hold, rfl⟩
  | unreadable hold => exact ⟨_, hold, rfl⟩
  | busy hold => exact ⟨_, hold, rfl⟩
  | other _ => exact ⟨row, rfl, rfl⟩

theorem Added.introduced {env : Envelope} {now : Time} {actual messageID : UUID}
    {enqueued : Bool} {row : CommandRow} (h : Added env now before actual enqueued after)
    (hrow : after (.command messageID) = some row) :
    Stored before row.envelope ∨
      Introduced before (.executeCommand env now : Request ρ) (.added actual enqueued)
        row.envelope := by
  have hinserted : ∀ {db : Database},
      db (.command messageID) = before (.command messageID) →
      Function.update db (.command env.body.messageID) (some (CommandQueue.newRow env now))
        (.command messageID) = some row →
      Stored before row.envelope ∨ row.envelope = env := by
    intro db hdb hafter
    by_cases hid : messageID = env.body.messageID
    · subst hid
      rw [Function.update_self] at hafter
      cases hafter
      exact Or.inr rfl
    · rw [Function.update_of_ne (by simpa using hid), hdb] at hafter
      exact Or.inl (.command hafter)
  cases h with
  | deduplicated _ _ => exact Or.inl (.command hrow)
  | claimed _ _ _ =>
      obtain hold | hnew := hinserted (by simp) hrow
      · exact Or.inl hold
      · exact Or.inr (.executed (by rw [hnew]) (by rw [hnew]))
  | keyless _ _ =>
      obtain hold | hnew := hinserted rfl hrow
      · exact Or.inl hold
      · exact Or.inr (.executed (by rw [hnew]) (by rw [hnew]))

/-- Every message that is stored was stored before, or has been introduced. -/
theorem Committed.introduced (h : Committed app before locks trace r response after)
    {env : Envelope} (hstored : Stored after env) :
    Stored before env ∨ Introduced before r response env := by
  cases hr : r.ofProcess with
  | true =>
      cases h with
      | deadline hcommitted => exact hstored.of_deadlineCommitted hcommitted
      | consume hconsumed => exact hstored.of_consumed hconsumed
      | _ => cases hr
  | false =>
      cases hstored with
      | deadline hrow => exact Or.inl (.deadline ((h.processFrame hr .deadline).symm.trans hrow))
      | event hrow =>
          obtain hold | hnew := h.eventRecorded hrow
          · exact Or.inl (.event hold)
          · exact Or.inr hnew.introduced
      | @command messageID row hrow =>
          have hchange := h.command messageID
          cases h with
          | executeCommand hadded => exact hadded.introduced hrow
          | deadline _ => cases hr
          | consume _ => cases hr
          | _ =>
              rw [hrow] at hchange
              obtain ⟨old, hold, heq⟩ := hchange.envelope
              exact Or.inl (heq ▸ .command hold)

end Changes

/-! ## Descent -/

/-- The message entered the engine: as a command that was executed, or as an event that a
sink was passed and that is not on any of the streams of the database. -/
inductive Origin (history : List (Transaction ρ)) (env : Envelope) : Prop where
  | executed {record : Transaction ρ} {now : Time} (hrecord : record ∈ history)
      (hrequest : record.request = .executeCommand env now)
      (hresult : record.result = .added env.body.messageID true)
  | foreign {record : Transaction ρ} {key : UUID} {call : Process.ConsumeCall ρ}
      (hrecord : record ∈ history) (hrequest : record.request = .consume key call)
      (henv : call.env = some env)
      (hforeign : ∀ id, ∀ row ∈ (record.before (.stream id)).events, located row ≠ env)

/-- By way of committed transactions, the message goes back to the origin. -/
inductive Descends (history : List (Transaction ρ)) (origin : Envelope) : Envelope → Prop where
  | origin (h : Origin history origin) : Descends history origin origin
  | effect {cause env : Envelope} {record : Transaction ρ}
      (hcause : Descends history origin cause) (hrecord : record ∈ history)
      (htaken : takenUp record.before record.request record.result = some cause)
      (heffect : EffectOf cause env) (hstored : Stored record.after env) :
      Descends history origin env
  /-- An event is read from its stream. -/
  | read {row : EventRow} (h : Descends history origin row.envelope) :
      Descends history origin (located row)

section Descent

variable {history : List (Transaction ρ)} {record : Transaction ρ} {origin env : Envelope}

theorem Origin.append (h : Origin history env) : Origin (history ++ [record]) env := by
  cases h with
  | executed hrecord hrequest hresult =>
      exact .executed (List.mem_append_left _ hrecord) hrequest hresult
  | foreign hrecord hrequest henv hforeign =>
      exact .foreign (List.mem_append_left _ hrecord) hrequest henv hforeign

theorem Descends.append (h : Descends history origin env) :
    Descends (history ++ [record]) origin env := by
  induction h with
  | origin horigin => exact .origin horigin.append
  | effect _ hrecord htaken heffect hstored ih =>
      exact .effect ih (List.mem_append_left _ hrecord) htaken heffect hstored
  | read _ ih => exact .read ih

/-- The correlation ID is handed down. -/
theorem Descends.correlationID (h : Descends history origin env) :
    env.header.correlationID = origin.header.correlationID := by
  induction h with
  | origin _ => rfl
  | effect _ _ _ heffect _ ih => exact heffect.correlation.trans ih
  | read _ ih => exact ih

theorem Descends.isOrigin (h : Descends history origin env) : Origin history origin := by
  induction h with
  | origin horigin => exact horigin
  | effect _ _ _ _ _ ih => exact ih
  | read _ ih => exact ih

end Descent

/-! ## What holds in every state -/

/-- Every message in the database descends from somewhere, and events can be found by their
correlation IDs. -/
structure CausalInvariant (rows : Database) (history : List (Transaction ρ)) : Prop where
  descends : ∀ env, Stored rows env → ∃ origin, Descends history origin env
  columns : ∀ id, ∀ row ∈ (rows (.stream id)).events,
    row.correlationID = row.envelope.header.correlationID

theorem CausalInvariant.initial : CausalInvariant emptyDatabase ([] : List (Transaction ρ)) where
  descends := by
    intro env henv
    generalize hrows : emptyDatabase = rows at henv
    cases henv with
    | command hrow => rw [← hrows] at hrow; cases hrow
    | deadline hrow => rw [← hrows] at hrow; cases hrow
    | event hrow => rw [← hrows] at hrow; cases hrow
  columns := by
    intro id row hrow
    cases hrow

/-- The message that a transaction takes up descends from somewhere. -/
theorem CausalInvariant.takenUp {history : List (Transaction ρ)} {record : Transaction ρ}
    {cause : Envelope} (hinv : CausalInvariant record.before history)
    (htaken : takenUp record.before record.request record.result = some cause) :
    ∃ origin, Descends (history ++ [record]) origin cause := by
  obtain hstored | ⟨key, call, hrequest, henv⟩ := takenUp_stored htaken
  · obtain ⟨origin, hdescends⟩ := hinv.descends cause hstored
    exact ⟨origin, hdescends.append⟩
  · by_cases hlocal : ∃ id, ∃ row ∈ (record.before (.stream id)).events, located row = cause
    · obtain ⟨id, row, hrow, rfl⟩ := hlocal
      obtain ⟨origin, hdescends⟩ := hinv.descends row.envelope (.event hrow)
      exact ⟨origin, .read hdescends.append⟩
    · refine ⟨cause, .origin (.foreign (by simp) hrequest henv ?_)⟩
      intro id row hrow heq
      exact hlocal ⟨id, row, hrow, heq⟩

theorem CausalInvariant.commit {app : Application ρ} {history : List (Transaction ρ)}
    {record : Transaction ρ} {locks : Key → Bool}
    (hinv : CausalInvariant record.before history)
    (h : Committed app record.before locks record.trace record.request record.result
      record.after) :
    CausalInvariant record.after (history ++ [record]) where
  descends := by
    intro env hstored
    obtain hold | hnew := h.introduced hstored
    · obtain ⟨origin, hdescends⟩ := hinv.descends env hold
      exact ⟨origin, hdescends.append⟩
    · cases hnew with
      | executed hrequest hresult => exact ⟨env, .origin (.executed (by simp) hrequest hresult)⟩
      | effect htaken heffect =>
          obtain ⟨origin, hdescends⟩ := hinv.takenUp htaken
          exact ⟨origin, .effect hdescends (by simp) htaken heffect hstored⟩
  columns := by
    intro id row hrow
    obtain hold | hnew := h.eventRecorded hrow
    · exact hinv.columns id row hold
    · exact hnew.column

section Runs

variable {T : Type} [DecidableEq T] {app : Application ρ}
  {allow : List (Request ρ) → Request ρ → Prop} {e : System T ρ}

theorem causal_invariant (h : Reaches app allow start e) : CausalInvariant e.rows e.history :=
  (invariant_of_committed (fun _ rows history => CausalInvariant rows history)
    (fun _ _ _ _ hinv _ => hinv) (fun _ _ _ _ hinv _ h => hinv.commit h) h start_consistent
    .initial).2

/-- Whatever is queued, scheduled or recorded goes back, by way of committed transactions, to
a command that was executed or to an event of another engine, whose correlation ID it has.
An event that `waitForEvents` selects by its correlation ID goes back to a message with that
correlation ID. -/
theorem messages_descend_from_origins (h : Reaches app allow start e) :
    (∀ env, Stored e.rows env → ∃ origin, Origin e.history origin ∧
      Descends e.history origin env ∧
      env.header.correlationID = origin.header.correlationID) ∧
    ∀ id, ∀ row ∈ (e.rows (.stream id)).events, ∃ origin, Origin e.history origin ∧
      Descends e.history origin row.envelope ∧
      row.correlationID = origin.header.correlationID := by
  have hinv := causal_invariant h
  constructor
  · intro env hstored
    obtain ⟨origin, hdescends⟩ := hinv.descends env hstored
    exact ⟨origin, hdescends.isOrigin, hdescends, hdescends.correlationID⟩
  · intro id row hrow
    obtain ⟨origin, hdescends⟩ := hinv.descends row.envelope (.event hrow)
    exact ⟨origin, hdescends.isOrigin, hdescends,
      (hinv.columns id row hrow).trans hdescends.correlationID⟩

end Runs

/-- The process reacts to the first event of the aggregate with a command. -/
def followedUp : System Unit Nat :=
  Pool.serve (program counters)
    [.consume (uuid 60)
      { streamID := uuid 100
        cp := 0
        next := 1
        env := ((countedTwo.rows (.stream (uuid 100))).events.map located).head?
        attempt :=
          { unpacks := true
            routing := .routed "p"
            behavior := calling
              [.executeCommand
                { messageID := uuid 40, message := { typeID := uuid 1, data := [] } } true false]
              true } }] countedTwo

/-- The command, like the event that it follows, goes back to a message with the correlation
ID of the command that was executed. -/
theorem messages_descend_from_origins_counted :
    (∃ row, followedUp.rows (.command (uuid 40)) = some row ∧
      row.envelope.header.causationID = uuid 20 ∧
      ∃ origin, Origin followedUp.history origin ∧
        Descends followedUp.history origin row.envelope ∧
        origin.header.correlationID = uuid 10) ∧
    ∃ row ∈ (followedUp.rows (.stream (uuid 100))).events, row.messageID = uuid 21 ∧
      ∃ origin, Origin followedUp.history origin ∧
        Descends followedUp.history origin row.envelope ∧
        row.correlationID = origin.header.correlationID := by
  have hreached : Reaches counters AnyRequest start followedUp :=
    .trans countedTwo_reached (Pool.serve_run () (fun _ => rfl) (allAllowed_anyRequest _ _))
  obtain ⟨hstored, hevents⟩ := messages_descend_from_origins hreached
  have hcommand : ∃ row, followedUp.rows (.command (uuid 40)) = some row ∧
      row.envelope.header.causationID = uuid 20 ∧
      row.envelope.header.correlationID = uuid 10 := ⟨_, rfl, rfl, rfl⟩
  have hlast : ∃ row ∈ (followedUp.rows (.stream (uuid 100))).events,
      row.messageID = uuid 21 := by decide
  obtain ⟨command, hrow, hcausation, hcorrelation⟩ := hcommand
  obtain ⟨origin, horigin, hdescends, hsame⟩ := hstored _ (.command hrow)
  obtain ⟨event, hevent, hid⟩ := hlast
  exact ⟨⟨command, hrow, hcausation, origin, horigin, hdescends, hsame.symm.trans hcorrelation⟩,
    event, hevent, hid, hevents _ event hevent⟩

end Runkit.Engine
