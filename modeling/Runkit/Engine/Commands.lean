/-
  Engine/Commands.lean --- every command is handled at most once.

  The row of a command is removed by the transaction that commits the events
  that the command caused, and by no other.  Any other transaction that delivers
  the command keeps the row.
-/
import Runkit.Engine.Streams

set_option autoImplicit false

namespace Runkit.Engine

open Runkit.Foundation Runkit.Schema Runkit.MessagePump

variable {ρ : Type}

/-! ## What one transaction does -/

/-- The outcome of a transaction that delivers a command. -/
def commandOutcome : Request ρ → Response → Option Outcome
  | .aggregateCommand _ _ _, .delivery o => some o
  | .integrationCommand _ _ _, .delivery o => some o
  | _, _ => none

/-- The message that a transaction of a message pump has acquired. -/
def acquired : Outcome → Option UUID
  | .idle => none
  | .unreadable messageID => some messageID
  | .delivered messageID => some messageID
  | .failed messageID => some messageID
  | .busy messageID => some messageID

/-- How a transaction can change the row of a command, given its outcome if it
delivers commands. -/
inductive CommandChange (messageID : UUID) (before : Option CommandRow) :
    Option CommandRow → Option Outcome → Prop where
  /-- The command has been handled, and is removed. -/
  | delivered {row : CommandRow} (hbefore : before = some row) :
      CommandChange messageID before none (some (.delivered messageID))
  /-- `ErrFailed`: the command stays queued, with one more failure. -/
  | failed {row : CommandRow} {deliverAt : Time} (hbefore : before = some row) :
      CommandChange messageID before (some (postponed row (row.failures + 1) deliverAt))
        (some (.failed messageID))
  /-- The envelope can not be unmarshaled: likewise. -/
  | unreadable {row : CommandRow} {deliverAt : Time} (hbefore : before = some row) :
      CommandChange messageID before (some (postponed row (row.failures + 1) deliverAt))
        (some (.unreadable messageID))
  /-- `ErrBusy`: the command stays queued, with as many failures as before. -/
  | busy {row : CommandRow} {deliverAt : Time} (hbefore : before = some row) :
      CommandChange messageID before (some (postponed row row.failures deliverAt))
        (some (.busy messageID))
  /-- The transaction delivers another command, or none. -/
  | other {o : Outcome} (hother : acquired o ≠ some messageID) :
      CommandChange messageID before before (some o)
  /-- The transaction does not deliver commands. -/
  | unrelated {after : Option CommandRow}
      (h : CommandQueue.KeptOrAdded messageID before after) :
      CommandChange messageID before after none

section Change

variable {app : Application ρ} {before after : Database} {locks : Key → Bool}
  {trace : List (Observation ρ)} {r : Request ρ} {response : Response}

theorem Added.command {env : Envelope} {now : Time} {actual : UUID} {enqueued : Bool}
    (h : Added env now before actual enqueued after) (messageID : UUID) :
    CommandQueue.KeptOrAdded messageID (before (.command messageID))
      (after (.command messageID)) := by
  cases h with
  | deduplicated _ _ => exact .kept
  | claimed _ _ hnew =>
      by_cases hid : env.body.messageID = messageID
      · subst hid
        rw [Function.update_self]
        exact .added rfl hnew
      · rw [Function.update_of_ne (by simpa using Ne.symm hid), Function.update_of_ne (by simp),
          Function.update_of_ne (by simp)]
        exact .kept
  | keyless _ hnew =>
      by_cases hid : env.body.messageID = messageID
      · subst hid
        rw [Function.update_self]
        exact .added rfl hnew
      · rw [Function.update_of_ne (by simpa using Ne.symm hid)]
        exact .kept

/-- What a transaction that delivers commands does to the row of a command, given
that handling a command successfully removes it and touches no other command, and
that handling a command unsuccessfully touches none. -/
theorem commandCommitted_command {completes : UUID → Envelope → Database → Prop}
    {leaves : Error → Database → Prop} {o : Outcome}
    (h : CommandCommitted completes leaves before o after)
    (hcompletes : ∀ delivered env db, completes delivered env db →
      ∀ messageID, db (.command messageID) =
        if messageID = delivered then none else before (.command messageID))
    (hleaves : ∀ e db, leaves e db →
      ∀ messageID, db (.command messageID) = before (.command messageID))
    (messageID : UUID) :
    CommandChange messageID (before (.command messageID)) (after (.command messageID))
      (some o) := by
  cases h with
  | idle => exact .other (by simp [acquired])
  | @unreadable acquiredID row deliverAt hrow =>
      by_cases hid : messageID = acquiredID
      · subst hid
        rw [Function.update_self]
        exact .unreadable hrow
      · rw [Function.update_of_ne (by simpa using hid)]
        exact .other (by simpa [acquired] using Ne.symm hid)
  | @delivered acquiredID row _ hrow hdone =>
      rw [hcompletes _ _ _ hdone]
      split
      · rename_i hid
        subst hid
        exact .delivered hrow
      · rename_i hid
        exact .other (by simpa [acquired] using Ne.symm hid)
  | @failed acquiredID row deliverAt left hrow hleft =>
      by_cases hid : messageID = acquiredID
      · subst hid
        rw [Function.update_self]
        exact .failed hrow
      · rw [Function.update_of_ne (by simpa using hid), hleaves _ _ hleft]
        exact .other (by simpa [acquired] using Ne.symm hid)
  | @busy acquiredID row deliverAt left hrow hleft =>
      by_cases hid : messageID = acquiredID
      · subst hid
        rw [Function.update_self]
        exact .busy hrow
      · rw [Function.update_of_ne (by simpa using hid), hleaves _ _ hleft]
        exact .other (by simpa [acquired] using Ne.symm hid)

theorem aggregate_completes_command {key : UUID} {a : Aggregate.Attempt} {delivered : UUID}
    {cause : Envelope}
    (h : Aggregate.Completes (app.aggregate key) a delivered cause before locks after)
    (messageID : UUID) :
    after (.command messageID) =
      if messageID = delivered then none else before (.command messageID) := by
  cases h with
  | withoutEvents _ _ _ =>
      split
      · rename_i hid
        rw [hid, Function.update_self]
      · rename_i hid
        rw [Function.update_of_ne (by simpa using hid), Function.update_of_ne (by simp)]
  | missing _ _ _ _ _ =>
      split
      · rename_i hid
        rw [hid, Function.update_self]
      · rename_i hid
        rw [Function.update_of_ne (by simpa using hid)]
  | withEvents _ _ hcompleted =>
      split
      · rename_i hid
        rw [hid, hcompleted.command]
      · rename_i hid
        exact hcompleted.frame _ (by simp) (by simp) (by simpa using hid)

theorem integration_completes_command {key : UUID} {a : Integration.Attempt} {delivered : UUID}
    {cause : Envelope}
    (h : Integration.Completes (app.integration key) a delivered cause before after)
    (messageID : UUID) :
    after (.command messageID) =
      if messageID = delivered then none else before (.command messageID) := by
  cases h with
  | withoutEvents _ =>
      split
      · rename_i hid
        rw [hid, Function.update_self]
      · rename_i hid
        rw [Function.update_of_ne (by simpa using hid)]
  | withEvents _ hcompleted =>
      split
      · rename_i hid
        rw [hid, hcompleted.command]
      · rename_i hid
        exact hcompleted.frame _ (by simp) (by simpa using hid)

/-- How a transaction can change the row of a command. -/
theorem Committed.command (h : Committed app before locks trace r response after)
    (messageID : UUID) :
    CommandChange messageID (before (.command messageID)) (after (.command messageID))
      (commandOutcome r response) := by
  cases h with
  | executeCommand hadded => exact .unrelated (hadded.command messageID)
  | aggregateCommand hcommitted =>
      refine commandCommitted_command hcommitted ?_ ?_ messageID
      · intro delivered env db hcompletes
        exact aggregate_completes_command hcompletes
      · intro e db hleaves messageID
        exact hleaves.frame (by simp)
  | integrationCommand hcommitted =>
      refine commandCommitted_command hcommitted ?_ ?_ messageID
      · intro delivered env db hcompletes
        exact integration_completes_command hcompletes
      · intro e db hleaves messageID
        rw [hleaves.2]
  | deadline hcommitted => exact .unrelated (hcommitted.command messageID)
  | consume hconsumed => exact .unrelated (hconsumed.command messageID)

end Change

section Consequences

variable {messageID : UUID} {before after : Option CommandRow} {o : Option Outcome}

/-- Only handling a command removes it. -/
theorem CommandChange.removed_iff (h : CommandChange messageID before after o) :
    (before.isSome && after.isNone) = true ↔ o = some (.delivered messageID) := by
  cases h with
  | delivered hbefore => simp [hbefore]
  | failed hbefore => simp
  | unreadable hbefore => simp
  | busy hbefore => simp
  | @other o hother =>
      have hne : o ≠ .delivered messageID := by
        intro heq
        rw [heq] at hother
        exact hother rfl
      cases before <;> simp [hne]
  | unrelated hkept =>
      cases hkept with
      | kept => cases before <;> simp
      | added _ _ => simp

/-- The envelope of a queued command is not replaced. -/
theorem CommandChange.keyed (h : CommandChange messageID before after o)
    (hbefore : ∀ row, before = some row → row.envelope.body.messageID = messageID) :
    ∀ row, after = some row → row.envelope.body.messageID = messageID := by
  intro row hrow
  cases h with
  | delivered _ => cases hrow
  | @failed old _ hold =>
      cases hrow
      exact hbefore old hold
  | @unreadable old _ hold =>
      cases hrow
      exact hbefore old hold
  | @busy old _ hold =>
      cases hrow
      exact hbefore old hold
  | other _ => exact hbefore row hrow
  | unrelated hkept =>
      cases hkept with
      | kept => exact hbefore row hrow
      | added hid _ =>
          cases hrow
          exact hid

end Consequences

/-- The envelope of every queued command is stored under its own message ID. -/
def KeyedByID (rows : Database) : Prop :=
  ∀ messageID row, rows (.command messageID) = some row →
    row.envelope.body.messageID = messageID

/-- Events are caused by the command that has been delivered. -/
theorem recordedEvents_cause {app : Application ρ} {before : Database} {r : Request ρ}
    {response : Response} {env : Envelope} (hkeyed : KeyedByID before)
    (henv : env ∈ recordedEvents app before r response) :
    commandOutcome r response = some (.delivered env.header.causationID) := by
  unfold recordedEvents at henv
  split at henv
  · rename_i key c a messageID
    split at henv
    · rename_i row instanceID hrow hroute
      obtain ⟨call, hcall, rfl⟩ := List.mem_map.mp henv
      rw [commandOutcome, Packer.packEffect_header, Packer.causationID_eq,
        hkeyed messageID row hrow]
    · cases henv
  · rename_i key c a messageID
    split at henv
    · rename_i row hrow
      obtain ⟨call, hcall, rfl⟩ := List.mem_map.mp henv
      rw [commandOutcome, Packer.packEffect_header, Packer.causationID_eq,
        hkeyed messageID row hrow]
    · cases henv
  · cases henv

/-! ## What holds in every state -/

/-- The transaction enqueued the command. -/
def enqueues (messageID : UUID) (record : Transaction ρ) : Bool :=
  (record.before (.command messageID)).isNone && (record.after (.command messageID)).isSome

/-- The transaction removed the command from the queue. -/
def removes (messageID : UUID) (record : Transaction ρ) : Bool :=
  (record.before (.command messageID)).isSome && (record.after (.command messageID)).isNone

/-- The events on a stream that were caused by the command. -/
def eventsCausedBy (messageID : UUID) (stream : Stream) : List EventRow :=
  stream.events.filter fun row => decide (row.envelope.header.causationID = messageID)

/-- The events that were caused by the command are exactly those recorded in the
given transaction, in recording order, on one stream. -/
def CausedBy (app : Application ρ) (messageID : UUID) (rows : Database)
    (record : Transaction ρ) : Prop :=
  ∃ id, (eventsCausedBy messageID (rows (.stream id))).map (·.envelope) =
      recordedEvents app record.before record.request record.result ∧
    ∀ id', id' ≠ id → eventsCausedBy messageID (rows (.stream id')) = []

/-- The command caused no events. -/
def CausedNothing (messageID : UUID) (rows : Database) : Prop :=
  ∀ id, eventsCausedBy messageID (rows (.stream id)) = []

section Events

variable {app : Application ρ} {record : Transaction ρ} {messageID : UUID}

/-- A transaction that handles another command adds no events that are caused by
this one. -/
theorem eventsCausedBy_of_other (hkeyed : KeyedByID record.before)
    (happends : Appends (recordedEvents app record.before record.request record.result)
      record.before record.after)
    (hother : commandOutcome record.request record.result ≠ some (.delivered messageID))
    (id : UUID) :
    eventsCausedBy messageID (record.after (.stream id)) =
      eventsCausedBy messageID (record.before (.stream id)) := by
  obtain ⟨-, hsame⟩ | ⟨appendedTo, -, happended⟩ := happends
  · rw [hsame id]
  by_cases hid : id = appendedTo
  · subst hid
    obtain ⟨rows, hevents, henvelopes, -⟩ := happended.rows
    have hnone : rows.filter
        (fun row => decide (row.envelope.header.causationID = messageID)) = [] := by
      rw [List.filter_eq_nil_iff]
      intro row hrow hcause
      have hmem : row.envelope ∈
          recordedEvents app record.before record.request record.result := by
        rw [← henvelopes]
        exact List.mem_map_of_mem hrow
      have hdelivered := recordedEvents_cause hkeyed hmem
      rw [decide_eq_true_eq.mp hcause] at hdelivered
      exact hother hdelivered
    rw [eventsCausedBy, hevents, List.filter_append, hnone, List.append_nil, eventsCausedBy]
  · rw [happended.others id hid]

/-- A transaction that handles the command adds the events that it recorded. -/
theorem causedBy_of_delivered (hkeyed : KeyedByID record.before)
    (happends : Appends (recordedEvents app record.before record.request record.result)
      record.before record.after)
    (hdelivered : commandOutcome record.request record.result = some (.delivered messageID))
    (hnothing : CausedNothing messageID record.before) :
    CausedBy app messageID record.after record := by
  obtain ⟨hempty, hsame⟩ | ⟨id, -, happended⟩ := happends
  · refine ⟨default, ?_, ?_⟩
    · rw [hsame, hnothing, hempty, List.map_nil]
    · intro id _
      rw [hsame, hnothing]
  refine ⟨id, ?_, ?_⟩
  · obtain ⟨rows, hevents, henvelopes, -⟩ := happended.rows
    have hall : rows.filter
        (fun row => decide (row.envelope.header.causationID = messageID)) = rows := by
      rw [List.filter_eq_self]
      intro row hrow
      have hmem : row.envelope ∈
          recordedEvents app record.before record.request record.result := by
        rw [← henvelopes]
        exact List.mem_map_of_mem hrow
      have hcause := (recordedEvents_cause hkeyed hmem).symm.trans hdelivered
      cases hcause
      exact decide_eq_true rfl
    have hold := hnothing id
    unfold eventsCausedBy at hold ⊢
    rw [hevents, List.filter_append, hold, hall, List.nil_append, henvelopes]
  · intro id' hid
    rw [happended.others id' hid]
    exact hnothing id'

end Events

/-- The command queue agrees with the history: a command is queued if it has been
enqueued once more than it has been removed, and the events that it caused are
those of the transaction that removed it. -/
structure CommandInvariant (app : Application ρ) (rows : Database)
    (history : List (Transaction ρ)) : Prop where
  streams : StreamInvariant app rows history
  keyed : KeyedByID rows
  changes : ∀ record ∈ history, ∀ messageID,
    CommandChange messageID (record.before (.command messageID))
      (record.after (.command messageID)) (commandOutcome record.request record.result)
  counts : ∀ messageID, (history.filter (enqueues messageID)).length =
    (history.filter (removes messageID)).length + (rows (.command messageID)).toList.length
  unremoved : ∀ messageID, history.filter (removes messageID) = [] →
    CausedNothing messageID rows
  removed : ∀ messageID record, history.filter (removes messageID) = [record] →
    CausedBy app messageID rows record

theorem CommandInvariant.initial (app : Application ρ) :
    CommandInvariant app emptyDatabase [] where
  streams := .initial app
  keyed := by intro messageID row hrow; cases hrow
  changes := by simp
  counts := fun _ => rfl
  unremoved := fun _ _ _ => rfl
  removed := by simp

theorem CommandInvariant.commit {app : Application ρ} {history : List (Transaction ρ)}
    {record : Transaction ρ} {locks : Key → Bool}
    (hinv : CommandInvariant app record.before history)
    (h : Committed app record.before locks record.trace record.request record.result
      record.after) :
    CommandInvariant app record.after (history ++ [record]) where
  streams := hinv.streams.commit h
  keyed := fun messageID => (h.command messageID).keyed (hinv.keyed messageID)
  changes := by
    intro other hother
    obtain hother | hother := List.mem_append.mp hother
    · exact hinv.changes other hother
    · rw [List.mem_singleton.mp hother]
      exact h.command
  counts := by
    intro messageID
    have hcounts := hinv.counts messageID
    rw [List.filter_append, List.filter_append, List.length_append, List.length_append]
    cases hbefore : record.before (.command messageID) <;>
      cases hafter : record.after (.command messageID) <;>
        simp [hbefore, hafter, enqueues, removes] at hcounts ⊢ <;> omega
  unremoved := by
    intro messageID hnone id
    rw [List.filter_append, List.append_eq_nil_iff] at hnone
    obtain ⟨hnone, hrecord⟩ := hnone
    have hother : commandOutcome record.request record.result ≠
        some (.delivered messageID) := by
      intro hdelivered
      have hremoves : removes messageID record = true :=
        (h.command messageID).removed_iff.mpr hdelivered
      simp [hremoves] at hrecord
    rw [eventsCausedBy_of_other hinv.keyed (h.events.appends hinv.streams.bound) hother]
    exact hinv.unremoved messageID hnone id
  removed := by
    intro messageID remover hremover
    have happends := h.events.appends hinv.streams.bound
    rw [List.filter_append] at hremover
    cases hremoves : removes messageID record with
    | true =>
        have hsingleton : [record].filter (removes messageID) = [record] := by simp [hremoves]
        rw [hsingleton] at hremover
        obtain ⟨hnone, heq⟩ | ⟨-, hnil⟩ := List.append_eq_singleton_iff.mp hremover
        · cases heq
          exact causedBy_of_delivered hinv.keyed happends
            ((h.command messageID).removed_iff.mp hremoves) (hinv.unremoved messageID hnone)
        · cases hnil
    | false =>
        have hnone : [record].filter (removes messageID) = [] := by simp [hremoves]
        rw [hnone, List.append_nil] at hremover
        have hother : commandOutcome record.request record.result ≠
            some (.delivered messageID) := by
          intro hdelivered
          have hremoves' : removes messageID record = true :=
            (h.command messageID).removed_iff.mpr hdelivered
          rw [hremoves] at hremoves'
          cases hremoves'
        obtain ⟨id, hcaused, hothers⟩ := hinv.removed messageID remover hremover
        refine ⟨id, ?_, ?_⟩
        · rw [eventsCausedBy_of_other hinv.keyed happends hother, hcaused]
        · intro id' hid
          rw [eventsCausedBy_of_other hinv.keyed happends hother]
          exact hothers id' hid

section Runs

variable {T : Type} [DecidableEq T] {app : Application ρ}
  {allow : List (Request ρ) → Request ρ → Prop} {e : System T ρ}

theorem command_invariant (h : Reaches app allow start e) :
    CommandInvariant app e.rows e.history :=
  (invariant_of_committed (fun _ rows history => CommandInvariant app rows history)
    (fun _ _ _ _ hinv _ => hinv) (fun _ _ _ _ hinv _ h => hinv.commit h) h start_consistent
    (.initial app)).2

/-- A command is removed at most as often as it is enqueued, so a command whose
message ID is used once is removed by at most one transaction.  The events that
it caused are then exactly those recorded by that transaction, in recording
order, and there are none unless that transaction has committed.  Every other
transaction that delivers the command keeps it queued. -/
theorem command_handled_at_most_once (h : Reaches app allow start e) (messageID : UUID) :
    (e.history.filter (removes messageID)).length ≤
        (e.history.filter (enqueues messageID)).length ∧
      ((e.history.filter (enqueues messageID)).length ≤ 1 →
        (e.history.filter (removes messageID) = [] ∧ CausedNothing messageID e.rows) ∨
          ∃ record, e.history.filter (removes messageID) = [record] ∧
            CausedBy app messageID e.rows record) ∧
      ∀ record ∈ e.history,
        CommandChange messageID (record.before (.command messageID))
          (record.after (.command messageID))
          (commandOutcome record.request record.result) := by
  have hinv := command_invariant h
  have hcounts := hinv.counts messageID
  refine ⟨by omega, ?_, fun record hrecord => hinv.changes record hrecord messageID⟩
  intro honce
  cases hremoved : e.history.filter (removes messageID) with
  | nil => exact Or.inl ⟨rfl, hinv.unremoved messageID hremoved⟩
  | cons record rest =>
      have hlength : rest.length = 0 := by
        rw [hremoved, List.length_cons] at hcounts
        omega
      have hrest : rest = [] := List.length_eq_zero_iff.mp hlength
      subst hrest
      exact Or.inr ⟨record, rfl, hinv.removed messageID record hremoved⟩

theorem command_handled_at_most_once_counted :
    (countedTwo.history.filter (enqueues (uuid 10))).length = 1 ∧
      ∃ record, countedTwo.history.filter (removes (uuid 10)) = [record] ∧
        CausedBy counters (uuid 10) countedTwo.rows record ∧
        (recordedEvents counters record.before record.request record.result).length = 2 := by
  have honce : (countedTwo.history.filter (enqueues (uuid 10))).length = 1 := by decide
  have hremoved : (countedTwo.history.filter (removes (uuid 10))).map (fun record =>
      (recordedEvents counters record.before record.request record.result).length) = [2] := by
    decide
  refine ⟨honce, ?_⟩
  obtain ⟨-, hmain, -⟩ := command_handled_at_most_once countedTwo_reached (uuid 10)
  obtain ⟨hnone, -⟩ | ⟨record, hone, hcaused⟩ := hmain (Nat.le_of_eq honce)
  · rw [hnone] at hremoved
    cases hremoved
  · rw [hone] at hremoved
    exact ⟨record, hone, hcaused, List.head_eq_of_cons_eq hremoved⟩

end Runs

end Runkit.Engine
