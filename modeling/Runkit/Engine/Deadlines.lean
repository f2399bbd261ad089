/-
  Engine/Deadlines.lean --- the effects of a deadline and its removal.

  A message pump commits the same transaction whether a delivery succeeds or has
  been postponed, so a delivery that fails must not have written anything.  That
  is the case unless the handler has executed commands and mutated its root, and
  the root can then not be marshaled: by that time the commands are in the queue.
-/
import Runkit.Engine.Streams

set_option autoImplicit false

namespace Runkit.Engine

open Runkit.Foundation Runkit.Schema Runkit.MessagePump

variable {ρ : Type}

/-! ## What one transaction does to a deadline -/

/-- How a transaction can change the row of a deadline. -/
inductive DeadlineChange (messageID : UUID) (before : Option DeadlineRow) :
    Option DeadlineRow → Prop where
  | kept : DeadlineChange messageID before before
  | scheduled {env : Envelope} (hid : env.body.messageID = messageID) (hbefore : before = none) :
      DeadlineChange messageID before (some (Process.newDeadlineRow env))
  | removed {row : DeadlineRow} (hbefore : before = some row) :
      DeadlineChange messageID before none
  | postponed {row : DeadlineRow} {failures : Nat} {deliverAt : Time}
      (hbefore : before = some row) :
      DeadlineChange messageID before
        (some (Process.postponedDeadline row failures deliverAt))

/-- What the invocation of an instance can do to the row of a deadline. -/
inductive Rescheduled (key : UUID) (instanceID : String) (scope : Process.Scope ρ)
    (messageID : UUID) (before : Option DeadlineRow) : Option DeadlineRow → Prop where
  | kept (hother : scope.ended = true → belongsTo key instanceID before = false) :
      Rescheduled key instanceID scope messageID before before
  | scheduled {env : Envelope} (hended : scope.ended = false) (henv : env ∈ scope.deadlines)
      (hid : env.body.messageID = messageID) :
      Rescheduled key instanceID scope messageID before (some (Process.newDeadlineRow env))
  | removed : Rescheduled key instanceID scope messageID before none

section Change

variable {h : ProcessHandler ρ} {b : Process.Behavior ρ} {cause : Envelope}
  {before after : Database} {instanceID : String} {row : ProcessInstanceRow}
  {scope : Process.Scope ρ}

/-- Applying a scope schedules new deadlines or removes those of the instance. -/
theorem applyScope_rescheduled
    (hdistinct : scope.ended = false → (scope.deadlines.map (·.body.messageID)).Nodup)
    (messageID : UUID) :
    Rescheduled h.key instanceID scope messageID (before (.deadline messageID))
      (Process.applyScope h b instanceID row scope
        (Process.withInstance h.key instanceID row before) (.deadline messageID)) := by
  have hbefore : Process.withInstance h.key instanceID row before (.deadline messageID) =
      before (.deadline messageID) := Process.withInstance_of_ne (by simp)
  cases hended : scope.ended with
  | true =>
      rw [Process.applyScope_deadline_of_ended hended, hbefore]
      split
      · exact .removed
      · rename_i hother
        exact .kept fun _ => by simpa using hother
  | false =>
      rw [Process.applyScope_deadline_of_active hended]
      by_cases hmem : ∃ env ∈ scope.deadlines, env.body.messageID = messageID
      · obtain ⟨env, henv, rfl⟩ := hmem
        rw [Process.withDeadlines_of_mem henv (hdistinct hended)]
        exact .scheduled hended henv rfl
      · rw [Process.withDeadlines_of_not_mem fun env henv heq => hmem ⟨env, henv, heq⟩, hbefore]
        exact .kept fun h => absurd h (by simp [hended])

theorem Rescheduled.deadlineChange {key messageID : UUID} {deadline deadline' : Option DeadlineRow}
    (hrescheduled : Rescheduled key instanceID scope messageID deadline deadline')
    (hfresh : scope.ended = false →
      ∀ env ∈ scope.deadlines, env.body.messageID = messageID → deadline = none) :
    DeadlineChange messageID deadline deadline' := by
  cases hrescheduled with
  | kept _ => exact .kept
  | scheduled hended henv hid => exact .scheduled hid (hfresh hended _ henv hid)
  | removed =>
      cases deadline with
      | none => exact .kept
      | some row => exact .removed rfl

theorem applyScope_deadlineChange
    (hfresh : scope.ended = false →
      ∀ env ∈ scope.deadlines, before (.deadline env.body.messageID) = none)
    (hdistinct : scope.ended = false → (scope.deadlines.map (·.body.messageID)).Nodup)
    (messageID : UUID) :
    DeadlineChange messageID (before (.deadline messageID))
      (Process.applyScope h b instanceID row scope
        (Process.withInstance h.key instanceID row before) (.deadline messageID)) := by
  refine (applyScope_rescheduled hdistinct messageID).deadlineChange ?_
  rintro hended env henv rfl
  exact hfresh hended env henv

theorem deadlineCommitted_change {c : Circumstances} {a : Process.DeadlineAttempt ρ}
    {locks : Key → Bool} {o : Outcome}
    (hcommitted : Process.DeadlineCommitted h c a before locks o after) (messageID : UUID) :
    DeadlineChange messageID (before (.deadline messageID)) (after (.deadline messageID)) := by
  have hpostponed : ∀ {acquiredID : UUID} {row : DeadlineRow} {failures : Nat} {t : Time}
      {left : Database}, before (.deadline acquiredID) = some row →
      left (.deadline messageID) = before (.deadline messageID) →
      DeadlineChange messageID (before (.deadline messageID))
        (Function.update left (.deadline acquiredID)
          (some (Process.postponedDeadline row failures t)) (.deadline messageID)) := by
    intro acquiredID row failures t left hrow hleft
    by_cases hid : messageID = acquiredID
    · subst hid
      rw [Function.update_self]
      exact .postponed hrow
    · rw [Function.update_of_ne (by simpa using hid), hleft]
      exact .kept
  cases hcommitted with
  | idle => exact .kept
  | unreadable hacquired => exact hpostponed hacquired.row_eq rfl
  | failed hacquired hleaves =>
      exact hpostponed hacquired.row_eq (hleaves.deadline messageID)
  | @delivered acquiredID deadline _ hacquired hcompletes hlock =>
      cases hcompletes with
      | ended hinvoked hended =>
          exact applyScope_deadlineChange (by simp [hended]) (by simp [hended]) messageID
      | saved hinvoked hended hmarshals hfresh hdistinct =>
          by_cases hid : messageID = acquiredID
          · subst hid
            rw [Function.update_self]
            exact .removed hacquired.row_eq
          · rw [Function.update_of_ne (by simpa using hid)]
            exact applyScope_deadlineChange (fun _ => hfresh) (fun _ => hdistinct) messageID

theorem consumed_change {call : Process.ConsumeCall ρ} {locks : Key → Bool} {actual : Nat}
    {trace : List (Observation ρ)}
    (hconsumed : Process.Consumed h call before locks actual trace after) (messageID : UUID) :
    DeadlineChange messageID (before (.deadline messageID)) (after (.deadline messageID)) := by
  cases hconsumed with
  | conflict _ _ =>
      rw [Process.withCheckpoint_of_ne (by simp)]
      exact .kept
  | skipped _ _ =>
      rw [Process.withCheckpoint_of_ne (by simp)]
      exact .kept
  | dispatched _ _ hdispatched =>
      rw [Process.withCheckpoint_of_ne (by simp)]
      cases hdispatched with
      | unrouted =>
          rw [Process.withCheckpoint_of_ne (by simp)]
          exact .kept
      | ended _ _ _ =>
          rw [Process.withCheckpoint_of_ne (by simp)]
          exact .kept
      | @handled routed row scope _ hinvoked _ _ hfresh hdistinct =>
          have hchange := @applyScope_deadlineChange ρ h call.attempt.behavior _ routed row scope
            hfresh hdistinct messageID
          rw [Process.withCheckpoint_of_ne (by simp)] at hchange
          exact hchange

/-- How a transaction can change the row of a deadline. -/
theorem Committed.deadlineChange {app : Application ρ} {locks : Key → Bool}
    {trace : List (Observation ρ)} {r : Request ρ} {response : Response}
    (hcommitted : Committed app before locks trace r response after) (messageID : UUID) :
    DeadlineChange messageID (before (.deadline messageID)) (after (.deadline messageID)) := by
  cases hr : r.ofProcess with
  | false =>
      rw [hcommitted.processFrame hr .deadline]
      exact .kept
  | true =>
      cases hcommitted with
      | deadline hdeadline => exact deadlineCommitted_change hdeadline messageID
      | consume hconsumed => exact consumed_change hconsumed messageID
      | _ => cases hr

end Change

/-- The columns of a deadline agree with its envelope. -/
def Agrees (messageID : UUID) (row : DeadlineRow) : Prop :=
  row.envelope.body.messageID = messageID ∧
    row.handlerKey = row.envelope.header.handlerKey ∧
    row.instanceID = row.envelope.header.instanceID

theorem DeadlineChange.agrees {messageID : UUID} {before after : Option DeadlineRow}
    (h : DeadlineChange messageID before after)
    (hbefore : ∀ row, before = some row → Agrees messageID row) :
    ∀ row, after = some row → Agrees messageID row := by
  intro row hrow
  cases h with
  | kept => exact hbefore row hrow
  | scheduled hid _ =>
      cases hrow
      exact ⟨hid, rfl, rfl⟩
  | removed _ => cases hrow
  | @postponed old failures deliverAt hold =>
      cases hrow
      exact hbefore old hold

/-! ## What one attempt does -/

/-- What a transaction that delivers a deadline does, if it commits: it removes
the deadline together with committing all effects of the handler, or else it
changes nothing but the number of failures and the time of the next delivery. -/
inductive Atomic (h : ProcessHandler ρ) (b : Process.Behavior ρ) (before : Database) :
    Outcome → Database → Prop where
  | idle : Atomic h b before .idle before
  | delivered {messageID : UUID} {deadline : DeadlineRow} {row : ProcessInstanceRow}
      {scope : Process.Scope ρ} {after : Database}
      (hdeadline : before (.deadline messageID) = some deadline)
      (hrow : before (.processInstance h.key deadline.instanceID) = some row)
      (hscope : Process.handleMessage h b deadline.envelope deadline.instanceID
        (Process.loadedRoot h row) = some scope)
      (hremoved : after (.deadline messageID) = none)
      (heffects : ∀ k, k ≠ .deadline messageID →
        after k = Process.applyScope h b deadline.instanceID row scope before k) :
      Atomic h b before (.delivered messageID) after
  | unreadable {messageID : UUID} {deadline : DeadlineRow} {deliverAt : Time}
      (hdeadline : before (.deadline messageID) = some deadline) :
      Atomic h b before (.unreadable messageID)
        (Function.update before (.deadline messageID)
          (some (Process.postponedDeadline deadline (deadline.failures + 1) deliverAt)))
  | failed {messageID : UUID} {deadline : DeadlineRow} {deliverAt : Time}
      (hdeadline : before (.deadline messageID) = some deadline) :
      Atomic h b before (.failed messageID)
        (Function.update before (.deadline messageID)
          (some (Process.postponedDeadline deadline (deadline.failures + 1) deliverAt)))

/-- The handler of the deadline succeeds, having executed commands and mutated its root
without ending the instance, but the root can not be marshaled. -/
def Unsaved (h : ProcessHandler ρ) (b : Process.Behavior ρ) (before : Database)
    (messageID : UUID) : Prop :=
  b.marshals = false ∧ ∃ deadline row scope, before (.deadline messageID) = some deadline ∧
    before (.processInstance h.key deadline.instanceID) = some row ∧
    Process.handleMessage h b deadline.envelope deadline.instanceID
      (Process.loadedRoot h row) = some scope ∧
    scope.mutated = true ∧ scope.ended = false ∧ scope.commands ≠ []

section Attempt

variable {h : ProcessHandler ρ} {a : Process.DeadlineAttempt ρ} {c : Circumstances}
  {before after : Database} {locks : Key → Bool} {o : Outcome}

/-- The instance of a deadline that has been acquired exists, so loading it
writes nothing. -/
theorem withInstance_of_acquired {messageID : UUID} {deadline : DeadlineRow}
    {row : ProcessInstanceRow}
    (hacquired : Process.Acquired h c messageID before locks deadline)
    (hagrees : Agrees messageID deadline)
    (hrow : row = (before (.processInstance h.key deadline.envelope.header.instanceID)).getD
      Process.newInstanceRow) :
    before (.processInstance h.key deadline.envelope.header.instanceID) = some row ∧
      Process.withInstance h.key deadline.envelope.header.instanceID row before = before := by
  have hexists := hacquired.instance_exists
  rw [hacquired.handlerKey, hagrees.2.2] at hexists
  obtain ⟨stored, hstored⟩ := Option.ne_none_iff_exists'.mp hexists
  rw [hstored, Option.getD_some] at hrow
  subst hrow
  refine ⟨hstored, ?_⟩
  rw [Process.withInstance, ← hstored, Function.update_eq_self]

/-- A deadline is removed together with the effects of its handler, unless the
root that the handler leaves can not be saved. -/
theorem deadlineCommitted_atomic
    (hcommitted : Process.DeadlineCommitted h c a before locks o after)
    (hagrees : ∀ messageID row, before (.deadline messageID) = some row → Agrees messageID row)
    (hsaved : ∀ messageID, o = .failed messageID → ¬ Unsaved h a.behavior before messageID) :
    Atomic h a.behavior before o after := by
  cases hcommitted with
  | idle => exact .idle
  | unreadable hacquired => exact .unreadable hacquired.row_eq
  | @failed messageID deadline delay left hacquired hleaves =>
      have hsame : left = before := by
        have hagree := hagrees messageID deadline hacquired.row_eq
        cases hleaves with
        | failed => rfl
        | loaded hrow => exact (withInstance_of_acquired hacquired hagree hrow).2
        | @unsaved row scope hinvoked hended hmutated hmarshals =>
            obtain ⟨hrow, hsame⟩ := withInstance_of_acquired hacquired hagree hinvoked.row_eq
            have hnone : scope.commands = [] := by
              by_contra hcommands
              have hscope := hinvoked.scope_eq
              rw [← hagree.2.2] at hrow hscope
              exact hsaved messageID rfl ⟨hmarshals, deadline, row, scope, hacquired.row_eq, hrow,
                hscope, hmutated, hended, hcommands⟩
            rw [hnone]
            exact hsame
      rw [hsame]
      exact .failed hacquired.row_eq
  | @delivered messageID deadline _ hacquired hcompletes hlock =>
      have hagree := hagrees messageID deadline hacquired.row_eq
      have hinstance := hagree.2.2
      cases hcompletes with
      | @ended row scope hinvoked hended =>
          obtain ⟨hrow, hsame⟩ := withInstance_of_acquired hacquired hagree hinvoked.row_eq
          rw [hsame]
          refine .delivered hacquired.row_eq (by rw [hinstance]; exact hrow)
            (by rw [hinstance]; exact hinvoked.scope_eq) ?_ (by rw [hinstance]; simp)
          -- Ending the instance removes all of its deadlines, and this is one of them.
          rw [Process.applyScope_deadline_of_ended hended, hacquired.row_eq]
          simp [belongsTo, hacquired.handlerKey, hinstance]
      | @saved row scope hinvoked hended hmarshals hfresh hdistinct =>
          obtain ⟨hrow, hsame⟩ := withInstance_of_acquired hacquired hagree hinvoked.row_eq
          rw [hsame]
          refine .delivered hacquired.row_eq (by rw [hinstance]; exact hrow)
            (by rw [hinstance]; exact hinvoked.scope_eq) (by simp) ?_
          intro k hk
          rw [hinstance, Function.update_of_ne hk]

end Attempt

/-! ## What holds in every state -/

/-- The transaction scheduled the deadline. -/
def schedules (messageID : UUID) (record : Transaction ρ) : Bool :=
  (record.before (.deadline messageID)).isNone && (record.after (.deadline messageID)).isSome

/-- The outcome of a transaction that delivers a deadline. -/
def deadlineOutcome : Request ρ → Response → Option Outcome
  | .deadline _ _ _, .delivery o => some o
  | _, _ => none

/-- The transaction delivered the deadline. -/
def delivers (messageID : UUID) (record : Transaction ρ) : Bool :=
  decide (deadlineOutcome record.request record.result = some (.delivered messageID))

/-- Every attempt at delivering a deadline has been atomic. -/
def AtomicAttempts (app : Application ρ) (history : List (Transaction ρ)) : Prop :=
  ∀ record ∈ history, ∀ key c a o, record.request = .deadline key c a →
    record.result = .delivery o →
      Atomic (app.process key) a.behavior record.before o record.after

/-- The transaction has not acquired a deadline whose handler has executed commands, and
then failed because the root that it left can not be marshaled. -/
def SavesCommands (app : Application ρ) (record : Transaction ρ) : Prop :=
  ∀ key c a messageID, record.request = .deadline key c a →
    record.result = .delivery (.failed messageID) →
    ¬ Unsaved (app.process key) a.behavior record.before messageID

structure DeadlineInvariant (app : Application ρ) (rows : Database)
    (history : List (Transaction ρ)) : Prop where
  agrees : ∀ messageID row, rows (.deadline messageID) = some row → Agrees messageID row
  atomic : (∀ record ∈ history, SavesCommands app record) → AtomicAttempts app history
  counts : ∀ messageID,
    (history.filter (delivers messageID)).length + (rows (.deadline messageID)).toList.length ≤
      (history.filter (schedules messageID)).length

theorem DeadlineInvariant.initial (app : Application ρ) :
    DeadlineInvariant app emptyDatabase [] where
  agrees := by intro messageID row hrow; cases hrow
  atomic := by intro _ record hrecord; cases hrecord
  counts := fun _ => Nat.le_refl _

section Commit

variable {app : Application ρ} {history : List (Transaction ρ)} {record : Transaction ρ}
  {locks : Key → Bool}

theorem committed_atomic (hinv : DeadlineInvariant app record.before history)
    (h : Committed app record.before locks record.trace record.request record.result
      record.after)
    {key : UUID} {c : Circumstances} {a : Process.DeadlineAttempt ρ} {o : Outcome}
    (hrequest : record.request = .deadline key c a) (hresult : record.result = .delivery o)
    (hsaved : ∀ messageID, o = .failed messageID →
      ¬ Unsaved (app.process key) a.behavior record.before messageID) :
    Atomic (app.process key) a.behavior record.before o record.after := by
  rw [hrequest, hresult] at h
  generalize record.after = after at h
  cases h with
  | deadline hcommitted => exact deadlineCommitted_atomic hcommitted hinv.agrees hsaved

/-- A transaction that delivers a deadline removes it. -/
theorem removed_of_delivers (hinv : DeadlineInvariant app record.before history)
    (h : Committed app record.before locks record.trace record.request record.result
      record.after)
    {messageID : UUID} (hdelivers : delivers messageID record = true) :
    (record.before (.deadline messageID)).isSome = true ∧
      record.after (.deadline messageID) = none := by
  have houtcome := decide_eq_true_eq.mp hdelivers
  unfold deadlineOutcome at houtcome
  split at houtcome
  · rename_i key c a o hrequest hresult
    cases houtcome
    have hatomic := committed_atomic hinv h hrequest hresult (by intro _ heq; cases heq)
    cases hatomic with
    | delivered hdeadline _ _ hremoved _ => exact ⟨by rw [hdeadline]; rfl, hremoved⟩
  · cases houtcome

theorem DeadlineInvariant.commit (hinv : DeadlineInvariant app record.before history)
    (h : Committed app record.before locks record.trace record.request record.result
      record.after) :
    DeadlineInvariant app record.after (history ++ [record]) where
  agrees := fun messageID => (h.deadlineChange messageID).agrees (hinv.agrees messageID)
  atomic := by
    intro hall other hother key c a o hrequest hresult
    obtain ⟨hpast, hrecord⟩ := List.forall_mem_append.mp hall
    obtain hother | hother := List.mem_append.mp hother
    · exact hinv.atomic hpast other hother key c a o hrequest hresult
    · rw [List.mem_singleton] at hother
      subst hother
      refine committed_atomic hinv h hrequest hresult ?_
      rintro messageID rfl
      exact hrecord other List.mem_cons_self key c a messageID hrequest hresult
  counts := by
    intro messageID
    have hcounts := hinv.counts messageID
    have hremoved := @removed_of_delivers ρ app history record locks hinv h messageID
    rw [List.filter_append, List.filter_append, List.length_append, List.length_append]
    cases hdelivers : delivers messageID record with
    | true =>
        obtain ⟨hbefore, hafter⟩ := hremoved hdelivers
        obtain ⟨row, hrow⟩ := Option.isSome_iff_exists.mp hbefore
        simp [hrow, hafter, hdelivers, schedules] at hcounts ⊢
        omega
    | false =>
        cases hbefore : record.before (.deadline messageID) <;>
          cases hafter : record.after (.deadline messageID) <;>
            simp [hbefore, hafter, hdelivers, schedules] at hcounts ⊢ <;> omega

end Commit

section Runs

variable {T : Type} [DecidableEq T] {app : Application ρ} {e : System T ρ}

/-- As long as no handler leaves a root behind that can not be marshaled after it
has executed commands, the effects of every attempt at delivering a deadline are
committed if and only if the deadline is removed by the same transaction.  In any
case, a deadline is delivered at most as often as it is scheduled. -/
theorem deadline_effects_atomic (h : Reaches app AnyRequest start e) :
    ((∀ record ∈ e.history, SavesCommands app record) → AtomicAttempts app e.history) ∧
      ∀ messageID, (e.history.filter (delivers messageID)).length ≤
        (e.history.filter (schedules messageID)).length := by
  have hinv := (invariant_of_committed (fun _ => DeadlineInvariant app)
    (fun _ _ _ _ hinv _ => hinv) (fun _ _ _ _ hinv _ h => hinv.commit h) h start_consistent
    (.initial app)).2
  refine ⟨hinv.atomic, fun messageID => ?_⟩
  have hcounts := hinv.counts messageID
  omega

end Runs

/-! ## A root that can not be marshaled -/

/-- A handler that makes the given calls. -/
def calling (calls : List (Process.ScopeCall Nat)) (marshals : Bool) :
    Process.Behavior Nat where
  constructs := true
  unmarshals := true
  calls := calls
  returns := true
  marshals := marshals
  now := 0

/-- The instance `"p"` handles an event by scheduling a deadline. -/
def schedulingDeadline : Request Nat :=
  .consume (uuid 60)
    { streamID := uuid 100
      cp := 0
      next := 1
      env := some (commandEnvelope 20)
      attempt :=
        { unpacks := true
          routing := .routed "p"
          behavior := calling
            [.scheduleDeadline
              { messageID := uuid 30, message := { typeID := uuid 3, data := [] } } 0 true false]
            true } }

/-- It handles the deadline by executing a command and mutating its root. -/
def deliveringDeadline (marshals : Bool) : Request Nat :=
  .deadline (uuid 60) (finding 30)
    { unpacks := true
      behavior := calling
        [.mutate (· + 1) true false,
          .executeCommand
            { messageID := uuid 40, message := { typeID := uuid 1, data := [] } } true false]
        marshals }

/-- The state after the deadline has been delivered. -/
def deliveredDeadline (marshals : Bool) : System Unit Nat :=
  Pool.serve (program counters) [schedulingDeadline, deliveringDeadline marshals] start

theorem deadline_effects_atomic_saved :
    ∃ record ∈ (deliveredDeadline true).history,
      record.result = .delivery (.delivered (uuid 30)) ∧
        Atomic (counters.process (uuid 60))
          (calling [.mutate (· + 1) true false,
            .executeCommand
              { messageID := uuid 40, message := { typeID := uuid 1, data := [] } } true false]
            true)
          record.before (.delivered (uuid 30)) record.after := by
  have hreached : Reaches counters AnyRequest start (deliveredDeadline true) :=
    Pool.serve_run () (fun _ => rfl) (allAllowed_anyRequest _ _)
  have hsaves : ∀ record ∈ (deliveredDeadline true).history, SavesCommands counters record := by
    intro record hrecord key c a messageID hrequest hresult
    obtain ⟨i, hi, rfl⟩ := List.getElem_of_mem hrecord
    have hlength : i < 2 := hi
    match i, hlength with
    | 0, _ => cases hrequest
    | 1, _ => cases hresult
  have hatomic := (deadline_effects_atomic hreached).1 hsaves
  have hlast : ∃ record ∈ (deliveredDeadline true).history,
      record.request = deliveringDeadline true ∧
        record.result = .delivery (.delivered (uuid 30)) :=
    ⟨_, List.mem_of_getElem? (i := 1) rfl, rfl, rfl⟩
  obtain ⟨record, hrecord, hrequest, hresult⟩ := hlast
  exact ⟨record, hrecord, hresult, hatomic record hrecord _ _ _ _ hrequest hresult⟩

/-- A postponed delivery has added a command to the queue, and the deadline is
still pending. -/
theorem deadline_effects_without_removal :
    Reaches counters AnyRequest start (deliveredDeadline false) ∧
      ∃ record ∈ (deliveredDeadline false).history,
        record.result = .delivery (.failed (uuid 30)) ∧
          record.before (.command (uuid 40)) = none ∧
          (record.after (.command (uuid 40))).isSome = true ∧
          (record.after (.deadline (uuid 30))).map (·.failures) = some 1 := by
  refine ⟨Pool.serve_run () (fun _ => rfl) (allAllowed_anyRequest _ _), ?_⟩
  exact ⟨_, List.mem_of_getElem? (i := 1) rfl, rfl, rfl, rfl, rfl⟩

end Runkit.Engine
