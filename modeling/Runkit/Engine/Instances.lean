/-
  Engine/Instances.lean --- process instances and their deadlines.

  Sinks and deadline pumps create, end and save instances, and insert and delete
  deadlines, in transactions of their own.  `processChange` says once what a
  transaction can do to both tables, and which call of a handler it stands for;
  what holds of instances and deadlines in every state follows from that.
-/
import Runkit.Engine.Deadlines
import Runkit.Process.Observe

set_option autoImplicit false

namespace Runkit.Engine

open Runkit.Foundation Runkit.Schema Runkit.Schema.Stmt Runkit.MessagePump

variable {ρ : Type}

/-! ## Invocations -/

/-- A call of `HandleEvent` or `HandleDeadline` that took effect: the root that the
handler was given, and the scope that it left. -/
structure Invocation (ρ : Type) where
  root : ρ
  scope : Process.Scope ρ

/-- The root that the instance's handler was given. -/
def givenRoot (key : UUID) (instanceID : String) (trace : List (Observation ρ)) : Option ρ :=
  trace.findSome? fun
    | .handleMessage key' instanceID' root =>
        if key' = key ∧ instanceID' = instanceID then some root else none
    | _ => none

/-- What the handler of a process did with which message, if the transaction
succeeded at having it handled. -/
def handledMessage (before : Database) :
    Request ρ → Response → Option (Process.Behavior ρ × Envelope)
  | .deadline _ _ a, .delivery (.delivered messageID) =>
      (before (.deadline messageID)).map fun row => (a.behavior, row.envelope)
  | .consume _ call, .consumed _ => call.env.map fun env => (call.attempt.behavior, env)
  | _, _ => none

/-- What the handler of a process does, if the transaction calls it. -/
def Request.behavior : Request ρ → Option (Process.Behavior ρ)
  | .deadline _ _ a => some a.behavior
  | .consume _ call => some call.attempt.behavior
  | _ => none

theorem behavior_of_handled {before : Database} {r : Request ρ} {response : Response}
    {b : Process.Behavior ρ} {cause : Envelope}
    (h : handledMessage before r response = some (b, cause)) : r.behavior = some b := by
  unfold handledMessage at h
  split at h
  · obtain ⟨row, -, heq⟩ := Option.map_eq_some_iff.mp h
    cases heq
    rfl
  · obtain ⟨env, -, heq⟩ := Option.map_eq_some_iff.mp h
    cases heq
    rfl
  · cases h

/-- The invocation of an instance that a committed transaction stands for. -/
def invocation (app : Application ρ) (key : UUID) (instanceID : String) (before : Database)
    (trace : List (Observation ρ)) (r : Request ρ) (response : Response) :
    Option (Invocation ρ) := do
  let root ← givenRoot key instanceID trace
  let (b, cause) ← handledMessage before r response
  let scope ← Process.handleMessage (app.process key) b cause instanceID root
  return ⟨root, scope⟩

section Invocations

variable {app : Application ρ} {key key' : UUID} {instanceID instanceID' : String}
  {before : Database} {trace : List (Observation ρ)} {r : Request ρ} {response : Response}

theorem invocation_of_not_handled (h : handledMessage before r response = none) :
    invocation app key instanceID before trace r response = none := by
  unfold invocation
  rw [h]
  cases givenRoot key instanceID trace <;> rfl

theorem invocation_of_not_given (h : givenRoot key instanceID trace = none) :
    invocation app key instanceID before trace r response = none := by
  unfold invocation
  rw [h]
  rfl

/-- A transaction that calls one handler once stands for an invocation of that
instance and of no other. -/
theorem invocation_of_handled {b : Process.Behavior ρ} {cause : Envelope} {root : ρ}
    {scope : Process.Scope ρ}
    (hgiven : givenRoot key' instanceID' trace =
      if key = key' ∧ instanceID = instanceID' then some root else none)
    (hhandled : handledMessage before r response = some (b, cause))
    (hscope : Process.handleMessage (app.process key) b cause instanceID root = some scope) :
    invocation app key' instanceID' before trace r response =
      if key = key' ∧ instanceID = instanceID' then some ⟨root, scope⟩ else none := by
  unfold invocation
  rw [hgiven, hhandled]
  split
  · rename_i hsame
    obtain ⟨rfl, rfl⟩ := hsame
    simp [hscope]
  · rfl

end Invocations

/-! ## What one transaction does -/

/-- The row of an instance after a scope has been applied to it. -/
def appliedRow (h : ProcessHandler ρ) (row : ProcessInstanceRow) (scope : Process.Scope ρ) :
    ProcessInstanceRow :=
  if scope.ended then
    { row with ended := true, state := none }
  else if scope.mutated then
    { row with state := h.marshalBinary scope.root }
  else
    row

/-- What a transaction can do to process instances and their deadlines. -/
inductive ProcessChange (app : Application ρ) (before : Database) (locks : Key → Bool)
    (trace : List (Observation ρ)) (r : Request ρ) (response : Response) (after : Database) :
    Prop where
  | kept
      (hnone : ∀ key instanceID, invocation app key instanceID before trace r response = none)
      (hinstances : ∀ key instanceID,
        after (.processInstance key instanceID) = before (.processInstance key instanceID))
      (hdeadlines : ∀ messageID, after (.deadline messageID) = before (.deadline messageID))
  | postponed {key : UUID} {c : Circumstances} {a : Process.DeadlineAttempt ρ}
      {messageID : UUID} {row : DeadlineRow} {delay : Int}
      (hrequest : r = .deadline key c a)
      (hacquired : Process.Acquired (app.process key) c messageID before locks row)
      (hdelay : app.backoff.backoffBase ≤ delay)
      (hnone : ∀ key instanceID, invocation app key instanceID before trace r response = none)
      (hinstances : ∀ key instanceID,
        after (.processInstance key instanceID) = before (.processInstance key instanceID))
      (hdeadline : after (.deadline messageID) =
        some (Process.postponedDeadline row (row.failures + 1) (c.postponedAt + delay)))
      (hdeadlines : ∀ other, other ≠ messageID →
        after (.deadline other) = before (.deadline other))
  | invoked {key : UUID} {b : Process.Behavior ρ} {cause : Envelope} {instanceID : String}
      {row : ProcessInstanceRow} {scope : Process.Scope ρ}
      (hhandled : handledMessage before r response = some (b, cause))
      (hinvoked : Process.Invoked (app.process key) b cause instanceID before row scope)
      (hinvocation : ∀ key' instanceID',
        invocation app key' instanceID' before trace r response =
          if key = key' ∧ instanceID = instanceID' then
            some ⟨Process.loadedRoot (app.process key) row, scope⟩
          else none)
      (hinstance : after (.processInstance key instanceID) =
        some (appliedRow (app.process key) row scope))
      (hinstances : ∀ key' instanceID', ¬ (key = key' ∧ instanceID = instanceID') →
        after (.processInstance key' instanceID') = before (.processInstance key' instanceID'))
      (hdeadlines : ∀ messageID, Rescheduled key instanceID scope messageID
        (before (.deadline messageID)) (after (.deadline messageID)))

section Change

variable {h : ProcessHandler ρ} {b : Process.Behavior ρ} {before : Database}
  {instanceID : String} {row : ProcessInstanceRow} {scope : Process.Scope ρ}

theorem applyScope_instance {db : Database} :
    Process.applyScope h b instanceID row scope (Process.withInstance h.key instanceID row db)
      (.processInstance h.key instanceID) = some (appliedRow h row scope) := by
  unfold Process.applyScope appliedRow
  split
  · rw [Process.withoutDeadlinesOf_of_ne (by simp), Process.withInstance, Function.update_self]
  · rw [Process.withDeadlines_of_ne (by simp), Process.withScope]
    split
    · rw [Process.withInstance, Function.update_self]
    · rw [Process.withCommands_of_ne (by simp), Process.withInstance, Function.update_self]

theorem applyScope_otherInstance {db : Database} {key' : UUID} {instanceID' : String}
    (hother : ¬ (h.key = key' ∧ instanceID = instanceID')) :
    Process.applyScope h b instanceID row scope (Process.withInstance h.key instanceID row db)
      (.processInstance key' instanceID') = db (.processInstance key' instanceID') := by
  have hne : Key.processInstance key' instanceID' ≠ .processInstance h.key instanceID := by
    intro heq
    obtain ⟨rfl, rfl⟩ := Key.processInstance.inj heq
    exact hother ⟨rfl, rfl⟩
  rw [Process.applyScope_of_ne (by simp) (by simp) hne, Process.withInstance_of_ne hne]

/-- A delivery that fails leaves all instances alone. -/
theorem leaves_instances {c : Circumstances} {messageID : UUID} {locks : Key → Bool}
    {deadline : DeadlineRow} {left : Database}
    (hacquired : Process.Acquired h c messageID before locks deadline)
    (hagrees : Agrees messageID deadline)
    (hleaves : Process.DeadlineLeaves h b deadline.envelope before left) (key : UUID)
    (instanceID : String) :
    left (.processInstance key instanceID) = before (.processInstance key instanceID) := by
  cases hleaves with
  | failed => rfl
  | loaded hrow => rw [(withInstance_of_acquired hacquired hagrees hrow).2]
  | unsaved hinvoked _ _ _ =>
      rw [Process.withCommands_of_ne (by simp),
        (withInstance_of_acquired hacquired hagrees hinvoked.row_eq).2]

end Change

section Transactions

variable {app : Application ρ} {before after : Database} {locks : Key → Bool}
  {trace : List (Observation ρ)} {key : UUID}

/-- A transaction in which a handler succeeds applies the scope that it leaves.
`db` is the database that the handler's instance was loaded from, in which a
checkpoint may have been written. -/
theorem invoked_processChange {r : Request ρ} {response : Response} {b : Process.Behavior ρ}
    {cause : Envelope} {instanceID : String} {row : ProcessInstanceRow}
    {scope : Process.Scope ρ} {db : Database}
    (hdb : ∀ k, (∀ handlerKey streamID, k ≠ .handlerCheckpoint handlerKey streamID) →
      db k = before k)
    (hhandled : handledMessage before r response = some (b, cause))
    (hinvoked : Process.Invoked (app.process key) b cause instanceID db row scope)
    (hgiven : ∀ key' instanceID', givenRoot key' instanceID' trace =
      if key = key' ∧ instanceID = instanceID' then
        some (Process.loadedRoot (app.process key) row)
      else none)
    (hdistinct : scope.ended = false → (scope.deadlines.map (·.body.messageID)).Nodup)
    (hinstances : ∀ key' instanceID', after (.processInstance key' instanceID') =
      Process.applyScope (app.process key) b instanceID row scope
        (Process.withInstance (app.process key).key instanceID row db)
        (.processInstance key' instanceID'))
    (hdeadlines : ∀ messageID, after (.deadline messageID) = none ∨
      after (.deadline messageID) =
        Process.applyScope (app.process key) b instanceID row scope
          (Process.withInstance (app.process key).key instanceID row db)
          (.deadline messageID)) :
    ProcessChange app before locks trace r response after := by
  have hkey := app.process_key key
  have hbefore : Process.Invoked (app.process key) b cause instanceID before row scope :=
    { hinvoked with
      row_eq := by rw [hinvoked.row_eq, hdb _ (by simp)]
      fresh := by
        intro env henv
        rw [← hdb _ (by simp)]
        exact hinvoked.fresh env henv }
  refine .invoked hhandled hbefore ?_ ?_ ?_ ?_
  · intro key' instanceID'
    exact invocation_of_handled (hgiven key' instanceID') hhandled hinvoked.scope_eq
  · have hinstance := hinstances (app.process key).key instanceID
    rwa [applyScope_instance, hkey] at hinstance
  · intro key' instanceID' hother
    rw [hinstances, applyScope_otherInstance (by rwa [hkey]), hdb _ (by simp)]
  · intro messageID
    obtain hremoved | happlied := hdeadlines messageID
    · rw [hremoved]
      exact .removed
    · have hrescheduled := @applyScope_rescheduled ρ (app.process key) b db instanceID row scope
        hdistinct messageID
      rw [happlied, ← hdb (.deadline messageID) (by simp)]
      rwa [hkey] at hrescheduled ⊢

/-- The root that was given to the only handler that was called. -/
theorem givenRoot_cons {key' : UUID} {instanceID instanceID' : String} {root : ρ}
    {rest : List (Observation ρ)} (hrest : givenRoot key' instanceID' rest = none) :
    givenRoot key' instanceID' (.handleMessage key instanceID root :: rest) =
      if key = key' ∧ instanceID = instanceID' then some root else none := by
  unfold givenRoot at hrest ⊢
  by_cases hsame : key = key' ∧ instanceID = instanceID'
  · simp [hsame]
  · simp only [List.findSome?_cons, if_neg hsame]
    exact hrest

theorem pumped_processChange {c : Circumstances} {a : Process.DeadlineAttempt ρ} {o : Outcome}
    (hagrees : ∀ messageID row, before (.deadline messageID) = some row → Agrees messageID row)
    (h : Process.Pumped (app.process key) app.backoff c a before locks trace o after) :
    ProcessChange app before locks trace (.deadline key c a) (.delivery o) after := by
  cases h with
  | idle =>
      exact .kept (fun _ _ => invocation_of_not_handled rfl) (fun _ _ => rfl) fun _ => rfl
  | unreadable hacquired hdelay =>
      refine .postponed rfl hacquired hdelay (fun _ _ => invocation_of_not_handled rfl) ?_ ?_ ?_
      · intro key' instanceID'
        rw [Function.update_of_ne (by simp)]
      · rw [Function.update_self]
      · intro other hother
        rw [Function.update_of_ne (by simpa using hother)]
  | @failed messageID deadline delay left hacquired hleaves hdelay =>
      have hagree := hagrees messageID deadline hacquired.row_eq
      refine .postponed rfl hacquired hdelay (fun _ _ => invocation_of_not_handled rfl) ?_ ?_ ?_
      · intro key' instanceID'
        rw [Function.update_of_ne (by simp)]
        exact leaves_instances hacquired hagree hleaves key' instanceID'
      · rw [Function.update_self]
      · intro other hother
        rw [Function.update_of_ne (by simpa using hother)]
        exact hleaves.deadline other
  | @delivered messageID deadline _ hacquired hcompletes _ htrace =>
      have hhandled : handledMessage before (.deadline key c a : Request ρ)
          (.delivery (.delivered messageID)) = some (a.behavior, deadline.envelope) := by
        rw [handledMessage, hacquired.row_eq, Option.map_some]
      rw [app.process_key] at htrace
      cases hcompletes with
      | @ended row scope hinvoked hended =>
          have hrow := hinvoked.row_eq
          rw [app.process_key] at hrow
          refine invoked_processChange (fun _ _ => rfl) hhandled hinvoked ?_ (by simp [hended])
            (fun _ _ => rfl) fun _ => Or.inr rfl
          intro key' instanceID'
          rw [htrace, givenRoot_cons rfl, hrow]
      | @saved row scope hinvoked hended hmarshals hfresh hdistinct =>
          have hrow := hinvoked.row_eq
          rw [app.process_key] at hrow
          refine invoked_processChange (fun _ _ => rfl) hhandled hinvoked ?_
            (fun _ => hdistinct) ?_ ?_
          · intro key' instanceID'
            rw [htrace, givenRoot_cons rfl, hrow]
          · intro key' instanceID'
            rw [Function.update_of_ne (by simp)]
          · intro other
            by_cases hid : other = messageID
            · subst hid
              exact Or.inl (Function.update_self ..)
            · exact Or.inr (Function.update_of_ne (by simpa using hid) _ _)

theorem consumed_processChange {call : Process.ConsumeCall ρ} {actual : Nat}
    (h : Process.Consumed (app.process key) call before locks actual trace after) :
    ProcessChange app before locks trace (.consume key call) (.consumed actual) after := by
  -- Unless an instance handles the event, only the checkpoint is written.
  have hkept : (∀ key' instanceID', givenRoot key' instanceID' trace = none) →
      (∀ k, (∀ handlerKey streamID, k ≠ .handlerCheckpoint handlerKey streamID) →
        after k = before k) →
      ProcessChange app before locks trace (.consume key call) (.consumed actual) after := by
    intro hgiven hsame
    exact .kept (fun key' instanceID' => invocation_of_not_given (hgiven key' instanceID'))
      (fun _ _ => hsame _ (by simp)) fun _ => hsame _ (by simp)
  cases h with
  | conflict _ _ =>
      exact hkept (fun _ _ => rfl) fun k hk => Process.withCheckpoint_of_ne (hk _ _)
  | skipped _ _ =>
      exact hkept (fun _ _ => rfl) fun k hk => Process.withCheckpoint_of_ne (hk _ _)
  | @dispatched env _ _ _ _ henv hdispatched =>
      have hhandled : handledMessage before (.consume key call : Request ρ) (.consumed call.cp) =
          some (call.attempt.behavior, env) := by
        rw [handledMessage, henv, Option.map_some]
      have hdb : ∀ k, (∀ handlerKey streamID, k ≠ .handlerCheckpoint handlerKey streamID) →
          Process.withCheckpoint (app.process key).key call.streamID call.cp before k =
            before k := fun k hk => Process.withCheckpoint_of_ne (hk _ _)
      cases hdispatched with
      | unrouted =>
          refine hkept (fun _ _ => rfl) fun k hk => ?_
          rw [Process.withCheckpoint_of_ne (hk _ _), hdb k hk]
      | ended _ _ _ =>
          refine hkept (fun _ _ => rfl) fun k hk => ?_
          rw [Process.withCheckpoint_of_ne (hk _ _), hdb k hk]
      | @handled instanceID row scope _ hinvoked _ _ _ hdistinct =>
          refine invoked_processChange hdb hhandled hinvoked ?_ hdistinct ?_ ?_
          · intro key' instanceID'
            rw [app.process_key, List.singleton_append, givenRoot_cons rfl]
          · intro key' instanceID'
            rw [Process.withCheckpoint_of_ne (by simp)]
          · intro messageID
            exact Or.inr (Process.withCheckpoint_of_ne (by simp))

/-- What a transaction can do to process instances and their deadlines, as long as
the columns of the deadlines agree with their envelopes. -/
theorem processChange {r : Request ρ} {response : Response}
    {s : Session Key Row (Observation ρ)}
    (hagrees : ∀ messageID row, before (.deadline messageID) = some row → Agrees messageID row)
    (hruns : Tx.Runs databaseRely before (program app r) .start response s) :
    ProcessChange app before s.locks s.trace r response (s.view before) := by
  have hcommitted := program_committed hruns
  have hother : r.ofProcess = false → handledMessage before r response = none →
      ProcessChange app before s.locks s.trace r response (s.view before) := by
    intro hr hhandled
    exact .kept (fun _ _ => invocation_of_not_handled hhandled)
      (fun _ _ => hcommitted.processFrame hr .processInstance)
      fun _ => hcommitted.processFrame hr .deadline
  cases r with
  | executeCommand env now => exact hother rfl rfl
  | aggregateCommand key c a => exact hother rfl rfl
  | integrationCommand key c a => exact hother rfl rfl
  | deadline key c a =>
      rw [program, runs_transact] at hruns
      obtain ⟨outcome, rfl, hdeliver⟩ := Tx.runs_ok_return hruns
      exact pumped_processChange hagrees (Process.deadlinePump_pumped hdeliver)
  | consume key call =>
      cases hcommitted with
      | consume hconsumed => exact consumed_processChange hconsumed

end Transactions

/-! ## What holds in every state -/

/-- What holds of process instances and their deadlines in every committed
state. -/
structure ProcessInvariant (rows : Database) : Prop where
  /-- The columns of a deadline agree with its envelope. -/
  agrees : ∀ messageID deadline, rows (.deadline messageID) = some deadline →
    Agrees messageID deadline
  /-- A deadline refers to an instance that exists and has not ended. -/
  active : ∀ messageID deadline, rows (.deadline messageID) = some deadline →
    ∃ row, rows (.processInstance deadline.handlerKey deadline.instanceID) = some row ∧
      row.ended = false
  /-- The state of an instance that has ended is NULL. -/
  cleared : ∀ key instanceID row, rows (.processInstance key instanceID) = some row →
    row.ended = true → row.state = none

theorem ProcessInvariant.initial : ProcessInvariant emptyDatabase where
  agrees := by intro messageID deadline h; cases h
  active := by intro messageID deadline h; cases h
  cleared := by intro key instanceID row h; cases h

section Commit

variable {app : Application ρ} {before after : Database} {locks : Key → Bool}
  {trace : List (Observation ρ)} {r : Request ρ} {response : Response}

theorem appliedRow_ended {h : ProcessHandler ρ} {row : ProcessInstanceRow}
    {scope : Process.Scope ρ} (hactive : row.ended = false) :
    (appliedRow h row scope).ended = scope.ended := by
  unfold appliedRow
  split
  · rename_i hended
    rw [hended]
  · rename_i hended
    split <;> simpa [hactive] using hended

theorem appliedRow_cleared {h : ProcessHandler ρ} {row : ProcessInstanceRow}
    {scope : Process.Scope ρ} (hended : scope.ended = true) :
    (appliedRow h row scope).state = none := by
  rw [appliedRow, if_pos hended]

/-- The row of an instance that has ended is never written again. -/
theorem ProcessChange.ended_kept
    (h : ProcessChange app before locks trace r response after) {key : UUID}
    {instanceID : String} {row : ProcessInstanceRow}
    (hrow : before (.processInstance key instanceID) = some row) (hended : row.ended = true) :
    after (.processInstance key instanceID) = some row := by
  cases h with
  | kept _ hinstances _ => rw [hinstances, hrow]
  | postponed _ _ _ _ hinstances _ _ => rw [hinstances, hrow]
  | @invoked key' b cause instanceID' row' scope _ hinvoked _ _ hinstances _ =>
      rw [hinstances key instanceID, hrow]
      rintro ⟨rfl, rfl⟩
      have hrow' := hinvoked.row_eq
      rw [app.process_key, hrow, Option.getD_some] at hrow'
      have hactive := hinvoked.active
      rw [hrow', hended] at hactive
      cases hactive

/-- A transaction whose handler calls `End` schedules no deadlines. -/
theorem ProcessChange.unscheduled
    (h : ProcessChange app before locks trace r response after) {b : Process.Behavior ρ}
    (hbehavior : r.behavior = some b) (hend : Process.ScopeCall.end_ ∈ b.calls)
    {messageID : UUID} (hnone : before (.deadline messageID) = none) :
    after (.deadline messageID) = none := by
  cases h with
  | kept _ _ hdeadlines => rw [hdeadlines, hnone]
  | @postponed _ _ _ acquiredID row _ _ hacquired _ _ _ _ hdeadlines =>
      rw [hdeadlines, hnone]
      rintro rfl
      cases hacquired.row_eq.symm.trans hnone
  | @invoked key b' cause instanceID row scope hhandled hinvoked _ _ _ hdeadlines =>
      cases hbehavior.symm.trans (behavior_of_handled hhandled)
      have hended := Process.handleMessage_ended hend hinvoked.scope_eq
      have hrescheduled := hdeadlines messageID
      rw [hnone] at hrescheduled
      generalize after (.deadline messageID) = deadline at hrescheduled ⊢
      cases hrescheduled with
      | kept _ => rfl
      | scheduled hactive _ _ => cases hended.symm.trans hactive
      | removed => rfl

theorem ProcessChange.active (h : ProcessChange app before locks trace r response after)
    (hinv : ProcessInvariant before) (messageID : UUID) (deadline : DeadlineRow)
    (hdeadline : after (.deadline messageID) = some deadline) :
    ∃ row, after (.processInstance deadline.handlerKey deadline.instanceID) = some row ∧
      row.ended = false := by
  cases h with
  | kept _ hinstances hdeadlines =>
      rw [hdeadlines] at hdeadline
      rw [hinstances]
      exact hinv.active messageID deadline hdeadline
  | @postponed _ _ _ acquiredID row _ _ hacquired _ _ hinstances hpostponed hdeadlines =>
      rw [hinstances]
      by_cases hid : messageID = acquiredID
      · subst hid
        cases hdeadline.symm.trans hpostponed
        exact hinv.active messageID row hacquired.row_eq
      · rw [hdeadlines messageID hid] at hdeadline
        exact hinv.active messageID deadline hdeadline
  | @invoked key b cause instanceID row scope _ hinvoked _ hinstance hinstances hdeadlines =>
      have hrescheduled := hdeadlines messageID
      rw [hdeadline] at hrescheduled
      have hsaved : scope.ended = false →
          ∃ row, after (.processInstance key instanceID) = some row ∧ row.ended = false := by
        intro hended
        exact ⟨_, hinstance, by rw [appliedRow_ended hinvoked.active, hended]⟩
      generalize hbefore : before (.deadline messageID) = old at hrescheduled
      cases hrescheduled with
      | kept hother =>
          by_cases hsame : key = deadline.handlerKey ∧ instanceID = deadline.instanceID
          · obtain ⟨rfl, rfl⟩ := hsame
            apply hsaved
            -- Otherwise the deadline would have been deleted.
            cases hended : scope.ended with
            | false => rfl
            | true => simp [belongsTo] at hother; exact absurd hended (by simp [hother])
          · rw [hinstances _ _ hsame]
            exact hinv.active messageID deadline hbefore
      | @scheduled env hended henv hid =>
          obtain ⟨hkey, hinstance⟩ :=
            (Process.handleMessage_packedBy hinvoked.scope_eq).deadline_source henv
          rw [Process.newDeadlineRow]
          dsimp only
          rw [hkey, hinstance, app.process_key key]
          exact hsaved hended

theorem ProcessChange.cleared (h : ProcessChange app before locks trace r response after)
    (hinv : ProcessInvariant before) (key : UUID) (instanceID : String)
    (row : ProcessInstanceRow) (hrow : after (.processInstance key instanceID) = some row)
    (hended : row.ended = true) : row.state = none := by
  cases h with
  | kept _ hinstances _ =>
      rw [hinstances] at hrow
      exact hinv.cleared key instanceID row hrow hended
  | postponed _ _ _ _ hinstances _ _ =>
      rw [hinstances] at hrow
      exact hinv.cleared key instanceID row hrow hended
  | @invoked key' b cause instanceID' row' scope _ hinvoked _ hinstance hinstances _ =>
      by_cases hsame : key' = key ∧ instanceID' = instanceID
      · obtain ⟨rfl, rfl⟩ := hsame
        cases hrow.symm.trans hinstance
        rw [appliedRow_ended hinvoked.active] at hended
        exact appliedRow_cleared hended
      · rw [hinstances _ _ hsame] at hrow
        exact hinv.cleared key instanceID row hrow hended

end Commit

section Runs

variable {T : Type} [DecidableEq T] {app : Application ρ}
  {allow : List (Request ρ) → Request ρ → Prop} {e e' : System T ρ}

/-- An invariant that every change to process instances and their deadlines keeps
holds in every state that the system reaches. -/
theorem invariant_of_processChange
    (inv : List (Request ρ) → Database → List (Transaction ρ) → Prop)
    (hbegin : ∀ begun rows history r,
      inv begun rows history → allow begun r → inv (begun ++ [r]) rows history)
    (hcommit : ∀ begun history (record : Transaction ρ) locks,
      ProcessInvariant record.before → inv begun record.before history →
      record.request ∈ begun →
      ProcessChange app record.before locks record.trace record.request record.result
        record.after →
      Committed app record.before locks record.trace record.request record.result
        record.after →
      inv begun record.after (history ++ [record]))
    (h : Reaches app allow e e') (hconsistent : e.Consistent databaseRely (program app))
    (hrows : ProcessInvariant e.rows) (hinv : inv e.begun e.rows e.history) :
    e'.Consistent databaseRely (program app) ∧ ProcessInvariant e'.rows ∧
      inv e'.begun e'.rows e'.history := by
  refine Pool.run_invariant (program_respects app)
    (fun begun rows history => ProcessInvariant rows ∧ inv begun rows history) ?_ ?_ h
    hconsistent ⟨hrows, hinv⟩
  · intro begun rows history r hinv hallowed
    exact ⟨hinv.1, hbegin begun rows history r hinv.2 hallowed⟩
  · intro begun history record hinv hmember hserial
    obtain ⟨hrows, hinv⟩ := hinv
    obtain ⟨s, hruns, htrace, hafter⟩ := hserial
    have hchange := processChange hrows.agrees hruns
    have hcommitted := program_committed hruns
    rw [← htrace, ← hafter] at hchange hcommitted
    refine ⟨⟨?_, hchange.active hrows, hchange.cleared hrows⟩,
      hcommit begun history record s.locks hrows hinv hmember hchange hcommitted⟩
    intro messageID
    exact (hcommitted.deadlineChange messageID).agrees (hrows.agrees messageID)

/-- What a process's transaction has called its handlers with. -/
theorem called_of_visits {rows : Database} {r : Request ρ}
    {q : Tx Key Row (Observation ρ) Response} {s : Session Key Row (Observation ρ)}
    (hprocess : r.ofProcess = true)
    (hvisits : Tx.Visits databaseRely rows (program app r) .start q s) {key : UUID}
    {instanceID : String} {root : ρ}
    (hcalled : Observation.handleMessage key instanceID root ∈ s.trace) :
    Process.Called (app.process key) rows (.handleMessage key instanceID root) s := by
  have hnoted : ∀ key', Tx.Notes databaseRely rows (Process.Called (app.process key') rows)
      (program app r) .start →
      Process.Called (app.process key) rows (.handleMessage key instanceID root) s := by
    intro key' hnotes
    have hcalled := hvisits.noted hnotes (fun _ _ _ => Process.Called.mono) (by simp) _ hcalled
    have hkey := hcalled.1
    rw [app.process_key] at hkey
    rwa [← hkey] at hcalled
  cases r with
  | deadline key' c a =>
      refine hnoted key' (transact_notes (Tx.Notes.except_bind Process.deadlinePump_notes ?_))
      exact fun _ _ _ => Silent.notes Tx.emits_ok
  | consume key' call =>
      refine hnoted key' (transact_notes (Tx.Notes.except_bind Process.consume_notes ?_))
      exact fun _ _ _ => Silent.notes Tx.emits_ok
  | _ => cases hprocess

/-- The instance has ended. -/
def HasEnded (rows : Database) (key : UUID) (instanceID : String) : Prop :=
  ∃ row, rows (.processInstance key instanceID) = some row ∧ row.ended = true

theorem notEnded_of_called {h : ProcessHandler ρ} {rows : Database} {key : UUID}
    {instanceID : String} {root : ρ} {s : Session Key Row (Observation ρ)}
    (hcalled : Process.Called h rows (.handleMessage key instanceID root) s) :
    ¬ HasEnded rows key instanceID := by
  rintro ⟨row, hrow, hended⟩
  obtain ⟨-, -, hactive, -⟩ := hcalled
  rw [hrow, Option.getD_some, hended] at hactive
  cases hactive

/-- An instance whose deadline has been acquired is loaded, or can not be
unmarshaled, but is never found to have ended. -/
theorem loaded_of_acquired {rows : Database} (hinv : ProcessInvariant rows) {key : UUID}
    {now : Time} {visited : List UUID} {del : Delivery} {b : Process.Behavior ρ}
    {u v : Session Key Row (Observation ρ)} {r : Except Error (Option ρ)}
    (hacquire : Tx.Runs databaseRely rows
      (Process.acquireDelivery (app.process key) now visited).run .start (.ok (some del)) u)
    (hload : Tx.Runs databaseRely rows
      (Process.loadInstance (app.process key) b del.envelope.header.instanceID
        (app.process key).new).run u r v) : r ≠ .ok none := by
  obtain ⟨hview, -, hr | ⟨messageID, deadline, hr, hacquired⟩⟩ :=
    @Process.acquireDelivery_runs ρ databaseRely .start u (app.process key)
      { (default : Circumstances) with acquiredAt := now } visited rows _ rfl hacquire
  · cases hr
  cases hr
  obtain ⟨stored, hstored, hactive⟩ := hinv.active messageID deadline hacquired.row_eq
  obtain ⟨-, -, hinstance⟩ := hinv.agrees messageID deadline hacquired.row_eq
  obtain ⟨row, hrow, -, -, -, ⟨hended, -⟩ | ⟨-, hr | hr⟩⟩ := Process.loadInstance_runs hload
  · rw [hview, ← hacquired.handlerKey] at hrow
    change row = (rows (.processInstance deadline.handlerKey
      deadline.envelope.header.instanceID)).getD _ at hrow
    rw [← hinstance, hstored, Option.getD_some] at hrow
    rw [hrow, hactive] at hended
    cases hended
  · rw [hr]
    simp
  · rw [hr]
    simp

/-- A deadline that is due is found by a query that visits it while no other
transaction is open. -/
theorem acquired_of_due {rows : Database} (hinv : ProcessInvariant rows) {messageID : UUID}
    {deadline : DeadlineRow} {now : Time} (rest : List UUID)
    (hdeadline : rows (.deadline messageID) = some deadline) (hdue : deadline.deliverAt ≤ now)
    (htype : deadline.messageTypeID ∈ (app.process deadline.handlerKey).deadlineTypeIDs) :
    ∃ u, Tx.exec rows (Process.acquireDelivery (app.process deadline.handlerKey) now
        (messageID :: rest) : Stmt (Observation ρ) _).run .start =
      some (.ok (some (Process.deadlineDelivery messageID deadline)), u) := by
  obtain ⟨row, hrow, -⟩ := hinv.active messageID deadline hdeadline
  have hvisible : Process.deadlineIsDue (app.process deadline.handlerKey) now
      (rows (.deadline messageID)) = true := by
    simp [Process.deadlineIsDue, hdeadline, app.process_key, hdue, htype]
  have hview : ∀ k, (Session.start : Session Key Row (Observation ρ)).view rows k = rows k :=
    fun _ => rfl
  have hexists : (rows (.processInstance deadline.handlerKey deadline.instanceID)).isSome =
      true := by rw [hrow]; rfl
  rw [Process.acquireDelivery, Tx.exec_tryLock_bind, hview, if_pos hvisible, hdeadline]
  dsimp only
  rw [Tx.exec_tryLock_bind, Session.acquire_view, hview, if_pos hexists]
  exact ⟨_, rfl⟩

/-- What holds of process instances and their deadlines in a state of the
system, and of the transactions that led to it. -/
structure ProcessIntegrity (app : Application ρ)
    (allow : List (Request ρ) → Request ρ → Prop) (e : System T ρ) : Prop where
  rows : ProcessInvariant e.rows
  /-- An instance that has ended stays that way. -/
  final : ∀ e', Reaches app allow e e' → ∀ key instanceID,
    HasEnded e.rows key instanceID → HasEnded e'.rows key instanceID
  /-- Deadlines that were scheduled along with a call of `End` were not persisted. -/
  unscheduled : ∀ record ∈ e.history, ∀ b, record.request.behavior = some b →
    Process.ScopeCall.end_ ∈ b.calls → ∀ messageID,
      record.before (.deadline messageID) = none → record.after (.deadline messageID) = none
  /-- The instance of a deadline that is acquired is not found to have ended. -/
  unreachable : ∀ key now visited del b u v r,
    Tx.Runs databaseRely e.rows (Process.acquireDelivery (app.process key) now visited :
      Stmt (Observation ρ) _).run .start (.ok (some del)) u →
    Tx.Runs databaseRely e.rows (Process.loadInstance (app.process key) b
      del.envelope.header.instanceID (app.process key).new).run u r v → r ≠ .ok none
  /-- A deadline that is due is acquired once the query visits it and no lock is in
  its way. -/
  acquirable : ∀ messageID deadline now rest, e.rows (.deadline messageID) = some deadline →
    deadline.deliverAt ≤ now →
    deadline.messageTypeID ∈ (app.process deadline.handlerKey).deadlineTypeIDs →
    ∃ u, Tx.exec e.rows (Process.acquireDelivery (app.process deadline.handlerKey) now
        (messageID :: rest) : Stmt (Observation ρ) _).run .start =
      some (.ok (some (Process.deadlineDelivery messageID deadline)), u)
  /-- No message was handled by an instance that had ended. -/
  handled : ∀ record ∈ e.history, record.request.ofProcess = true →
    ∀ key instanceID root, Observation.handleMessage key instanceID root ∈ record.trace →
      ¬ HasEnded record.before key instanceID
  /-- No message is being handled by an instance that has ended. -/
  handling : ∀ t o, e.sessions t = some o → o.request.ofProcess = true →
    ∀ key instanceID root, Observation.handleMessage key instanceID root ∈ o.session.trace →
      ¬ HasEnded e.rows key instanceID

theorem unscheduled_of_reaches (h : Reaches app allow start e) :
    ∀ record ∈ e.history, ∀ b, record.request.behavior = some b →
      Process.ScopeCall.end_ ∈ b.calls → ∀ messageID,
        record.before (.deadline messageID) = none →
          record.after (.deadline messageID) = none := by
  refine (invariant_of_processChange
    (fun _ _ history => ∀ record ∈ history, ∀ b, record.request.behavior = some b →
      Process.ScopeCall.end_ ∈ b.calls → ∀ messageID,
        record.before (.deadline messageID) = none → record.after (.deadline messageID) = none)
    (fun _ _ _ _ hinv _ => hinv) ?_ h start_consistent .initial
    (by simp [start, Pool.initial])).2.2
  intro begun history record locks _ hinv _ hchange _ other hother b hbehavior hend messageID
    hnone
  obtain hother | hother := List.mem_append.mp hother
  · exact hinv other hother b hbehavior hend messageID hnone
  · rw [List.mem_singleton] at hother
    subst hother
    exact hchange.unscheduled hbehavior hend hnone

theorem process_invariant (h : Reaches app allow start e) :
    e.Consistent databaseRely (program app) ∧ ProcessInvariant e.rows := by
  obtain ⟨hconsistent, hrows, -⟩ := invariant_of_processChange (fun _ _ _ => True)
    (fun _ _ _ _ _ _ => True.intro) (fun _ _ _ _ _ _ _ _ _ => True.intro) h start_consistent
    .initial True.intro
  exact ⟨hconsistent, hrows⟩

theorem hasEnded_of_reaches (hconsistent : e.Consistent databaseRely (program app))
    (hrows : ProcessInvariant e.rows) (h : Reaches app allow e e') {key : UUID}
    {instanceID : String} (hended : HasEnded e.rows key instanceID) :
    HasEnded e'.rows key instanceID := by
  obtain ⟨row, hrow, hended⟩ := hended
  refine ⟨row, ?_, hended⟩
  exact (invariant_of_processChange
    (fun _ rows _ => rows (.processInstance key instanceID) = some row)
    (fun _ _ _ _ hinv _ => hinv)
    (fun _ _ _ _ _ hinv _ hchange _ => hchange.ended_kept hinv hended) h hconsistent hrows
    hrow).2.2

/-- Instances and deadlines are kept intact by any interleaving of sinks and
deadline pumps. -/
theorem process_integrity (h : Reaches app allow start e) : ProcessIntegrity app allow e := by
  obtain ⟨hconsistent, hrows⟩ := process_invariant h
  refine ⟨hrows, ?_, unscheduled_of_reaches h, ?_, ?_, ?_, ?_⟩
  · intro e' h' key instanceID hended
    exact hasEnded_of_reaches hconsistent hrows h' hended
  · intro key now visited del b u v r hacquire hload
    exact loaded_of_acquired hrows hacquire hload
  · intro messageID deadline now rest hdeadline hdue htype
    exact acquired_of_due hrows rest hdeadline hdue htype
  · intro record hrecord hprocess key instanceID root hcalled
    obtain ⟨s, hruns, htrace, -⟩ := Pool.history_serial (program_respects app) h
      start_consistent (by simp [start, Pool.initial]) record hrecord
    rw [htrace] at hcalled
    exact notEnded_of_called (called_of_visits hprocess hruns hcalled)
  · intro t o hopen hprocess key instanceID root hcalled
    exact notEnded_of_called
      (called_of_visits hprocess (hconsistent.visits t o hopen) hcalled)

end Runs

/-- The instance `"p"` handles its deadline by scheduling another one and ending. -/
def endingInstance : Request Nat :=
  .deadline (uuid 60) (finding 30)
    { unpacks := true
      behavior := calling
        [.scheduleDeadline
          { messageID := uuid 31, message := { typeID := uuid 3, data := [] } } 0 true false,
          .end_]
        true }

/-- The state after the instance has ended. -/
def endedInstance : System Unit Nat :=
  Pool.serve (program counters) [schedulingDeadline, endingInstance] start

theorem process_integrity_ended :
    HasEnded endedInstance.rows (uuid 60) "p" ∧
      endedInstance.rows (.deadline (uuid 31)) = none ∧
      ProcessIntegrity counters AnyRequest endedInstance := by
  refine ⟨⟨{ ended := true, state := none }, by decide, rfl⟩, by decide, ?_⟩
  exact process_integrity (Pool.serve_run () (fun _ => rfl) (allAllowed_anyRequest _ _))

end Runkit.Engine
