/-
  Engine/Redelivery.lean --- repeated attempts at delivering a message.

  A command or deadline that could not be handled stays in its queue, with the number of its
  failures and the time at which it may be delivered again.  Any pump on any node makes the
  next attempt.  Nevertheless each attempt that is committed finds the failures that the one
  before it has counted, and is made no earlier than the backoff computed from them allows, or
  than `BackoffBase` if the one before was busy.  An attempt that is rolled back leaves no
  trace.

  Source: internal/messagepump/pump.go, internal/messagepump/commandqueue.go,
  internal/process/deadlinepump.go.
-/
import Runkit.Engine.Commands
import Runkit.Engine.Instances
import Runkit.Foundation.Attempts

set_option autoImplicit false

namespace Runkit.Engine

open Runkit.Foundation Runkit.Schema Runkit.Schema.Stmt Runkit.MessagePump

variable {ρ : Type}

/-! ## Attempts -/

/-- What a queue says about a message: the columns `failures` and `deliver_at`. -/
structure QueueEntry where
  failures : Nat
  deliverAt : Time
  deriving DecidableEq, Repr

/-- A committed transaction of a message pump that acquired the message, with what it found
in the queue. -/
structure DeliveryAttempt where
  circumstances : Circumstances
  outcome : Outcome
  entry : QueueEntry

namespace DeliveryAttempt

/-- The attempt counts as a failure. -/
def failed (a : DeliveryAttempt) : Bool :=
  match a.outcome with
  | .failed _ | .unreadable _ => true
  | _ => false

/-- The number of failures after the attempt. -/
def failures (a : DeliveryAttempt) : Nat :=
  if a.failed then a.entry.failures + 1 else a.entry.failures

/-- How long the message is postponed, if it is. -/
def delay (p : Backoff) (a : DeliveryAttempt) : Option Int :=
  match a.outcome with
  | .failed _ | .unreadable _ =>
      computeBackoff p (a.entry.failures + 1) a.circumstances.random
  | .busy _ => some p.backoffBase
  | _ => none

theorem base_le_delay {p : Backoff} {a : DeliveryAttempt} {d : Int} (h : a.delay p = some d) :
    p.backoffBase ≤ d := by
  unfold delay at h
  split at h
  · exact backoffBase_le h
  · exact backoffBase_le h
  · cases h
    exact le_refl _
  · cases h

end DeliveryAttempt

/-- The message is new when it has not failed, and an attempt postpones it. -/
def redelivery (p : Backoff) : Policy QueueEntry DeliveryAttempt where
  fresh entry := entry.failures = 0
  found a := a.entry
  leaves a entry := ∃ d, a.delay p = some d ∧
    entry = ⟨a.failures, a.circumstances.postponedAt + d⟩

/-! ## What one transaction does -/

section Deliver

variable {E : Type} {rely : Rely Key Row} {rows : Database} {driver : Driver E}
  {c : Circumstances} {p : Backoff}

/-- A driver that takes its deliveries from the queue with the given entries. -/
structure Driver.Queues (driver : Driver E) (c : Circumstances) (rely : Rely Key Row)
    (rows : Database) (entry : Database → UUID → Option QueueEntry) : Prop where
  acquire : ∀ {del : Delivery} {u : Session Key Row E},
    Tx.Runs rely rows driver.acquireDelivery.run .start (.ok (some del)) u →
    ∃ deliverAt, entry rows del.messageID = some ⟨del.failures, deliverAt⟩ ∧
      deliverAt ≤ c.acquiredAt
  postpone : ∀ {del : Delivery} {delay : Int} {s t : Session Key Row E},
    Tx.Runs rely rows (driver.postponeDelivery del delay).run s (.ok ()) t →
    entry (t.view rows) del.messageID = some ⟨del.failures, c.postponedAt + delay⟩

/-- A failure is recorded in the queue. -/
theorem Driver.Queues.postponeFailure {entry : Database → UUID → Option QueueEntry}
    (hdriver : Driver.Queues driver c rely rows entry) {del : Delivery}
    {s t : Session Key Row E}
    (h : Tx.Runs rely rows (postponeFailure driver p c del).run s (.ok ()) t) :
    ∃ d, computeBackoff p (del.failures + 1) c.random = some d ∧
      entry (t.view rows) del.messageID = some ⟨del.failures + 1, c.postponedAt + d⟩ := by
  unfold MessagePump.postponeFailure at h
  dsimp only at h
  split at h
  · exact absurd h (by simp)
  · rename_i d hdelay
    exact ⟨d, hdelay, hdriver.postpone h⟩

/-- A transaction of a message pump that acquires a message finds it due, and postpones it
unless it has been handled. -/
theorem Driver.Queues.attempt {entry : Database → UUID → Option QueueEntry}
    (hdriver : Driver.Queues driver c rely rows entry) {o : Outcome} {t : Session Key Row E}
    (h : Tx.Runs rely rows (deliver driver p c).run .start (.ok o) t) {messageID : UUID}
    (ho : acquired o = some messageID) :
    ∃ found, entry rows messageID = some found ∧ found.deliverAt ≤ c.acquiredAt ∧
      (o = .delivered messageID ∨ ∃ left, entry (t.view rows) messageID = some left ∧
        (redelivery p).leaves ⟨c, o, found⟩ left) := by
  unfold deliver at h
  obtain ⟨acquiredDelivery, u, hacquire, hrest⟩ := Tx.runs_ok_bind h
  cases acquiredDelivery with
  | none =>
      obtain ⟨hr, -⟩ := Tx.runs_ok.mp hrest
      cases hr
      cases ho
  | some del =>
      obtain ⟨deliverAt, hentry, hdue⟩ := hdriver.acquire hacquire
      dsimp only at hrest
      split at hrest
      · unfold doHandle at hrest
        rw [runs_attempt_bind] at hrest
        obtain ⟨x, v, -, hrest⟩ := hrest
        rcases x with (_ | _) | _
        · obtain ⟨_, rfl, hpostpone⟩ := Tx.runs_ok_return hrest
          cases ho
          obtain ⟨d, hdelay, hleft⟩ := hdriver.postponeFailure hpostpone
          exact ⟨_, hentry, hdue, Or.inr ⟨_, hleft, d, hdelay, rfl⟩⟩
        · obtain ⟨_, rfl, hpostpone⟩ := Tx.runs_ok_return hrest
          cases ho
          exact ⟨_, hentry, hdue, Or.inr ⟨_, hdriver.postpone hpostpone, _, rfl, rfl⟩⟩
        · obtain ⟨hr, -⟩ := Tx.runs_ok.mp hrest
          cases hr
          cases ho
          exact ⟨_, hentry, hdue, Or.inl rfl⟩
      · obtain ⟨_, rfl, hpostpone⟩ := Tx.runs_ok_return hrest
        cases ho
        obtain ⟨d, hdelay, hleft⟩ := hdriver.postponeFailure hpostpone
        exact ⟨_, hentry, hdue, Or.inr ⟨_, hleft, d, hdelay, rfl⟩⟩

end Deliver

/-! ## Queues -/

/-- A message that is delivered from a queue. -/
inductive Queued where
  | command (messageID : UUID)
  | deadline (messageID : UUID)
  deriving DecidableEq, Repr

/-- What the queue of commands says about a message. -/
def commandEntry (rows : Database) (messageID : UUID) : Option QueueEntry :=
  (rows (.command messageID)).map fun row => ⟨row.failures, row.deliverAt⟩

/-- What the table of deadlines says about a message. -/
def deadlineEntry (rows : Database) (messageID : UUID) : Option QueueEntry :=
  (rows (.deadline messageID)).map fun row => ⟨row.failures, row.deliverAt⟩

/-- What its queue says about a message. -/
def entryOf (rows : Database) : Queued → Option QueueEntry
  | .command messageID => commandEntry rows messageID
  | .deadline messageID => deadlineEntry rows messageID

/-- What a transaction met, and how it ended, if it has acquired the message. -/
def acquires : Queued → Request ρ → Response → Option (Circumstances × Outcome)
  | .command messageID, .aggregateCommand _ c _, .delivery o
  | .command messageID, .integrationCommand _ c _, .delivery o
  | .deadline messageID, .deadline _ c _, .delivery o =>
      if acquired o = some messageID then some (c, o) else none
  | _, _, _ => none

/-- The attempt at delivering the message that a transaction is. -/
def attemptIn (m : Queued) (before : Database) (r : Request ρ) (response : Response) :
    Option DeliveryAttempt := do
  let (c, o) ← acquires m r response
  let entry ← entryOf before m
  return ⟨c, o, entry⟩

/-- The attempts at delivering the message since it has been put into its queue. -/
def attemptsAt (m : Queued) (history : List (Transaction ρ)) : List DeliveryAttempt :=
  history.foldl (fun attempts record => Policy.since attempts (entryOf record.before m)
    (attemptIn m record.before record.request record.result) (entryOf record.after m)) []

theorem attemptsAt_append (m : Queued) (history : List (Transaction ρ))
    (record : Transaction ρ) : attemptsAt m (history ++ [record]) =
      Policy.since (attemptsAt m history) (entryOf record.before m)
        (attemptIn m record.before record.request record.result) (entryOf record.after m) := by
  rw [attemptsAt, List.foldl_append]
  rfl

section Drivers

variable {E : Type} {rely : Rely Key Row} {rows : Database} {c : Circumstances}

/-- `AcquireCommandDelivery` returns a command that is due. -/
theorem acquireCommandDelivery_due {messageTypeIDs : Finset UUID} {now : Time}
    {visited : List UUID} {del : Delivery} {s t : Session Key Row E}
    (h : Tx.Runs rely rows (acquireCommandDelivery messageTypeIDs now visited : Stmt E _).run s
      (.ok (some del)) t) :
    ∃ row, s.view rows (.command del.messageID) = some row ∧ del.failures = row.failures ∧
      row.deliverAt ≤ now := by
  induction visited with
  | nil => cases (Tx.runs_ok.mp h).1
  | cons messageID rest ih =>
      rw [acquireCommandDelivery, Tx.runs_tryLock_bind] at h
      obtain ⟨hvisible, hdone⟩ | hrest := h
      · cases hrow : s.view rows (.command messageID) with
        | none => simp [hrow, commandIsDue] at hvisible
        | some row =>
            simp only [hrow, Tx.runs_ok] at hdone
            simp only [hrow, commandIsDue, Bool.and_eq_true, decide_eq_true_eq] at hvisible
            obtain ⟨hr, -⟩ := hdone
            cases hr
            exact ⟨row, hrow, rfl, hvisible.2⟩
      · exact ih hrest

theorem Driver.Queues.ofCommands {driver : Driver E} {messageTypeIDs : Finset UUID}
    (hdriver : driver.OfCommands messageTypeIDs c) :
    Driver.Queues driver c rely rows commandEntry where
  acquire := by
    intro del u hacquire
    rw [hdriver.acquire] at hacquire
    obtain ⟨row, hrow, hfailures, hdue⟩ := acquireCommandDelivery_due hacquire
    have hstart : rows (.command del.messageID) = some row := hrow
    exact ⟨row.deliverAt, by rw [commandEntry, hstart, hfailures]; rfl, hdue⟩
  postpone := by
    intro del delay s t hpostpone
    rw [hdriver.postpone] at hpostpone
    obtain ⟨row, -, -, rfl⟩ := postponeCommandDelivery_runs hpostpone
    simp [commandEntry]

theorem Driver.Queues.ofDeadlines {h : ProcessHandler ρ} {a : Process.DeadlineAttempt ρ} :
    Driver.Queues (Process.deadlinePump h c a) c rely rows deadlineEntry where
  acquire := by
    intro del u hacquire
    obtain ⟨-, -, hr | ⟨messageID, row, hr, hacquired⟩⟩ :=
      Process.acquireDelivery_runs rfl hacquire
    · cases hr
    · cases hr
      have hrow : rows (.deadline (Process.deadlineDelivery messageID row).messageID) =
        some row := hacquired.row_eq
      exact ⟨row.deliverAt, by rw [deadlineEntry, hrow]; rfl, hacquired.due⟩
  postpone := by
    intro del delay s t hpostpone
    obtain ⟨row, -, -, rfl⟩ := Process.postponeDelivery_runs hpostpone
    simp [deadlineEntry]

end Drivers

/-! ## What one transaction does to an entry -/

section Changes

variable {app : Application ρ} {before after : Database} {locks : Key → Bool}
  {trace : List (Observation ρ)} {r : Request ρ} {response : Response}
  {s : Session Key Row (Observation ρ)} {messageID : UUID} {p : Backoff}

/-- The transaction does to the entry what the redelivery policy says, and an attempt is
made only when the message is due. -/
structure Redelivered (p : Backoff) (m : Queued) (before : Database) (r : Request ρ)
    (response : Response) (after : Database) : Prop where
  change : (redelivery p).Change (entryOf before m) (attemptIn m before r response)
    (entryOf after m)
  due : ∀ a ∈ attemptIn m before r response,
    a.entry.deliverAt ≤ a.circumstances.acquiredAt

theorem Redelivered.of_not_attempt {m : Queued} (hnone : attemptIn m before r response = none)
    (hchange : (redelivery p).Change (entryOf before m) none (entryOf after m)) :
    Redelivered p m before r response after where
  change := hnone ▸ hchange
  due := by simp [hnone]

/-- A transaction of a message pump that has acquired the message. -/
theorem Redelivered.of_attempt {m : Queued} {c : Circumstances} {o : Outcome}
    {found : QueueEntry} (hacquires : acquires m r response = some (c, o))
    (hfound : entryOf before m = some found) (hdue : found.deliverAt ≤ c.acquiredAt)
    (hleft : entryOf after m = none ∨ ∃ left, entryOf after m = some left ∧
      (redelivery p).leaves ⟨c, o, found⟩ left) :
    Redelivered p m before r response after := by
  have hattempt : attemptIn m before r response = some ⟨c, o, found⟩ := by
    simp [attemptIn, hacquires, hfound]
  refine ⟨?_, by simp [hattempt, hdue]⟩
  rw [hattempt, hfound]
  obtain hnone | ⟨left, hsome, hleaves⟩ := hleft
  · rw [hnone]
    exact Policy.Change.completed (q := redelivery p) (a := ⟨c, o, found⟩)
  · rw [hsome]
    exact Policy.Change.attempted (q := redelivery p) (a := ⟨c, o, found⟩) hleaves

/-! ### Commands -/

/-- A transaction that does not deliver commands may add the command. -/
theorem unrelated_change {command command' : Option CommandRow}
    (h : CommandChange messageID command command' none) :
    (redelivery p).Change (command.map fun row => ⟨row.failures, row.deliverAt⟩) none
      (command'.map fun row => ⟨row.failures, row.deliverAt⟩) := by
  cases h with
  | unrelated hkept =>
      cases hkept with
      | kept => exact .kept
      | added hid hnone =>
          subst hnone
          exact .added rfl

/-- A transaction of a pump that takes its deliveries from the command queue. -/
theorem redelivered_command {driver : Driver (Observation ρ)} {c : Circumstances} {o : Outcome}
    (hdriver : Driver.Queues driver c databaseRely before commandEntry)
    (hruns : Tx.Runs databaseRely before (deliver driver p c).run .start (.ok o) s)
    (hchange : CommandChange messageID (before (.command messageID))
      (s.view before (.command messageID)) (some o))
    (hacquires : acquires (.command messageID) r response =
      if acquired o = some messageID then some (c, o) else none) :
    Redelivered p (.command messageID) before r response (s.view before) := by
  by_cases ho : acquired o = some messageID
  · rw [if_pos ho] at hacquires
    obtain ⟨found, hfound, hdue, hleft⟩ := hdriver.attempt hruns ho
    refine .of_attempt hacquires hfound hdue ?_
    obtain rfl | hleft := hleft
    · left
      have hnone : s.view before (.command messageID) = none := by
        generalize s.view before (.command messageID) = command at hchange
        cases hchange with
        | delivered _ => rfl
        | other hother => exact absurd rfl hother
      simp [entryOf, commandEntry, hnone]
    · exact Or.inr hleft
  · rw [if_neg ho] at hacquires
    refine .of_not_attempt (by simp [attemptIn, hacquires]) ?_
    have hsame : s.view before (.command messageID) = before (.command messageID) := by
      generalize s.view before (.command messageID) = command at hchange
      cases hchange with
      | other _ => rfl
      | _ => exact absurd rfl ho
    simp only [entryOf, commandEntry, hsame]
    exact .kept

theorem commands_redelivered
    (hruns : Tx.Runs databaseRely before (program app r) .start response s) :
    Redelivered app.backoff (.command messageID) before r response (s.view before) := by
  have hchange := (program_committed hruns).command messageID
  cases r with
  | aggregateCommand key c a =>
      rw [program, runs_transact] at hruns
      obtain ⟨o, rfl, hdeliver⟩ := Tx.runs_ok_return hruns
      exact redelivered_command (.ofCommands ⟨rfl, rfl⟩) hdeliver hchange rfl
  | integrationCommand key c a =>
      rw [program, runs_transact] at hruns
      obtain ⟨o, rfl, hdeliver⟩ := Tx.runs_ok_return hruns
      exact redelivered_command (.ofCommands ⟨rfl, rfl⟩) hdeliver hchange rfl
  | _ => exact .of_not_attempt rfl (unrelated_change hchange)

/-! ### Deadlines -/

theorem rescheduled_change {key : UUID} {instanceID : String} {scope : Process.Scope ρ}
    {deadline deadline' : Option DeadlineRow}
    (h : Rescheduled key instanceID scope messageID deadline deadline')
    (hfresh : scope.ended = false →
      ∀ env ∈ scope.deadlines, env.body.messageID = messageID → deadline = none) :
    (redelivery p).Change (deadline.map fun row => ⟨row.failures, row.deliverAt⟩) none
      (deadline'.map fun row => ⟨row.failures, row.deliverAt⟩) := by
  cases h with
  | kept _ => exact .kept
  | scheduled hended henv hid =>
      rw [hfresh hended _ henv hid]
      exact .added rfl
  | removed =>
      cases deadline with
      | none => exact .kept
      | some row => exact .removed

/-- The deadlines that a handler schedules are new, and those of an instance that has ended
are removed. -/
theorem applyScope_change {h : ProcessHandler ρ} {b : Process.Behavior ρ} {instanceID : String}
    {row : ProcessInstanceRow} {scope : Process.Scope ρ}
    (hfresh : scope.ended = false →
      ∀ env ∈ scope.deadlines, before (.deadline env.body.messageID) = none)
    (hdistinct : scope.ended = false → (scope.deadlines.map (·.body.messageID)).Nodup) :
    (redelivery p).Change (deadlineEntry before messageID) none
      (deadlineEntry (Process.applyScope h b instanceID row scope
        (Process.withInstance h.key instanceID row before)) messageID) := by
  apply rescheduled_change (applyScope_rescheduled hdistinct messageID)
  rintro hended env henv rfl
  exact hfresh hended env henv

/-- A transaction of a sink may schedule the deadline or remove it. -/
theorem consumed_entry {h : ProcessHandler ρ} {call : Process.ConsumeCall ρ} {actual : Nat}
    (hconsumed : Process.Consumed h call before locks actual trace after) :
    (redelivery p).Change (deadlineEntry before messageID) none
      (deadlineEntry after messageID) := by
  have hcheckpoint : ∀ (db : Database) (offset : Nat),
      deadlineEntry (Process.withCheckpoint h.key call.streamID offset db) messageID =
        deadlineEntry db messageID := by
    intro db offset
    rw [deadlineEntry, Process.withCheckpoint_of_ne (by simp), deadlineEntry]
  cases hconsumed with
  | conflict _ _ =>
      rw [hcheckpoint]
      exact .kept
  | skipped _ _ =>
      rw [hcheckpoint]
      exact .kept
  | dispatched _ _ hdispatched =>
      rw [hcheckpoint, ← hcheckpoint before call.cp]
      cases hdispatched with
      | unrouted => exact .kept
      | ended _ _ _ => exact .kept
      | handled _ hinvoked _ _ hfresh hdistinct => exact applyScope_change hfresh hdistinct

/-- A transaction of the deadline pump that has not acquired the deadline may schedule it or
remove it. -/
theorem deadlineCommitted_entry {h : ProcessHandler ρ} {c : Circumstances}
    {a : Process.DeadlineAttempt ρ} {o : Outcome}
    (hcommitted : Process.DeadlineCommitted h c a before locks o after)
    (ho : acquired o ≠ some messageID) :
    (redelivery p).Change (deadlineEntry before messageID) none
      (deadlineEntry after messageID) := by
  have hother : ∀ {acquiredID : UUID} {deadline : Option DeadlineRow} (db : Database),
      some acquiredID ≠ some messageID →
      deadlineEntry (Function.update db (.deadline acquiredID) deadline) messageID =
        deadlineEntry db messageID := by
    intro acquiredID deadline db hne
    have hkey : Key.deadline messageID ≠ .deadline acquiredID := by
      intro heq
      exact hne (by rw [Key.deadline.inj heq])
    rw [deadlineEntry, Function.update_of_ne hkey, deadlineEntry]
  cases hcommitted with
  | idle => exact .kept
  | unreadable _ =>
      rw [hother _ ho]
      exact .kept
  | failed _ hleaves =>
      rw [hother _ ho, deadlineEntry, deadlineEntry, hleaves.deadline]
      exact .kept
  | delivered _ hcompletes _ =>
      cases hcompletes with
      | ended _ hended => exact applyScope_change (by simp [hended]) (by simp [hended])
      | saved _ _ _ hfresh hdistinct =>
          rw [hother _ ho]
          exact applyScope_change (fun _ => hfresh) (fun _ => hdistinct)

/-- A deadline that has been handled is gone. -/
theorem deadlineCommitted_delivered {h : ProcessHandler ρ} {c : Circumstances}
    {a : Process.DeadlineAttempt ρ}
    (hagrees : ∀ row, before (.deadline messageID) = some row → Agrees messageID row)
    (hcommitted : Process.DeadlineCommitted h c a before locks (.delivered messageID) after) :
    after (.deadline messageID) = none := by
  cases hcommitted with
  | @delivered _ row _ hacquired hcompletes _ =>
      cases hcompletes with
      | ended _ hended =>
          have hrow := hacquired.row_eq
          rw [Process.applyScope_deadline_of_ended hended, Process.withInstance_of_ne (by simp),
            hrow]
          have hinstance := (hagrees row hrow).2.2
          simp [belongsTo, hacquired.handlerKey, hinstance]
      | saved _ _ _ _ _ => exact Function.update_self ..

theorem deadlines_redelivered
    (hagrees : ∀ row, before (.deadline messageID) = some row → Agrees messageID row)
    (hruns : Tx.Runs databaseRely before (program app r) .start response s) :
    Redelivered app.backoff (.deadline messageID) before r response (s.view before) := by
  have hcommitted := program_committed hruns
  have hframe : r.ofProcess = false → (redelivery app.backoff).Change
      (deadlineEntry before messageID) none (deadlineEntry (s.view before) messageID) := by
    intro hr
    rw [deadlineEntry, deadlineEntry, hcommitted.processFrame hr .deadline]
    exact .kept
  cases r with
  | consume key call =>
      refine .of_not_attempt rfl ?_
      cases hcommitted with
      | consume hconsumed => exact consumed_entry hconsumed
  | deadline key c a =>
      rw [program, runs_transact] at hruns
      obtain ⟨o, rfl, hdeliver⟩ := Tx.runs_ok_return hruns
      have hdeadline := Process.deadlinePump_committed hdeliver
      by_cases ho : acquired o = some messageID
      · obtain ⟨found, hfound, hdue, hleft⟩ :=
          Driver.Queues.ofDeadlines.attempt hdeliver ho
        refine .of_attempt (if_pos ho) hfound hdue ?_
        obtain rfl | hleft := hleft
        · left
          rw [entryOf, deadlineEntry, deadlineCommitted_delivered hagrees hdeadline]
          rfl
        · exact Or.inr hleft
      · refine .of_not_attempt ?_ (deadlineCommitted_entry hdeadline ho)
        simp [attemptIn, acquires, ho]
  | _ => exact .of_not_attempt rfl (hframe rfl)

end Changes

/-! ## Runs -/

/-- The queues agree with the attempts that have been made. -/
structure RedeliveryInvariant (p : Backoff) (rows : Database) (history : List (Transaction ρ)) :
    Prop where
  tracks : ∀ m, (redelivery p).Tracks (attemptsAt m history) (entryOf rows m)
  due : ∀ m, ∀ a ∈ attemptsAt m history, a.entry.deliverAt ≤ a.circumstances.acquiredAt

theorem RedeliveryInvariant.initial (p : Backoff) :
    RedeliveryInvariant p emptyDatabase ([] : List (Transaction ρ)) where
  tracks := by
    intro m
    cases m with
    | command messageID => exact .absent
    | deadline messageID => exact .absent
  due := by
    intro m a ha
    cases ha

theorem RedeliveryInvariant.commit {p : Backoff} {history : List (Transaction ρ)}
    {record : Transaction ρ} (hinv : RedeliveryInvariant p record.before history)
    (h : ∀ m, Redelivered p m record.before record.request record.result record.after) :
    RedeliveryInvariant p record.after (history ++ [record]) where
  tracks := by
    intro m
    rw [attemptsAt_append]
    exact (hinv.tracks m).step (h m).change
  due := by
    intro m a ha
    rw [attemptsAt_append, Policy.since] at ha
    split at ha
    · cases ha
    · obtain hold | hnew := List.mem_append.mp ha
      · exact hinv.due m a hold
      · exact (h m).due a (Option.mem_toList.mp hnew)

section Runs

variable {T : Type} [DecidableEq T] {app : Application ρ}
  {allow : List (Request ρ) → Request ρ → Prop} {e : System T ρ}

theorem redelivery_invariant (h : Reaches app allow start e) :
    RedeliveryInvariant app.backoff e.rows e.history := by
  have hstart : ∀ messageID row, emptyDatabase (.deadline messageID) = some row →
      Agrees messageID row := by
    intro messageID row hrow
    cases hrow
  refine (Pool.run_invariant (program_respects app) (fun _ rows history =>
    (∀ messageID row, rows (.deadline messageID) = some row → Agrees messageID row) ∧
      RedeliveryInvariant app.backoff rows history) ?_ ?_ h start_consistent
    ⟨hstart, .initial _⟩).2.2
  · intro begun rows history r hinv _
    exact hinv
  · intro begun history record hinv _ hserial
    obtain ⟨hagrees, hinv⟩ := hinv
    obtain ⟨s, hruns, -, hafter⟩ := hserial
    refine ⟨?_, hinv.commit ?_⟩
    · intro messageID
      rw [hafter]
      exact ((program_committed hruns).deadlineChange messageID).agrees (hagrees messageID)
    · intro m
      rw [hafter]
      cases m with
      | command messageID => exact commands_redelivered hruns
      | deadline messageID => exact deadlines_redelivered (hagrees messageID) hruns

end Runs

/-- The failures that an entry counts are those of the attempts so far. -/
theorem failures_of_tracks {p : Backoff} {attempts : List DeliveryAttempt} {entry : QueueEntry}
    (h : (redelivery p).Tracks attempts (some entry)) :
    entry.failures = (attempts.filter DeliveryAttempt.failed).length := by
  induction attempts using List.reverseRecOn generalizing entry with
  | nil => exact h.untouched entry rfl rfl
  | append_singleton attempts a ih =>
      obtain ⟨d, -, rfl⟩ := h.last entry rfl a (by simp)
      have hbefore : a.entry.failures = _ := ih h.of_concat
      rw [List.filter_append, List.length_append, ← hbefore]
      cases hfailed : a.failed with
      | true => simp [DeliveryAttempt.failures, hfailed]
      | false => simp [DeliveryAttempt.failures, hfailed]

section Spacing

variable {T : Type} [DecidableEq T] {app : Application ρ}
  {allow : List (Request ρ) → Request ρ → Prop} {e : System T ρ}

/-- What the next attempt at a message finds, and when it is made. -/
theorem RedeliveryInvariant.next {p : Backoff} {rows : Database}
    {history : List (Transaction ρ)} (hinv : RedeliveryInvariant p rows history) {m : Queued}
    {a b : DeliveryAttempt} (hb : b ∈ attemptsAt m history)
    (hnext : (redelivery p).leaves a b.entry) :
    ∃ d, a.delay p = some d ∧ b.entry.failures = a.failures ∧
      a.circumstances.postponedAt + d ≤ b.circumstances.acquiredAt := by
  obtain ⟨d, hdelay, hentry⟩ := hnext
  have hdue := hinv.due m b hb
  rw [hentry] at hdue
  exact ⟨d, hdelay, by rw [hentry], hdue⟩

/-- Whichever pumps make the attempts at delivering a message that are committed: the first
one finds that it has not failed; each following one finds the number of failures that the
one before has left, and is made no earlier after it than the backoff for that number if it
failed, and than `BackoffBase` if it was busy; and the queue counts exactly the attempts that
failed.  If the clocks of the nodes are not ahead of that of the database, attempts are at
least `BackoffBase` apart. -/
theorem attempts_back_off (h : Reaches app allow start e) (m : Queued) :
    (∀ a ∈ (attemptsAt m e.history).head?, a.entry.failures = 0) ∧
    (∀ i a b, (attemptsAt m e.history)[i]? = some a →
      (attemptsAt m e.history)[i + 1]? = some b →
      ∃ d, a.delay app.backoff = some d ∧ b.entry.failures = a.failures ∧
        a.circumstances.postponedAt + d ≤ b.circumstances.acquiredAt) ∧
    (∀ entry, entryOf e.rows m = some entry →
      entry.failures = ((attemptsAt m e.history).filter DeliveryAttempt.failed).length) ∧
    ((∀ a ∈ attemptsAt m e.history,
        a.circumstances.acquiredAt ≤ a.circumstances.postponedAt) →
      ∀ i j a b, i ≤ j → (attemptsAt m e.history)[i]? = some a →
        (attemptsAt m e.history)[j]? = some b →
        a.circumstances.acquiredAt + (j - i : Nat) * app.backoff.backoffBase ≤
          b.circumstances.acquiredAt) := by
  have hinv := redelivery_invariant h
  have htracks := hinv.tracks m
  refine ⟨htracks.first, ?_, ?_, ?_⟩
  · intro i a b ha hb
    obtain ⟨hi, rfl⟩ := List.getElem?_eq_some_iff.mp ha
    obtain ⟨hi', rfl⟩ := List.getElem?_eq_some_iff.mp hb
    exact hinv.next (List.getElem_mem hi') (List.isChain_iff_getElem.mp htracks.chain i hi')
  · intro entry hentry
    rw [hentry] at htracks
    exact failures_of_tracks htracks
  · intro hclocks i j a b
    refine htracks.elapsed (fun a => a.circumstances.acquiredAt) ?_ i j a b
    intro a ha b hb hnext
    obtain ⟨d, hdelay, -, hdue⟩ := hinv.next hb hnext
    exact le_trans (add_le_add (hclocks a ha) (DeliveryAttempt.base_le_delay hdelay)) hdue

end Spacing

/-- A transaction of a message pump, at the given time, in which the handler of the command
panics. -/
def retrying (now : Time) : Request Nat :=
  .aggregateCommand (uuid 50) { finding 10 with acquiredAt := now, postponedAt := now }
    { recording [] with returns := false }

/-- The command has been attempted twice. -/
def retriedCommand : System Unit Nat :=
  Pool.serve (program counters)
    [.executeCommand (commandEnvelope 10) 0, retrying 0, retrying 25] start

theorem attempts_back_off_retried :
    ∃ a b, attemptsAt (.command (uuid 10)) retriedCommand.history = [a, b] ∧
      a.entry.failures = 0 ∧ b.entry.failures = 1 ∧
      (∃ d, a.delay counters.backoff = some d ∧
        a.circumstances.postponedAt + d ≤ b.circumstances.acquiredAt) ∧
      commandEntry retriedCommand.rows (uuid 10) = some ⟨2, 35⟩ := by
  have hreached : Reaches counters AnyRequest start retriedCommand :=
    Pool.serve_run () (fun _ => rfl) (allAllowed_anyRequest _ _)
  obtain ⟨hfirst, hnext, -, -⟩ := attempts_back_off hreached (.command (uuid 10))
  have hattempts : ∃ a b, attemptsAt (.command (uuid 10)) retriedCommand.history = [a, b] ∧
      a.failures = 1 := ⟨_, _, rfl, rfl⟩
  obtain ⟨a, b, hattempts, hfailures⟩ := hattempts
  rw [hattempts] at hfirst hnext
  obtain ⟨d, hdelay, hfound, hdue⟩ := hnext 0 a b rfl rfl
  exact ⟨a, b, hattempts, hfirst a rfl, hfound.trans hfailures, ⟨d, hdelay, hdue⟩, rfl⟩

end Runkit.Engine
