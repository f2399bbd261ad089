/-
  Engine/Schedule.lean --- the times at which deadlines are handled.

  A deadline becomes due when the clock of a node reaches `deliver_at`, which is at
  first the time that it is scheduled for.  When its delivery is postponed,
  `deliver_at` is computed from the clock of the database instead.
-/
import Runkit.Engine.Commands
import Runkit.Engine.Instances

set_option autoImplicit false

namespace Runkit.Engine

open Runkit.Foundation Runkit.Schema Runkit.Schema.Stmt Runkit.MessagePump

variable {ρ : Type}

/-- The transaction did not acquire a deadline before the time that it is scheduled
for, by the clock of the node. -/
def NotEarly (record : Transaction ρ) : Prop :=
  ∀ key c a o messageID row, record.request = .deadline key c a →
    record.result = .delivery o → acquired o = some messageID →
    record.before (.deadline messageID) = some row →
      row.envelope.body.scheduledFor ≤ c.acquiredAt

/-- When a delivery is postponed, the clock of the database is not further than
`BackoffBase` behind the clock of the node by which the deadline was due. -/
def KeepsUp (app : Application ρ) (_begun : List (Request ρ)) : Request ρ → Prop
  | .deadline _ c _ => c.acquiredAt ≤ c.postponedAt + app.backoff.backoffBase
  | _ => True

/-- No deadline is due before the time that it is scheduled for, or ever was. -/
structure ScheduleInvariant (app : Application ρ) (begun : List (Request ρ)) (rows : Database)
    (history : List (Transaction ρ)) : Prop where
  begun : ∀ r ∈ begun, KeepsUp app [] r
  rows : ∀ messageID row, rows (.deadline messageID) = some row →
    row.envelope.body.scheduledFor ≤ row.deliverAt
  history : ∀ record ∈ history, NotEarly record

theorem ScheduleInvariant.initial (app : Application ρ) :
    ScheduleInvariant app [] emptyDatabase [] where
  begun := by simp
  rows := by intro messageID row hrow; cases hrow
  history := by simp

section Commit

variable {app : Application ρ} {begun : List (Request ρ)} {history : List (Transaction ρ)}
  {record : Transaction ρ} {locks : Key → Bool}

theorem ScheduleInvariant.begin {rows : Database} {r : Request ρ}
    (hinv : ScheduleInvariant app begun rows history) (hallowed : KeepsUp app begun r) :
    ScheduleInvariant app (begun ++ [r]) rows history := by
  refine ⟨List.forall_mem_append.mpr ⟨hinv.begun, List.forall_mem_singleton.mpr ?_⟩, hinv.rows,
    hinv.history⟩
  cases r <;> exact hallowed

/-- A transaction that has acquired a deadline found that it was due. -/
theorem due_of_committed {key : UUID} {c : Circumstances} {a : Process.DeadlineAttempt ρ}
    {o : Outcome} {before after : Database}
    (h : Process.DeadlineCommitted (app.process key) c a before locks o after)
    {messageID : UUID} {row : DeadlineRow} (hacquired : acquired o = some messageID)
    (hrow : before (.deadline messageID) = some row) : row.deliverAt ≤ c.acquiredAt := by
  have hdue : ∀ {acquiredID : UUID} {row' : DeadlineRow},
      Process.Acquired (app.process key) c acquiredID before locks row' →
      some acquiredID = some messageID → row.deliverAt ≤ c.acquiredAt := by
    intro acquiredID row' hfound heq
    cases heq
    cases hrow.symm.trans hfound.row_eq
    exact hfound.due
  cases h with
  | idle => cases hacquired
  | unreadable hfound => exact hdue hfound hacquired
  | delivered hfound _ _ => exact hdue hfound hacquired
  | failed hfound _ => exact hdue hfound hacquired

theorem ScheduleInvariant.notEarly
    (hinv : ScheduleInvariant app begun record.before history)
    (hcommitted : Committed app record.before locks record.trace record.request record.result
      record.after) : NotEarly record := by
  intro key c a o messageID row hrequest hresult hacquired hrow
  rw [hrequest, hresult] at hcommitted
  generalize record.after = after at hcommitted
  cases hcommitted with
  | deadline hdeadline =>
      exact (hinv.rows messageID row hrow).trans (due_of_committed hdeadline hacquired hrow)

theorem ScheduleInvariant.commit
    (hinv : ScheduleInvariant app begun record.before history)
    (hrequested : record.request ∈ begun)
    (hchange : ProcessChange app record.before locks record.trace record.request record.result
      record.after)
    (hcommitted : Committed app record.before locks record.trace record.request record.result
      record.after) :
    ScheduleInvariant app begun record.after (history ++ [record]) where
  begun := hinv.begun
  rows := by
    intro messageID row hrow
    cases hchange with
    | kept _ _ hdeadlines =>
        rw [hdeadlines] at hrow
        exact hinv.rows messageID row hrow
    | @postponed key c a acquiredID row' delay hrequest hacquired hdelay _ _ hpostponed
        hdeadlines =>
        by_cases hid : messageID = acquiredID
        · subst hid
          cases hrow.symm.trans hpostponed
          have hkeepsUp : c.acquiredAt ≤ c.postponedAt + app.backoff.backoffBase := by
            have hbegun := hinv.begun _ hrequested
            rwa [hrequest] at hbegun
          calc row'.envelope.body.scheduledFor ≤ row'.deliverAt :=
                hinv.rows messageID row' hacquired.row_eq
            _ ≤ c.acquiredAt := hacquired.due
            _ ≤ c.postponedAt + app.backoff.backoffBase := hkeepsUp
            _ ≤ c.postponedAt + delay := Int.add_le_add_left hdelay _
        · rw [hdeadlines messageID hid] at hrow
          exact hinv.rows messageID row hrow
    | invoked _ _ _ _ _ hdeadlines =>
        have hrescheduled := hdeadlines messageID
        rw [hrow] at hrescheduled
        generalize hbefore : record.before (.deadline messageID) = old at hrescheduled
        cases hrescheduled with
        | kept _ => exact hinv.rows messageID row hbefore
        | scheduled _ _ _ => exact le_refl _
  history := by
    intro other hother
    obtain hother | hother := List.mem_append.mp hother
    · exact hinv.history other hother
    · rw [List.mem_singleton.mp hother]
      exact hinv.notEarly hcommitted

end Commit

section Runs

variable {T : Type} [DecidableEq T] {app : Application ρ} {e : System T ρ}

/-- As long as the clock of the database keeps up with those of the nodes, no node
acquires a deadline before its own clock has reached the time that the deadline is
scheduled for. -/
theorem deadline_not_early (h : Reaches app (KeepsUp app) start e) :
    (∀ key now visited del u, Tx.Runs databaseRely e.rows
        (Process.acquireDelivery (app.process key) now visited : Stmt (Observation ρ) _).run
        .start (.ok (some del)) u → del.envelope.body.scheduledFor ≤ now) ∧
      ∀ record ∈ e.history, NotEarly record := by
  obtain ⟨-, -, hinv⟩ := invariant_of_processChange (ScheduleInvariant app)
    (fun _ _ _ _ hinv hallowed => hinv.begin hallowed)
    (fun _ _ _ _ _ hinv hrequested hchange hcommitted =>
      hinv.commit hrequested hchange hcommitted)
    h start_consistent .initial (.initial app)
  refine ⟨?_, hinv.history⟩
  intro key now visited del u hacquire
  obtain ⟨-, -, hr | ⟨messageID, row, hr, hacquired⟩⟩ :=
    @Process.acquireDelivery_runs ρ databaseRely .start u (app.process key)
      { (default : Circumstances) with acquiredAt := now } visited e.rows _ rfl hacquire
  · cases hr
  · cases hr
    exact (hinv.rows messageID row hacquired.row_eq).trans hacquired.due

end Runs

/-! ## A clock that lags behind -/

/-- The readings of the clock of the node that executes the request. -/
def nodeClock : Request ρ → List Time
  | .aggregateCommand _ c _ => [c.acquiredAt]
  | .integrationCommand _ c _ => [c.acquiredAt]
  | .deadline _ c _ => [c.acquiredAt]
  | _ => []

/-- The readings of the clock of the database. -/
def databaseClock : Request ρ → List Time
  | .executeCommand _ now => [now]
  | .aggregateCommand _ c _ => [c.postponedAt]
  | .integrationCommand _ c _ => [c.postponedAt]
  | .deadline _ c a => [a.behavior.now, c.postponedAt]
  | .consume _ call => [call.attempt.behavior.now]

/-- Of requests that nodes execute one after another, neither the clock of any node
nor that of the database runs backwards. -/
def ClocksMonotone (timeline : List (Nat × Request ρ)) : Prop :=
  (∀ node, ((timeline.filter (·.1 = node)).flatMap fun step => nodeClock step.2).Pairwise
      (· ≤ ·)) ∧
    (timeline.flatMap fun step => databaseClock step.2).Pairwise (· ≤ ·)

/-- The instance `"p"` handles an event by scheduling a deadline for the time 100. -/
def schedulingLater : Request Nat :=
  .consume (uuid 60)
    { streamID := uuid 100
      cp := 0
      next := 1
      env := some (commandEnvelope 20)
      attempt :=
        { unpacks := true
          routing := .routed "p"
          behavior := calling
            [.scheduleDeadline
              { messageID := uuid 30, message := { typeID := uuid 3, data := [] } } 100 true
              false]
            true } }

/-- A node whose clock is at `now` attempts to deliver the deadline, when the clock
of the database is at `postponedAt`. -/
def attemptingAt (now postponedAt : Time) (returns : Bool) : Request Nat :=
  .deadline (uuid 60) { finding 30 with acquiredAt := now, postponedAt := postponedAt }
    { unpacks := true
      behavior := { calling [] true with returns := returns } }

/-- The first node's attempt fails, while the database's clock lags behind its own.
The second node's clock is behind as well. -/
def lagging : List (Nat × Request Nat) :=
  [(1, schedulingLater), (1, attemptingAt 100 0 false), (2, attemptingAt 20 30 true)]

/-- The state after the second node has delivered the deadline. -/
def deliveredEarly : System Unit Nat :=
  Pool.serve (program counters) (lagging.map (·.2)) start

/-- The state after the deadline has been delivered while the database's clock keeps
up. -/
def deliveredOnTime : System Unit Nat :=
  Pool.serve (program counters)
    [schedulingLater, attemptingAt 100 95 false, attemptingAt 105 105 true] start

theorem deadline_not_early_kept :
    deliveredOnTime.history.map (·.result) =
        [.consumed 0, .delivery (.failed (uuid 30)), .delivery (.delivered (uuid 30))] ∧
      ∀ record ∈ deliveredOnTime.history, NotEarly record := by
  have hfirst : (100 : Time) ≤ 95 + 10 := by decide
  have hsecond : (105 : Time) ≤ 105 + 10 := by decide
  refine ⟨by decide, (deadline_not_early (Pool.serve_run () (fun _ => rfl) ?_)).2⟩
  exact ⟨True.intro, hfirst, hsecond, True.intro⟩

/-- A deadline is delivered at a time before the one that it is scheduled for. -/
theorem deadline_early :
    ClocksMonotone lagging ∧ Reaches counters AnyRequest start deliveredEarly ∧
      ∃ record ∈ deliveredEarly.history,
        record.request = attemptingAt 20 30 true ∧
          record.result = .delivery (.delivered (uuid 30)) ∧ ¬ NotEarly record := by
  refine ⟨⟨?_, by decide⟩, Pool.serve_run () (fun _ => rfl) (allAllowed_anyRequest _ _), ?_⟩
  · intro node
    by_cases hfirst : 1 = node
    · subst hfirst
      decide
    · by_cases hsecond : 2 = node
      · subst hsecond
        decide
      · simp [lagging, hfirst, hsecond]
  · refine ⟨_, List.mem_of_getElem? (i := 2) rfl, rfl, rfl, ?_⟩
    intro hnotEarly
    have hlate := hnotEarly _ _ _ _ (uuid 30) _ rfl rfl rfl rfl
    revert hlate
    decide

end Runkit.Engine
