/-
  Engine.lean --- all transactions of all nodes on one database.

  Any number of nodes run message pumps, sinks and `Engine.ExecuteCommand` at the
  same time.  Each of their transactions is a request here; its program is the
  engine's code, and the request carries whatever the code does not decide.  A
  state of the system is a pool of transactions over the database.

  `program_committed` says what each kind of transaction can commit.
-/
import Runkit.Aggregate.Commit
import Runkit.Foundation.Pool
import Runkit.Integration.CommandPump
import Runkit.Process.Frame

set_option autoImplicit false

namespace Runkit.Engine

open Runkit.Foundation Runkit.Schema Runkit.Schema.Stmt Runkit.MessagePump

variable {ρ : Type}

/-- The handlers of an application, by their keys. -/
structure Application (ρ : Type) where
  backoff : Backoff
  aggregate : UUID → AggregateHandler ρ
  aggregate_key : ∀ key, (aggregate key).key = key
  integration : UUID → IntegrationHandler
  integration_key : ∀ key, (integration key).key = key
  process : UUID → ProcessHandler ρ
  process_key : ∀ key, (process key).key = key

/-- A transaction that is to be executed. -/
inductive Request (ρ : Type) where
  /-- `Engine.ExecuteCommand`. -/
  | executeCommand (env : Envelope) (now : Time)
  /-- A transaction of the message pump of an aggregate. -/
  | aggregateCommand (handlerKey : UUID) (c : Circumstances) (a : Aggregate.Attempt)
  /-- A transaction of the message pump of an integration. -/
  | integrationCommand (handlerKey : UUID) (c : Circumstances) (a : Integration.Attempt)
  /-- A transaction of the deadline pump of a process. -/
  | deadline (handlerKey : UUID) (c : Circumstances) (a : Process.DeadlineAttempt ρ)
  /-- A transaction of the sink of a process. -/
  | consume (handlerKey : UUID) (call : Process.ConsumeCall ρ)

/-- What a transaction returns. -/
inductive Response where
  | added (actual : UUID) (enqueued : Bool)
  | delivery (outcome : Outcome)
  | consumed (actual : Nat)
  deriving DecidableEq, Repr

/-- The program of a transaction. -/
def program (app : Application ρ) : Request ρ → Tx Key Row (Observation ρ) Response
  | .executeCommand env now => transact do
      let (actual, enqueued) ← CommandQueue.add env now
      return .added actual enqueued
  | .aggregateCommand key c a => transact do
      let outcome ← deliver (Aggregate.commandPump (app.aggregate key) c a) app.backoff c
      return .delivery outcome
  | .integrationCommand key c a => transact do
      let outcome ← deliver (Integration.commandPump (app.integration key) c a) app.backoff c
      return .delivery outcome
  | .deadline key c a => transact do
      let outcome ← deliver (Process.deadlinePump (app.process key) c a) app.backoff c
      return .delivery outcome
  | .consume key call => transact do
      let actual ← Process.consume (app.process key) call
      return .consumed actual

/-! ## What is committed -/

/-- What `commandqueue.add` commits. -/
inductive Added (env : Envelope) (now : Time) (before : Database) :
    UUID → Bool → Database → Prop where
  | deduplicated {original : UUID} (hkey : env.body.idempotencyKey ≠ "")
      (hclaimed : before (.idempotencyKey env.body.idempotencyKey) = some original) :
      Added env now before original false before
  | claimed (hkey : env.body.idempotencyKey ≠ "")
      (hunclaimed : before (.idempotencyKey env.body.idempotencyKey) = none)
      (hnew : before (.command env.body.messageID) = none) :
      Added env now before env.body.messageID true
        (Function.update (Function.update (Function.update before
          (.idempotencyKey env.body.idempotencyKey) (some env.body.messageID))
          (.idempotencyMessageID env.body.messageID) (some env.body.idempotencyKey))
          (.command env.body.messageID) (some (CommandQueue.newRow env now)))
  | keyless (hkey : env.body.idempotencyKey = "")
      (hnew : before (.command env.body.messageID) = none) :
      Added env now before env.body.messageID true
        (Function.update before (.command env.body.messageID)
          (some (CommandQueue.newRow env now)))

/-- What a transaction can commit: the response, what was observed meanwhile, and
the database, given the database before and the locks that it holds. -/
inductive Committed (app : Application ρ) (before : Database) (locks : Key → Bool)
    (trace : List (Observation ρ)) : Request ρ → Response → Database → Prop where
  | executeCommand {env : Envelope} {now : Time} {actual : UUID} {enqueued : Bool}
      {after : Database} (h : Added env now before actual enqueued after) :
      Committed app before locks trace (.executeCommand env now) (.added actual enqueued) after
  | aggregateCommand {key : UUID} {c : Circumstances} {a : Aggregate.Attempt} {o : Outcome}
      {after : Database}
      (h : CommandCommitted
        (fun messageID env =>
          Aggregate.Completes (app.aggregate key) a messageID env before locks)
        (Aggregate.Leaves (app.aggregate key) before) before o after) :
      Committed app before locks trace (.aggregateCommand key c a) (.delivery o) after
  | integrationCommand {key : UUID} {c : Circumstances} {a : Integration.Attempt} {o : Outcome}
      {after : Database}
      (h : CommandCommitted
        (fun messageID env => Integration.Completes (app.integration key) a messageID env before)
        (fun e left => e = .failed ∧ left = before) before o after) :
      Committed app before locks trace (.integrationCommand key c a) (.delivery o) after
  | deadline {key : UUID} {c : Circumstances} {a : Process.DeadlineAttempt ρ} {o : Outcome}
      {after : Database}
      (h : Process.DeadlineCommitted (app.process key) c a before locks o after) :
      Committed app before locks trace (.deadline key c a) (.delivery o) after
  | consume {key : UUID} {call : Process.ConsumeCall ρ} {actual : Nat} {after : Database}
      (h : Process.Consumed (app.process key) call before locks actual trace after) :
      Committed app before locks trace (.consume key call) (.consumed actual) after

theorem add_committed {env : Envelope} {now : Time} {before : Database} {actual : UUID}
    {enqueued : Bool} {t : Session Key Row (Observation ρ)}
    (h : Tx.Runs databaseRely before (CommandQueue.add env now).run .start
      (.ok (actual, enqueued)) t) :
    Added env now before actual enqueued (t.view before) := by
  obtain ⟨original, hkey, hclaimed, hr, rfl⟩ |
    ⟨hkey, hunclaimed, -, hnew, hr, rfl⟩ | ⟨hkey, hnew, hr, rfl⟩ := CommandQueue.add_runs h
  · cases hr
    exact .deduplicated hkey hclaimed
  · cases hr
    simpa [CommandQueue.inserted, CommandQueue.claimed] using .claimed hkey hunclaimed hnew
  · cases hr
    simpa [CommandQueue.inserted] using .keyless hkey hnew

/-- Every transaction that commits has done one of the things that `Committed`
lists. -/
theorem program_committed {app : Application ρ} {r : Request ρ} {before : Database}
    {response : Response} {s : Session Key Row (Observation ρ)}
    (h : Tx.Runs databaseRely before (program app r) .start response s) :
    Committed app before s.locks s.trace r response (s.view before) := by
  cases r with
  | executeCommand env now =>
      rw [program, runs_transact] at h
      obtain ⟨⟨actual, enqueued⟩, rfl, hadd⟩ := Tx.runs_ok_return h
      exact .executeCommand (add_committed hadd)
  | aggregateCommand key c a =>
      rw [program, runs_transact] at h
      obtain ⟨outcome, rfl, hdeliver⟩ := Tx.runs_ok_return h
      exact .aggregateCommand (Aggregate.commandPump_committed hdeliver)
  | integrationCommand key c a =>
      rw [program, runs_transact] at h
      obtain ⟨outcome, rfl, hdeliver⟩ := Tx.runs_ok_return h
      exact .integrationCommand (Integration.commandPump_committed hdeliver)
  | deadline key c a =>
      rw [program, runs_transact] at h
      obtain ⟨outcome, rfl, hdeliver⟩ := Tx.runs_ok_return h
      exact .deadline (Process.deadlinePump_committed hdeliver)
  | consume key call =>
      rw [program, runs_transact] at h
      obtain ⟨actual, rfl, hconsume⟩ := Tx.runs_ok_return h
      exact .consume (Process.consume_committed hconsume).1

end Runkit.Engine
