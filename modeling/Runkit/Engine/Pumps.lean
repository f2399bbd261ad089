/-
  Engine/Pumps.lean --- the message pumps of the engine.

  Source: internal/messagepump/pump.go, with the drivers in internal/aggregate,
  internal/integration and internal/process.

  `Engine.lean` has one program for each transaction of a message pump.  The goroutines
  of a pump execute such a transaction between them (`MessagePump/Workers.lean`).
  Whatever they do, together with everything else that happens to the database, is a run
  of the engine as it is there (`pump_refines_engine`), so that what has been proved of
  every state that the engine reaches is true of the database while pumps are running,
  failing, and being stopped and restarted.
-/
import Runkit.Engine.Streams
import Runkit.MessagePump.Workers

set_option autoImplicit false

namespace Runkit.Engine

open Runkit.Foundation Runkit.Schema Runkit.MessagePump

variable {ρ T A : Type}

/-- The message pump of an aggregate. -/
def aggregatePump (app : Application ρ) (key : UUID) (workers : Nat) :
    Pump (Circumstances × Aggregate.Attempt) (Request ρ) (Observation ρ) Response where
  driver a := Aggregate.commandPump (app.aggregate key) a.1 a.2
  circumstances a := a.1
  backoff := app.backoff
  workers := workers
  request a := .aggregateCommand key a.1 a.2
  result := .delivery

/-- The message pump of an integration. -/
def integrationPump (app : Application ρ) (key : UUID) (workers : Nat) :
    Pump (Circumstances × Integration.Attempt) (Request ρ) (Observation ρ) Response where
  driver a := Integration.commandPump (app.integration key) a.1 a.2
  circumstances a := a.1
  backoff := app.backoff
  workers := workers
  request a := .integrationCommand key a.1 a.2
  result := .delivery

/-- The deadline pump of a process. -/
def processDeadlinePump (app : Application ρ) (key : UUID) (workers : Nat) :
    Pump (Circumstances × Process.DeadlineAttempt ρ) (Request ρ) (Observation ρ) Response where
  driver a := Process.deadlinePump (app.process key) a.1 a.2
  circumstances a := a.1
  backoff := app.backoff
  workers := workers
  request a := .deadline key a.1 a.2
  result := .delivery

/-- The message pumps of an application. -/
inductive IsPump (app : Application ρ) :
    ∀ {A : Type}, Pump A (Request ρ) (Observation ρ) Response → Prop where
  | aggregate (key : UUID) (workers : Nat) : IsPump app (aggregatePump app key workers)
  | integration (key : UUID) (workers : Nat) : IsPump app (integrationPump app key workers)
  | deadline (key : UUID) (workers : Nat) : IsPump app (processDeadlinePump app key workers)

/-- A transaction of a pump has the program that it has in the engine. -/
theorem IsPump.program {app : Application ρ} {p : Pump A (Request ρ) (Observation ρ) Response}
    (h : IsPump app p) (a : A) : program app (p.request a) = p.program a := by
  cases h with
  | aggregate key workers => rfl
  | integration key workers => rfl
  | deadline key workers => rfl

/-- Whatever the goroutines of a message pump do, among all other transactions and in
whichever order, and wherever they fail, are stopped or are restarted, is what the engine
does when each transaction executes one program from its beginning to its end. -/
theorem pump_refines_engine [DecidableEq T] {app : Application ρ}
    {allow : List (Request ρ) → Request ρ → Prop}
    {p : Pump A (Request ρ) (Observation ρ) Response} (hpump : IsPump app p) {canceled : Bool}
    {s : Pumping T p}
    (hrun : Relation.ReflTransGen (Pumping.Step (program app) allow)
      (Pumping.initial emptyDatabase canceled) s) :
    Reaches app allow start (s.db.pool p.residual) := by
  induction hrun with
  | refl => exact .refl
  | tail _ hstep ih => exact ih.trans (hstep.pool hpump.program)

/-- An attempt in which the integration handles the command without recording events. -/
def acknowledging : Integration.Attempt where
  unpacks := true
  records := []
  returns := true
  acquisition :=
    { visited := []
      zeroLength := none
      awaited := uuid 100
      generated := uuid 100 }

/-- The pump of an integration with one worker. -/
abbrev soloPump := integrationPump counters (uuid 60) 1

theorem pump_refines_engine_solo :
    ∃ s : Pumping Unit soloPump, s.db.history.length = 2 ∧
      s.db.rows (.command (uuid 10)) = none ∧
      Reaches counters AnyRequest start (s.db.pool soloPump.residual) := by
  have hfree : ∀ (s : Pumping Unit soloPump) (k : Key), s.db.Free () k :=
    fun _ _ t' _ hne => absurd (Subsingleton.elim t' ()) hne
  have hstart : Relation.ReflTransGen (Pumping.Step (program counters) AnyRequest)
      (Pumping.initial emptyDatabase false : Pumping Unit soloPump)
      (Pumping.initial emptyDatabase false) := .refl
  have hbegun := hstart.tail (.otherBegin (t := ()) (r := .executeCommand (commandEnvelope 10) 0)
    ⟨rfl, fun g => by rcases Pumping.goroutine_one g with rfl | rfl <;> decide⟩ trivial)
  have hlocked := hbegun.tail (.otherAdvance (t := ()) rfl (.lock (hfree _ _)))
  have hinserted := hlocked.tail (.otherAdvance (t := ()) rfl (.write (by rfl)))
  have hexecuted := hinserted.tail (.otherCommit (t := ()) rfl)
  have hacquiring := hexecuted.tail (.begin (t := ()) (finding 10, acknowledging) rfl
    ⟨rfl, fun g => by rcases Pumping.goroutine_one g with rfl | rfl <;> decide⟩ trivial)
  have hacquired := hacquiring.tail (.statement (g := none) rfl rfl
    (.acquiring (.hit (hfree _ _) (by rfl))))
  have hsent := (hacquired.tail (.readable rfl rfl rfl)).tail
    (.send (i := ⟨0, by decide⟩) rfl rfl)
  have hhandling := hsent.tail (.handle (i := ⟨0, by decide⟩) rfl rfl)
  have hremoving := hhandling.tail (.statement (g := some ⟨0, by decide⟩) rfl rfl
    (.handling (.lock (hfree _ _))))
  have hremoved := hremoving.tail (.statement (g := some ⟨0, by decide⟩) rfl rfl
    (.handling (.write (by rfl))))
  have hdelivered := hremoved.tail (.commit (g := some ⟨0, by decide⟩) rfl rfl rfl)
  exact ⟨_, rfl, rfl, pump_refines_engine (.integration (uuid 60) 1) hdelivered⟩

end Runkit.Engine
