/-
  Engine/Roots.lean --- the roots that process handlers are given.

  Committed transactions are totally ordered, and so are the invocations of an
  instance among them.  Events of any stream and deadlines lock the row of the
  instance before they load it, so each invocation starts from what the one
  before it has left.
-/
import Runkit.Engine.Instances

set_option autoImplicit false

namespace Runkit.Engine

open Runkit.Foundation Runkit.Schema Runkit.Schema.Stmt Runkit.MessagePump

variable {ρ : Type}

/-- `MarshalBinary` returns non-nil bytes, and `UnmarshalBinary` undoes it. -/
def SavesRoots (app : Application ρ) : Prop :=
  ∀ key root, ∃ data, (app.process key).marshalBinary root = some data ∧
    (app.process key).unmarshalBinary (app.process key).new (some data) = root

/-- What `saveInstance` stores for the root is what `loadInstance` restores it from. -/
def ReadsBack (h : ProcessHandler ρ) (root : ρ) : Prop :=
  ∀ row : ProcessInstanceRow,
    Process.loadedRoot h { row with state := h.marshalBinary root } = root

theorem SavesRoots.readsBack {app : Application ρ} (hsaves : SavesRoots app) (key : UUID)
    (root : ρ) : ReadsBack (app.process key) root := by
  intro row
  obtain ⟨data, hdata, hroot⟩ := hsaves key root
  rw [Process.loadedRoot, hdata]
  exact hroot

/-- The committed invocations of an instance, oldest first. -/
def invocations (app : Application ρ) (key : UUID) (instanceID : String)
    (history : List (Transaction ρ)) : List (Invocation ρ) :=
  history.filterMap fun record =>
    invocation app key instanceID record.before record.trace record.request record.result

/-- The root that was left by the latest of the given invocations that called
`Mutate`, or a new root if there is none. -/
def latestState (new : ρ) (past : List (Invocation ρ)) : ρ :=
  match past.reverse.find? (·.scope.mutated) with
  | none => new
  | some inv => inv.scope.root

theorem latestState_concat (new : ρ) (past : List (Invocation ρ)) (inv : Invocation ρ) :
    latestState new (past ++ [inv]) =
      if inv.scope.mutated then inv.scope.root else latestState new past := by
  unfold latestState
  rw [List.reverse_concat, List.find?_cons]
  cases inv.scope.mutated <;> rfl

/-- Each invocation was given the state that the latest mutation before it had
left. -/
def GivenLatest (new : ρ) (all : List (Invocation ρ)) : Prop :=
  ∀ past inv later, all = past ++ inv :: later → inv.root = latestState new past

theorem GivenLatest.concat {new : ρ} {all : List (Invocation ρ)} {inv : Invocation ρ}
    (hall : GivenLatest new all) (hinv : inv.root = latestState new all) :
    GivenLatest new (all ++ [inv]) := by
  intro past inv' later heq
  obtain rfl | ⟨later', last, rfl⟩ := List.eq_nil_or_concat later
  · obtain ⟨rfl, hlast⟩ := List.append_inj' heq rfl
    cases hlast
    exact hinv
  · rw [List.concat_eq_append, ← List.cons_append, ← List.append_assoc] at heq
    obtain ⟨rfl, -⟩ := List.append_inj' heq rfl
    exact hall past inv' later' rfl

theorem GivenLatest.of_append {new : ρ} {all later : List (Invocation ρ)}
    (h : GivenLatest new (all ++ later)) : GivenLatest new all := by
  intro past inv rest heq
  refine h past inv (rest ++ later) ?_
  rw [heq, List.append_assoc, List.cons_append]

/-- What holds of an instance and its invocations in every state. -/
structure RootInvariant (app : Application ρ) (key : UUID) (instanceID : String)
    (rows : Database) (history : List (Transaction ρ)) : Prop where
  given : GivenLatest (app.process key).new (invocations app key instanceID history)
  stored : ∀ row, row = (rows (.processInstance key instanceID)).getD Process.newInstanceRow →
    row.ended = false → Process.loadedRoot (app.process key) row =
      latestState (app.process key).new (invocations app key instanceID history)

theorem RootInvariant.initial (app : Application ρ) (key : UUID) (instanceID : String) :
    RootInvariant app key instanceID emptyDatabase [] where
  given := by
    intro past inv later heq
    simp [invocations] at heq
  stored := by
    intro row hrow _
    rw [hrow]
    rfl

section Commit

variable {app : Application ρ} {key : UUID} {instanceID : String}
  {history : List (Transaction ρ)} {record : Transaction ρ} {locks : Key → Bool}

/-- A transaction in which the instance is not invoked changes nothing. -/
theorem RootInvariant.frame
    (hinv : RootInvariant app key instanceID record.before history)
    (hnone : invocation app key instanceID record.before record.trace record.request
      record.result = none)
    (hsame : record.after (.processInstance key instanceID) =
      record.before (.processInstance key instanceID)) :
    RootInvariant app key instanceID record.after (history ++ [record]) := by
  have hinvocations : invocations app key instanceID (history ++ [record]) =
      invocations app key instanceID history := by
    simp [invocations, hnone]
  constructor
  · rw [hinvocations]
    exact hinv.given
  · rw [hinvocations, hsame]
    exact hinv.stored

/-- The root of an instance after a scope has been applied to it. -/
theorem loadedRoot_appliedRow {h : ProcessHandler ρ} {row : ProcessInstanceRow}
    {scope : Process.Scope ρ} (hended : scope.ended = false)
    (hsaved : scope.mutated = true → ReadsBack h scope.root) :
    Process.loadedRoot h (appliedRow h row scope) =
      if scope.mutated then scope.root else Process.loadedRoot h row := by
  unfold appliedRow
  rw [if_neg (by simp [hended])]
  split
  · rename_i hmutated
    exact hsaved hmutated row
  · rfl

/-- A transaction keeps the invariant, as long as the root that it saves can be read
back. -/
theorem RootInvariant.commit
    (hsaved : ∀ inv, invocation app key instanceID record.before record.trace record.request
      record.result = some inv → inv.scope.ended = false → inv.scope.mutated = true →
        ReadsBack (app.process key) inv.scope.root)
    (hinv : RootInvariant app key instanceID record.before history)
    (h : ProcessChange app record.before locks record.trace record.request record.result
      record.after) :
    RootInvariant app key instanceID record.after (history ++ [record]) := by
  cases h with
  | kept hnone hinstances _ => exact hinv.frame (hnone _ _) (hinstances _ _)
  | postponed _ _ _ hnone hinstances _ _ => exact hinv.frame (hnone _ _) (hinstances _ _)
  | @invoked key' b cause instanceID' row scope _ hinvoked hinvocation hinstance hinstances _ =>
      by_cases hsame : key' = key ∧ instanceID' = instanceID
      swap
      · refine hinv.frame ?_ (hinstances _ _ hsame)
        rw [hinvocation, if_neg hsame]
      obtain ⟨rfl, rfl⟩ := hsame
      have hrow := hinvoked.row_eq
      rw [app.process_key] at hrow
      -- The instance is locked, so the row that was loaded is the one that is stored.
      have hloaded := hinv.stored row hrow hinvoked.active
      have hinvocations : invocations app key' instanceID' (history ++ [record]) =
          invocations app key' instanceID' history ++
            [⟨Process.loadedRoot (app.process key') row, scope⟩] := by
        simp [invocations, hinvocation]
      constructor
      · rw [hinvocations]
        exact hinv.given.concat hloaded
      · intro row' hrow' hactive
        rw [hinstance, Option.getD_some] at hrow'
        subst hrow'
        rw [appliedRow_ended hinvoked.active] at hactive
        have hsaved' := hsaved _ (by rw [hinvocation, if_pos ⟨rfl, rfl⟩]) hactive
        rw [hinvocations, latestState_concat, loadedRoot_appliedRow hactive hsaved', hloaded]

end Commit

section Runs

variable {T : Type} [DecidableEq T] {app : Application ρ}
  {allow : List (Request ρ) → Request ρ → Prop} {e : System T ρ}

/-- The committed invocations of an instance are ordered such that each one was
given the state that was left by the latest one before it that called `Mutate`,
and so will the next one be. -/
theorem no_mutation_lost (hsaves : SavesRoots app) (h : Reaches app allow start e) (key : UUID)
    (instanceID : String) :
    GivenLatest (app.process key).new (invocations app key instanceID e.history) ∧
      ∀ row, e.rows (.processInstance key instanceID) = some row → row.ended = false →
        Process.loadedRoot (app.process key) row =
          latestState (app.process key).new (invocations app key instanceID e.history) := by
  obtain ⟨-, -, hinv⟩ := invariant_of_processChange
    (fun _ rows history => RootInvariant app key instanceID rows history)
    (fun _ _ _ _ hinv _ => hinv)
    (fun _ _ _ _ _ hinv _ hchange _ =>
      hinv.commit (fun _ _ _ _ => hsaves.readsBack key _) hchange) h start_consistent .initial
    (.initial app key instanceID)
  refine ⟨hinv.given, ?_⟩
  intro row hrow hactive
  exact hinv.stored row (by rw [hrow]; rfl) hactive

end Runs

/-- The instance `"p"` handles the first event of a stream by adding one to its
root. -/
def incrementing (stream : UInt64) : Request Nat :=
  .consume (uuid 60)
    { streamID := uuid stream
      cp := 0
      next := 1
      env := some (commandEnvelope stream)
      attempt :=
        { unpacks := true
          routing := .routed "p"
          behavior := calling [.mutate (· + 1) true false] true } }

/-- The state after it has handled an event of each of two streams. -/
def incrementedTwice : System Unit Nat :=
  Pool.serve (program counters) [incrementing 100, incrementing 101] start

theorem counters_savesRoots : SavesRoots counters := by
  intro key root
  exact ⟨_, rfl, List.length_replicate⟩

theorem no_mutation_lost_incremented :
    (invocations counters (uuid 60) "p" incrementedTwice.history).map (·.root) = [0, 1] ∧
      GivenLatest 0 (invocations counters (uuid 60) "p" incrementedTwice.history) := by
  refine ⟨by decide, ?_⟩
  exact (no_mutation_lost (T := Unit) counters_savesRoots
    (Pool.serve_run () (fun _ => rfl) (allAllowed_anyRequest _ _)) (uuid 60) "p").1

end Runkit.Engine
