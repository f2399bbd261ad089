/-
  Engine/SavedState.lean --- what becomes of the state that roots are saved as.

  Saved state is a byte slice that is stored in a nullable column, and NULL also
  stands for the absence of saved state.  Aggregates get by with that, since a
  snapshot that is missing is made up for by the instance's events.  A process has
  nothing but its saved state: if `MarshalBinary` returns a nil slice, the next
  invocation starts from a new root.
-/
import Runkit.Engine.Aggregates
import Runkit.Engine.Roots

set_option autoImplicit false

namespace Runkit.Process

open Runkit.Foundation Runkit.Schema Runkit.Schema.Stmt

variable {ρ E : Type}

/-! ## Saving and loading -/

/-- A root can be read back if `UnmarshalBinary` undoes `MarshalBinary` and no state but
that of a new root is marshaled as a nil slice. -/
theorem loadedRoot_saved {h : ProcessHandler ρ} {root : ρ}
    (hundoes : h.unmarshalBinary h.new (h.marshalBinary root) = root)
    (hnil : h.marshalBinary root = none → root = h.new) (row : ProcessInstanceRow) :
    loadedRoot h { row with state := h.marshalBinary root } = root := by
  unfold loadedRoot
  dsimp only
  split
  · rename_i hstate
    exact (hnil hstate).symm
  · rename_i state hstate
    rw [← hstate]
    exact hundoes

/-- Loading an instance that has just been saved restores the root, unless the instance has
ended or one of the two fails. -/
theorem loadInstance_saveInstance {rely : Rely Key Row} {rows : Database}
    {s t : Session Key Row E} {h : ProcessHandler ρ} {b b' : Behavior ρ} {instanceID : String}
    {root : ρ} {row : ProcessInstanceRow} {r : Except Error (Option ρ)}
    (hundoes : h.unmarshalBinary h.new (h.marshalBinary root) = root)
    (hnil : h.marshalBinary root = none → root = h.new)
    (hrow : s.view rows (.processInstance h.key instanceID) = some row)
    (hactive : row.ended = false)
    (hruns : Tx.Runs rely rows (do
      saveInstance h b instanceID root
      loadInstance h b' instanceID h.new : Stmt E (Option ρ)).run s r t) :
    r = .error .failed ∨ r = .ok (some root) := by
  obtain ⟨e, rfl, herror⟩ | ⟨_, u, hsave, hload⟩ := Tx.runs_except_bind.mp hruns
  · obtain ⟨-, hr, -⟩ | ⟨-, hr, -⟩ := saveInstance_runs hrow herror
    · cases hr
      exact Or.inl rfl
    · cases hr
  obtain ⟨-, hr, -⟩ | ⟨-, -, -, hview⟩ := saveInstance_runs hrow hsave
  · cases hr
  obtain ⟨stored, hstored, -, -, -, ⟨hended, -⟩ | ⟨-, hr | hr⟩⟩ := loadInstance_runs hload
  all_goals rw [hview, withInstance, Function.update_self, Option.getD_some] at hstored
  · rw [hstored] at hended
    cases hactive.symm.trans hended
  · exact Or.inl hr
  · rw [hstored, loadedRoot_saved hundoes hnil] at hr
    exact Or.inr hr

/-! ## Calls of Mutate -/

/-- The handler calls `Mutate`. -/
def Behavior.CallsMutate (b : Behavior ρ) : Prop :=
  ∃ fn returns recovers, ScopeCall.mutate fn returns recovers ∈ b.calls

/-- The handler calls `Mutate` with a function that returns. -/
def Behavior.MutateReturns (b : Behavior ρ) : Prop :=
  ∃ fn recovers, ScopeCall.mutate fn true recovers ∈ b.calls

section Calls

variable {h : ProcessHandler ρ} {cause : Envelope} {instanceID : String}

/-- A scope that has been mutated stays mutated. -/
theorem callScope_mutated {call : ScopeCall ρ} {scope : Scope ρ} (hmutated : scope.mutated = true) :
    (callScope h cause instanceID call scope).1.mutated = true := by
  cases call with
  | mutate fn returns recovers =>
      simp only [callScope, mutate]
      split_ifs
      · exact hmutated
      · exact hmutated
      · rfl
  | end_ => exact hmutated
  | executeCommand command valid recovers =>
      simp only [callScope, executeCommand]
      split_ifs <;> exact hmutated
  | scheduleDeadline deadline t valid recovers =>
      simp only [callScope, scheduleDeadline]
      split_ifs <;> exact hmutated

/-- A scope that has not been ended has been mutated by a call of `Mutate` that returns. -/
theorem callEach_mutated {calls : List (ScopeCall ρ)} {scope scope' : Scope ρ}
    (hmutated : scope.mutated = true ∨ ∃ fn recovers, ScopeCall.mutate fn true recovers ∈ calls)
    (hcalls : callEach h cause instanceID calls scope = some scope')
    (hactive : scope'.ended = false) : scope'.mutated = true := by
  induction calls generalizing scope with
  | nil =>
      cases hcalls
      simpa using hmutated
  | cons call rest ih =>
      have hrunning : scope.ended = false := by
        by_contra hended
        have hended' := callEach_ended (Or.inl (by simpa using hended)) hcalls
        cases hactive.symm.trans hended'
      have hnext : (callScope h cause instanceID call scope).1.mutated = true ∨
          ∃ fn recovers, ScopeCall.mutate fn true recovers ∈ rest := by
        obtain hmutated | ⟨fn, recovers, hmem⟩ := hmutated
        · exact Or.inl (callScope_mutated hmutated)
        obtain rfl | hmem := List.mem_cons.mp hmem
        · simp [callScope, mutate, hrunning]
        · exact Or.inr ⟨fn, recovers, hmem⟩
      unfold callEach at hcalls
      split at hcalls
      · rename_i next hcall
        rw [hcall] at hnext
        exact ih hnext hcalls
      · rename_i next hcall
        rw [hcall] at hnext
        split at hcalls
        · exact ih hnext hcalls
        · cases hcalls

theorem handleMessage_mutated {b : Behavior ρ} {root : ρ} {scope : Scope ρ}
    (hreturns : b.MutateReturns)
    (hscope : handleMessage h b cause instanceID root = some scope)
    (hactive : scope.ended = false) : scope.mutated = true := by
  unfold handleMessage at hscope
  split at hscope
  · cases hscope
  · rename_i scope' hcalls
    split at hscope
    · cases hscope
      exact callEach_mutated (Or.inr hreturns) hcalls hactive
    · cases hscope

end Calls

end Runkit.Process

namespace Runkit.Engine

open Runkit.Foundation Runkit.Schema Runkit.Schema.Stmt Runkit.MessagePump

variable {ρ : Type}

/-- `UnmarshalBinary` undoes `MarshalBinary`, whether it returns a nil slice, an empty one
or any other, for the roots of all handlers. -/
structure RoundTrips (app : Application ρ) : Prop where
  aggregate : ∀ key root, (app.aggregate key).unmarshalBinary (app.aggregate key).new
    ((app.aggregate key).marshalBinary root) = root
  process : ∀ key root, (app.process key).unmarshalBinary (app.process key).new
    ((app.process key).marshalBinary root) = root

theorem RoundTrips.unmarshals {app : Application ρ} (h : RoundTrips app) : Unmarshals app := by
  intro key root data hdata
  rw [← hdata]
  exact h.aggregate key root

/-! ## Processes -/

section Process

variable {app : Application ρ} {key : UUID} {instanceID : String}
  {history : List (Transaction ρ)} {record : Transaction ρ}

/-- The invocation of an instance that a transaction of the history stands for. -/
def committedInvocation (app : Application ρ) (key : UUID) (instanceID : String)
    (record : Transaction ρ) : Option (Invocation ρ) :=
  invocation app key instanceID record.before record.trace record.request record.result

/-- If the transaction stands for an invocation of the instance that does not end it, then
calls of `Mutate` mark the root to be saved or leave it as it was given, and a root that is
saved is not marshaled as a nil slice unless it equals a new one. -/
def StoresState (app : Application ρ) (key : UUID) (instanceID : String)
    (record : Transaction ρ) : Prop :=
  ∀ b inv, record.request.behavior = some b →
    committedInvocation app key instanceID record = some inv → inv.scope.ended = false →
      (b.CallsMutate → inv.scope.mutated = true ∨ inv.scope.root = inv.root) ∧
        (inv.scope.mutated = true → (app.process key).marshalBinary inv.scope.root = none →
          inv.scope.root = (app.process key).new)

/-- The latest committed invocation of an instance, and what its handler did. -/
def LatestInvocation (app : Application ρ) (key : UUID) (instanceID : String)
    (history : List (Transaction ρ)) (b : Process.Behavior ρ) (inv : Invocation ρ) : Prop :=
  ∃ past record later, history = past ++ record :: later ∧
    record.request.behavior = some b ∧
    committedInvocation app key instanceID record = some inv ∧
    ∀ other ∈ later, committedInvocation app key instanceID other = none

/-- What a handler did in an invocation that took effect. -/
theorem handled_of_committed {inv : Invocation ρ}
    (h : committedInvocation app key instanceID record = some inv) :
    ∃ b cause, record.request.behavior = some b ∧
      Process.handleMessage (app.process key) b cause instanceID inv.root = some inv.scope := by
  unfold committedInvocation invocation at h
  obtain ⟨root, -, h⟩ := Option.bind_eq_some_iff.mp h
  obtain ⟨⟨b, cause⟩, hhandled, h⟩ := Option.bind_eq_some_iff.mp h
  obtain ⟨scope, hscope, h⟩ := Option.bind_eq_some_iff.mp h
  cases h
  exact ⟨b, cause, behavior_of_handled hhandled, hscope⟩

/-- One call of `Mutate` that returns is enough for the root to be saved. -/
theorem storesState_of_returns
    (hreturns : ∀ b, record.request.behavior = some b → b.CallsMutate → b.MutateReturns)
    (hnil : ∀ root, (app.process key).marshalBinary root = none →
      root = (app.process key).new) : StoresState app key instanceID record := by
  intro b inv hbehavior hinv hactive
  obtain ⟨b', cause, hbehavior', hscope⟩ := handled_of_committed hinv
  cases hbehavior.symm.trans hbehavior'
  refine ⟨?_, fun _ => hnil _⟩
  intro hcalls
  exact Or.inl (Process.handleMessage_mutated (hreturns b hbehavior hcalls) hscope hactive)

theorem invocations_split {past later : List (Transaction ρ)} {inv : Invocation ρ}
    (h : committedInvocation app key instanceID record = some inv) :
    invocations app key instanceID (past ++ record :: later) =
      invocations app key instanceID past ++ inv :: invocations app key instanceID later := by
  change List.filterMap (committedInvocation app key instanceID) _ = _
  rw [List.filterMap_append, List.filterMap_cons_some h]
  rfl

/-- The state that the next invocation has to be given is the one that was left by the
latest, if that one called `Mutate`. -/
theorem LatestInvocation.latestState_eq {b : Process.Behavior ρ} {inv : Invocation ρ} {new : ρ}
    (h : LatestInvocation app key instanceID history b inv)
    (hstores : ∀ record ∈ history, StoresState app key instanceID record)
    (hgiven : GivenLatest new (invocations app key instanceID history))
    (hmutate : b.CallsMutate) (hactive : inv.scope.ended = false) :
    latestState new (invocations app key instanceID history) = inv.scope.root := by
  obtain ⟨past, record, later, rfl, hbehavior, hinv, hlater⟩ := h
  have hrecord := hstores record (by simp) b inv hbehavior hinv hactive
  have hnone : invocations app key instanceID later = [] := List.filterMap_eq_nil_iff.mpr hlater
  rw [invocations_split hinv, hnone] at hgiven ⊢
  rw [latestState_concat]
  split
  · rfl
  · rename_i hunmarked
    -- Nothing is saved, but the root is the one that the invocation was given.
    rw [(hrecord.1 hmutate).resolve_left hunmarked]
    exact (hgiven _ _ _ rfl).symm

end Process

section Runs

variable {T : Type} [DecidableEq T] {app : Application ρ}
  {allow : List (Request ρ) → Request ρ → Prop} {e : System T ρ}

/-- Every invocation of the instance is given the root that the latest one before it has
left, if that one called `Mutate` and did not end the instance. -/
structure RestoresState (app : Application ρ) (key : UUID) (instanceID : String)
    (e : System T ρ) : Prop where
  /-- The invocations that have taken effect. -/
  committed : ∀ past record later inv b saved, e.history = past ++ record :: later →
    committedInvocation app key instanceID record = some inv →
    LatestInvocation app key instanceID past b saved → b.CallsMutate →
    saved.scope.ended = false → inv.root = saved.scope.root
  /-- Those that are going on, and may yet fail. -/
  handling : ∀ t o root b saved, e.sessions t = some o → o.request.ofProcess = true →
    Observation.handleMessage key instanceID root ∈ o.session.trace →
    LatestInvocation app key instanceID e.history b saved → b.CallsMutate →
    saved.scope.ended = false → root = saved.scope.root

omit [DecidableEq T] in
theorem RestoresState.second {key : UUID} {instanceID : String} {first second : Transaction ρ}
    {b : Process.Behavior ρ} {saved inv : Invocation ρ} (h : RestoresState app key instanceID e)
    (hhistory : e.history = [first, second]) (hbehavior : first.request.behavior = some b)
    (hmutate : b.CallsMutate) (hactive : saved.scope.ended = false)
    (hsaved : committedInvocation app key instanceID first = some saved)
    (hinv : committedInvocation app key instanceID second = some inv) :
    inv.root = saved.scope.root := by
  have hlatest : LatestInvocation app key instanceID [first] b saved :=
    ⟨[], first, [], rfl, hbehavior, hsaved, by simp⟩
  exact h.committed [first] second [] inv b saved hhistory hinv hlatest hmutate hactive

/-- Roots are saved and loaded faithfully in a run in which every state that is saved can be
told from no state. -/
theorem rootInvariant_of_stored (hroundTrips : RoundTrips app) (h : Reaches app allow start e)
    {key : UUID} {instanceID : String}
    (hstores : ∀ record ∈ e.history, StoresState app key instanceID record) :
    RootInvariant app key instanceID e.rows e.history := by
  refine (invariant_of_processChange (fun _ rows history =>
    (∀ record ∈ history, StoresState app key instanceID record) →
      RootInvariant app key instanceID rows history) (fun _ _ _ _ hinv _ => hinv) ?_ h
    start_consistent .initial fun _ => .initial app key instanceID).2.2 hstores
  intro begun history record locks _ hinv _ hchange _ hall
  obtain ⟨hpast, hrecord⟩ := List.forall_mem_append.mp hall
  refine (hinv hpast).commit ?_ hchange
  intro inv hinvocation hactive hmutated
  obtain ⟨b, -, hbehavior, -⟩ := handled_of_committed hinvocation
  have hstores' := hrecord record List.mem_cons_self b inv hbehavior hinvocation hactive
  exact Process.loadedRoot_saved (hroundTrips.process key _) (hstores'.2 hmutated)

theorem restoresState_of_stored (hroundTrips : RoundTrips app) (h : Reaches app allow start e)
    {key : UUID} {instanceID : String}
    (hstores : ∀ record ∈ e.history, StoresState app key instanceID record) :
    RestoresState app key instanceID e := by
  have hinv := rootInvariant_of_stored hroundTrips h hstores
  constructor
  · intro past record later inv b saved hhistory hinvocation hlatest hmutate hactive
    have hpast : ∀ record ∈ past, StoresState app key instanceID record := by
      intro other hother
      apply hstores
      rw [hhistory]
      exact List.mem_append_left _ hother
    have hsplit := hinv.given
    rw [hhistory, invocations_split hinvocation] at hsplit
    rw [hsplit _ _ _ rfl]
    exact hlatest.latestState_eq hpast hsplit.of_append hmutate hactive
  · intro t o root b saved hopen hprocess hcalled hlatest hmutate hactive
    obtain ⟨hconsistent, -⟩ := process_invariant h
    obtain ⟨-, -, hrunning, hroot⟩ :=
      called_of_visits hprocess (hconsistent.visits t o hopen) hcalled
    rw [hroot, hinv.stored _ rfl hrunning]
    exact hlatest.latestState_eq hstores hinv.given hmutate hactive

/-! ## Aggregates -/

/-- Snapshots are faithful in a run in which handlers apply what they pack. -/
theorem instances_of_applied (hmarshal : Unmarshals app) (h : Reaches app allow start e)
    (happlied : ∀ record ∈ e.history, AppliesPacked app record.request) :
    e.Consistent databaseRely (program app) ∧ (∀ id, Dense id (e.rows (.stream id))) ∧
      ∀ key instanceID, InstanceInvariant app e.rows key instanceID := by
  have hinv : e.Consistent databaseRely (program app) ∧ StreamInvariant app e.rows e.history ∧
      ((∀ record ∈ e.history, AppliesPacked app record.request) →
        ∀ key instanceID, InstanceInvariant app e.rows key instanceID) := by
    refine invariant_of_committed
      (fun _ rows history => StreamInvariant app rows history ∧
        ((∀ record ∈ history, AppliesPacked app record.request) →
          ∀ key instanceID, InstanceInvariant app rows key instanceID))
      (fun _ _ _ _ hinv _ => hinv) ?_ h start_consistent
      ⟨.initial app, fun _ => (AggregateInvariant.initial app).instances⟩
    intro begun history record locks hinv _ hcommitted
    refine ⟨hinv.1.commit hcommitted, ?_⟩
    intro hall key instanceID
    obtain ⟨hpast, hrecord⟩ := List.forall_mem_append.mp hall
    exact hcommitted.instanceInvariant hmarshal (hrecord record List.mem_cons_self)
      hinv.1.dense (hinv.2 hpast key instanceID)
  obtain ⟨hconsistent, hstreams, hinstances⟩ := hinv
  exact ⟨hconsistent, hstreams.dense, hinstances happlied⟩

/-! ## The saved state of all instances -/

/-- Loading an instance that has just been saved with the given root restores it, unless one
of the two fails. -/
def LoadsSaved (h : ProcessHandler ρ) (instanceID : String) (root : ρ) : Prop :=
  ∀ (rows : Database) (s t : Session Key Row (Observation ρ)) (b b' : Process.Behavior ρ)
    (row : ProcessInstanceRow) (r : Except Error (Option ρ)),
    s.view rows (.processInstance h.key instanceID) = some row → row.ended = false →
    Tx.Runs databaseRely rows (do
      Process.saveInstance h b instanceID root
      Process.loadInstance h b' instanceID h.new : Stmt (Observation ρ) (Option ρ)).run s r t →
    r = .error .failed ∨ r = .ok (some root)

/-- A process is given the root that it has saved, and an aggregate the replay of its events,
whatever `MarshalBinary` returns, as long as a process does not save a root that differs from
a new one as a nil slice.  Panics that handlers recover from must not get in the way: one of
a function that has changed the root, if no call of `Mutate` returns, or one of `RecordEvent`
after the event has been packed. -/
theorem saved_state_restored (hroundTrips : RoundTrips app) (h : Reaches app allow start e)
    (key : UUID) (instanceID : String) :
    (∀ root, ((app.process key).marshalBinary root = none → root = (app.process key).new) →
        LoadsSaved (app.process key) instanceID root) ∧
      ((∀ record ∈ e.history, StoresState app key instanceID record) →
        RestoresState app key instanceID e) ∧
      ((∀ record ∈ e.history, AppliesPacked app record.request) →
        ∀ t o c a root, e.sessions t = some o → o.request = .aggregateCommand key c a →
          Observation.handleCommand key instanceID root ∈ o.session.trace →
            ReplayedFrom app e.rows key instanceID root) := by
  refine ⟨?_, fun hstores => restoresState_of_stored hroundTrips h hstores, ?_⟩
  · intro root hnil rows s t b b' row r hrow hactive hruns
    exact Process.loadInstance_saveInstance (hroundTrips.process key root) hnil hrow hactive hruns
  · intro happlied t o c a root hopen hrequest hcalled
    obtain ⟨hconsistent, hdense, hinstances⟩ :=
      instances_of_applied hroundTrips.unmarshals h happlied
    exact (replayed_of_open hconsistent hdense hinstances hopen hrequest hcalled).2

end Runs

/-- An application whose processes have roots that are marshaled as a nil slice, an empty one
or any other. -/
def emptyStates (new : Nat) : Application Nat :=
  { counters with
    process := fun key =>
      { counters.process key with
        new := new
        marshalBinary := fun root =>
          if root = 0 then none else some (List.replicate (root - 1) 0)
        unmarshalBinary := fun _ data => data.elim 0 fun data => data.length + 1 }
    process_key := fun _ => rfl }

theorem counters_roundTrips : RoundTrips counters where
  aggregate := fun _ _ => List.length_replicate
  process := fun _ _ => List.length_replicate

theorem emptyStates_roundTrips (new : Nat) : RoundTrips (emptyStates new) where
  aggregate := counters_roundTrips.aggregate
  process := by
    intro key root
    change ((if root = 0 then none else some (List.replicate (root - 1) (0 : UInt8))).elim 0
      fun data => data.length + 1) = root
    split
    · rename_i hzero
      exact hzero.symm
    · simp
      omega

theorem emptyStates_nil {new : Nat} {key : UUID} {root : Nat}
    (h : ((emptyStates new).process key).marshalBinary root = none) : root = 0 := by
  change (if root = 0 then none else some (List.replicate (root - 1) (0 : UInt8))) = none at h
  split at h
  · assumption
  · cases h

/-- The instance `"p"` handles the first event of a stream by the given calls. -/
def invoking (stream : UInt64) (calls : List (Process.ScopeCall Nat)) : Request Nat :=
  .consume (uuid 60)
    { streamID := uuid stream
      cp := 0
      next := 1
      env := some (commandEnvelope stream)
      attempt :=
        { unpacks := true
          routing := .routed "p"
          behavior := calling calls true } }

/-- The instance `"p"` is mutated to a root that is marshaled as an empty slice, and invoked
again. -/
def savedEmpty : System Unit Nat :=
  Pool.serve (program (emptyStates 0))
    [invoking 100 [.mutate (fun _ => 1) true false], invoking 101 []] start

theorem saved_state_restored_empty :
    (∃ first second inv, savedEmpty.history = [first, second] ∧
      committedInvocation (emptyStates 0) (uuid 60) "p" second = some inv ∧ inv.root = 1) ∧
    ReplayedFrom counters countingThird.rows (uuid 50) "a" 2 := by
  have hreached : Reaches (emptyStates 0) AnyRequest start savedEmpty :=
    Pool.serve_run () (fun _ => rfl) (allAllowed_anyRequest _ _)
  have hstores : ∀ record ∈ savedEmpty.history,
      StoresState (emptyStates 0) (uuid 60) "p" record := by
    intro record hrecord
    refine storesState_of_returns ?_ fun _ => emptyStates_nil
    rintro b hbehavior ⟨fn, returns, recovers, hmem⟩
    obtain ⟨i, hi, rfl⟩ := List.getElem_of_mem hrecord
    have hlength : i < 2 := hi
    match i, hlength with
    | 0, _ =>
        cases hbehavior
        exact ⟨_, _, List.mem_singleton_self _⟩
    | 1, _ =>
        cases hbehavior
        cases hmem
  have happlied : ∀ record ∈ countingThird.history, AppliesPacked counters record.request := by
    intro record hrecord
    obtain ⟨i, hi, rfl⟩ := List.getElem_of_mem hrecord
    have hlength : i < 3 := hi
    match i, hlength with
    | 0, _ => exact True.intro
    | 1, _ => exact NoRecovery.appliesPacked (recording_noRecovery [20, 21])
    | 2, _ => exact True.intro
  refine ⟨⟨_, _, _, rfl, rfl, ?_⟩, ?_⟩
  · have hrestores :=
      (saved_state_restored (emptyStates_roundTrips 0) hreached (uuid 60) "p").2.1 hstores
    exact hrestores.second rfl rfl ⟨_, _, _, List.mem_singleton_self _⟩ rfl rfl rfl
  · have hcalled : Observation.handleCommand (uuid 50) "a" 2 ∈
        ((countingThird.sessions ()).map (·.session.trace)).getD [] := by decide
    exact (saved_state_restored counters_roundTrips countingThird_reached (uuid 50) "a").2.2
      happlied () _ _ _ 2 rfl rfl hcalled

/-- The instance `"p"` is mutated to a root that is marshaled as a nil slice, and invoked
again.  A new root is another one. -/
def savedNil : System Unit Nat :=
  Pool.serve (program (emptyStates 1))
    [invoking 100 [.mutate (fun _ => 0) true false], invoking 101 []] start

/-- The instance `"p"` recovers from a panic of the function that it passes to `Mutate`, and
is invoked again. -/
def mutatedHalfway : System Unit Nat :=
  Pool.serve (program (emptyStates 0))
    [invoking 100 [.mutate (fun _ => 7) false true], invoking 101 []] start

/-- An event that is found to be invalid has been recorded, since the handler recovers from
the panic; `HandleCommand` is called again after that. -/
def recordedInvalid : System Unit Nat :=
  Pool.leaveOpen (program counters) ()
    (.aggregateCommand (uuid 50) (finding 11) (recording [22])) 6
    (Pool.serve (program counters)
      [.executeCommand (commandEnvelope 10) 0,
        .aggregateCommand (uuid 50) (finding 10)
          { recording [] with
            records := [{ event := { messageID := uuid 20
                                     message := { typeID := uuid 2, data := [] } }
                          valid := false
                          recovers := true }] },
        .executeCommand (commandEnvelope 11) 0] start)

/-- A root that was saved as a nil slice is replaced by a new one.  The other two runs show
what becomes of mutations and events when handlers recover from panics. -/
theorem saved_state_mistaken :
    (RoundTrips (emptyStates 1) ∧ Reaches (emptyStates 1) AnyRequest start savedNil ∧
      ∃ first second saved inv, savedNil.history = [first, second] ∧
        committedInvocation (emptyStates 1) (uuid 60) "p" first = some saved ∧
        saved.scope.mutated = true ∧ saved.scope.ended = false ∧ saved.scope.root = 0 ∧
        committedInvocation (emptyStates 1) (uuid 60) "p" second = some inv ∧ inv.root = 1 ∧
        ¬ RestoresState (emptyStates 1) (uuid 60) "p" savedNil) ∧
    (Reaches (emptyStates 0) AnyRequest start mutatedHalfway ∧
      ∃ first second saved inv, mutatedHalfway.history = [first, second] ∧
        committedInvocation (emptyStates 0) (uuid 60) "p" first = some saved ∧
        saved.scope.ended = false ∧ saved.scope.root = 7 ∧
        committedInvocation (emptyStates 0) (uuid 60) "p" second = some inv ∧ inv.root = 0 ∧
        ¬ RestoresState (emptyStates 0) (uuid 60) "p" mutatedHalfway) ∧
    (Reaches counters AnyRequest start recordedInvalid ∧
      ∃ o, recordedInvalid.sessions () = some o ∧
        Observation.handleCommand (uuid 50) "a" 0 ∈ o.session.trace ∧
        ¬ ReplayedFrom counters recordedInvalid.rows (uuid 50) "a" 0) := by
  refine ⟨⟨emptyStates_roundTrips 1, ?_, ?_⟩, ⟨?_, ?_⟩, ⟨?_, ?_⟩⟩
  · exact Pool.serve_run () (fun _ => rfl) (allAllowed_anyRequest _ _)
  · refine ⟨_, _, _, _, rfl, rfl, rfl, rfl, rfl, rfl, rfl, ?_⟩
    intro hrestores
    have hroot : 1 = 0 :=
      hrestores.second rfl rfl ⟨_, _, _, List.mem_singleton_self _⟩ rfl rfl rfl
    cases hroot
  · exact Pool.serve_run () (fun _ => rfl) (allAllowed_anyRequest _ _)
  · refine ⟨_, _, _, _, rfl, rfl, rfl, rfl, rfl, rfl, ?_⟩
    intro hrestores
    have hroot : 0 = 7 :=
      hrestores.second rfl rfl ⟨_, _, _, List.mem_singleton_self _⟩ rfl rfl rfl
    cases hroot
  · exact .trans (Pool.serve_run () (fun _ => rfl) (allAllowed_anyRequest _ _))
      (Pool.leaveOpen_run () (fun _ => rfl) True.intro)
  · have hcalled : Observation.handleCommand (uuid 50) "a" 0 ∈
        ((recordedInvalid.sessions ()).map (·.session.trace)).getD [] := by decide
    refine ⟨_, rfl, hcalled, ?_⟩
    intro hreplayed
    have hroot : 0 = 1 := hreplayed.root_eq
    cases hroot

end Runkit.Engine
