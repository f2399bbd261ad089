/-
  Process/Instance.lean --- the state of process instances, and the scope that
  handlers are given.

  Source: internal/process/instancestate.go, messagescope.go and commandqueue.go.
-/
import Runkit.Application
import Runkit.MessagePump
import Runkit.Schema.Rely

set_option autoImplicit false

namespace Runkit.Process

open Runkit.Foundation Runkit.Schema Runkit.Schema.Stmt Runkit.MessagePump

variable {ρ E : Type}

/-! ## The message scope -/

/-- A call of a method of `messageScope`, with what is not decided by the engine:
whether the message is valid, what is done to the root, and whether the handler
recovers if the call panics. -/
inductive ScopeCall (ρ : Type) where
  | mutate (fn : ρ → ρ) (returns recovers : Bool)
  | end_
  | executeCommand (command : Effect) (valid recovers : Bool)
  | scheduleDeadline (deadline : Effect) (t : Time) (valid recovers : Bool)

/-- The parts of `messageScope` that change. -/
structure Scope (ρ : Type) where
  root : ρ
  mutated : Bool
  ended : Bool
  commands : List Envelope
  deadlines : List Envelope

/-- The scope that a handler is given. -/
def Scope.start (root : ρ) : Scope ρ where
  root := root
  mutated := false
  ended := false
  commands := []
  deadlines := []

/-- Whether the handler recovers if the call panics. -/
def ScopeCall.recovers : ScopeCall ρ → Bool
  | .mutate _ _ recovers => recovers
  | .end_ => false
  | .executeCommand _ _ recovers => recovers
  | .scheduleDeadline _ _ _ recovers => recovers

/-- `messageScope.Mutate`.  If `fn` panics, what it did to the root before that
remains. -/
def mutate (fn : ρ → ρ) (returns : Bool) (scope : Scope ρ) : Scope ρ × Bool :=
  if scope.ended then
    (scope, true)
  else if !returns then
    ({ scope with root := fn scope.root }, true)
  else
    ({ scope with root := fn scope.root, mutated := true }, false)

/-- `messageScope.ExecuteCommand`. -/
def executeCommand (h : ProcessHandler ρ) (cause : Envelope) (instanceID : String)
    (command : Effect) (valid : Bool) (scope : Scope ρ) : Scope ρ × Bool :=
  if scope.ended then
    (scope, true)
  else if command.message.typeID ∉ h.outboundMessageTypes then
    (scope, true)
  else
    let env := h.packer.packEffect cause h.key instanceID command
    ({ scope with commands := scope.commands ++ [env] }, !valid)

/-- `messageScope.ScheduleDeadline`. -/
def scheduleDeadline (h : ProcessHandler ρ) (cause : Envelope) (instanceID : String)
    (deadline : Effect) (t : Time) (valid : Bool) (scope : Scope ρ) : Scope ρ × Bool :=
  if scope.ended then
    (scope, true)
  else if deadline.message.typeID ∉ h.outboundMessageTypes then
    (scope, true)
  else
    ({ scope with
        deadlines := scope.deadlines ++ [h.packer.packDeadline cause h.key instanceID deadline t] },
      !valid)

/-- A call of a method of `messageScope`.  The second component says whether it
panics. -/
def callScope (h : ProcessHandler ρ) (cause : Envelope) (instanceID : String) :
    ScopeCall ρ → Scope ρ → Scope ρ × Bool
  | .mutate fn returns _, scope => mutate fn returns scope
  | .end_, scope => ({ scope with ended := true }, false)
  | .executeCommand command valid _, scope =>
      executeCommand h cause instanceID command valid scope
  | .scheduleDeadline deadline t valid _, scope =>
      scheduleDeadline h cause instanceID deadline t valid scope

/-- The calls that a handler makes, or `none` if it panics. -/
def callEach (h : ProcessHandler ρ) (cause : Envelope) (instanceID : String) :
    List (ScopeCall ρ) → Scope ρ → Option (Scope ρ)
  | [], scope => some scope
  | call :: rest, scope =>
      match callScope h cause instanceID call scope with
      | (scope, false) => callEach h cause instanceID rest scope
      | (scope, true) =>
          if call.recovers then callEach h cause instanceID rest scope else none

/-- The message IDs that are generated by a call. -/
def ScopeCall.generated : ScopeCall ρ → List UUID
  | .mutate _ _ _ => []
  | .end_ => []
  | .executeCommand command _ _ => [command.messageID]
  | .scheduleDeadline deadline _ _ _ => [deadline.messageID]

/-- Every message in the scope was packed by the scope's packers, with one of
the given IDs. -/
structure Scope.PackedBy (h : ProcessHandler ρ) (cause : Envelope) (instanceID : String)
    (ids : List UUID) (scope : Scope ρ) : Prop where
  commands : ∀ env ∈ scope.commands, ∃ effect, effect.messageID ∈ ids ∧
    env = h.packer.packEffect cause h.key instanceID effect
  deadlines : ∀ env ∈ scope.deadlines, ∃ effect t, effect.messageID ∈ ids ∧
    env = h.packer.packDeadline cause h.key instanceID effect t

theorem Scope.PackedBy.start {h : ProcessHandler ρ} {cause : Envelope} {instanceID : String}
    {ids : List UUID} (root : ρ) : (Scope.start root).PackedBy h cause instanceID ids where
  commands := by intro env henv; cases henv
  deadlines := by intro env henv; cases henv

theorem Scope.PackedBy.call {h : ProcessHandler ρ} {cause : Envelope} {instanceID : String}
    {ids : List UUID} {call : ScopeCall ρ} {scope : Scope ρ}
    (hscope : scope.PackedBy h cause instanceID ids) (hids : ∀ id ∈ call.generated, id ∈ ids) :
    (callScope h cause instanceID call scope).1.PackedBy h cause instanceID ids := by
  cases call with
  | mutate fn returns recovers =>
      simp only [callScope, mutate]
      split_ifs <;> exact ⟨hscope.commands, hscope.deadlines⟩
  | end_ => exact ⟨hscope.commands, hscope.deadlines⟩
  | executeCommand command valid recovers =>
      simp only [callScope, executeCommand]
      split
      · exact hscope
      split
      · exact hscope
      · refine ⟨?_, hscope.deadlines⟩
        intro env henv
        obtain henv | henv := List.mem_append.mp henv
        · exact hscope.commands env henv
        · exact ⟨command, hids _ List.mem_cons_self, List.mem_singleton.mp henv⟩
  | scheduleDeadline deadline t valid recovers =>
      simp only [callScope, scheduleDeadline]
      split
      · exact hscope
      split
      · exact hscope
      · refine ⟨hscope.commands, ?_⟩
        intro env henv
        obtain henv | henv := List.mem_append.mp henv
        · exact hscope.deadlines env henv
        · exact ⟨deadline, t, hids _ List.mem_cons_self, List.mem_singleton.mp henv⟩

theorem Scope.PackedBy.callEach {h : ProcessHandler ρ} {cause : Envelope} {instanceID : String}
    {ids : List UUID} {calls : List (ScopeCall ρ)} {scope scope' : Scope ρ}
    (hscope : scope.PackedBy h cause instanceID ids)
    (hids : ∀ call ∈ calls, ∀ id ∈ call.generated, id ∈ ids)
    (hcalls : callEach h cause instanceID calls scope = some scope') :
    scope'.PackedBy h cause instanceID ids := by
  induction calls generalizing scope with
  | nil =>
      cases hcalls
      exact hscope
  | cons call rest ih =>
      have hcall := hscope.call (hids call List.mem_cons_self)
      have hrest : ∀ call ∈ rest, ∀ id ∈ call.generated, id ∈ ids :=
        fun call hmem => hids call (List.mem_cons_of_mem _ hmem)
      unfold Process.callEach at hcalls
      split at hcalls
      · rename_i next hnext
        rw [hnext] at hcall
        exact ih hcall hrest hcalls
      · rename_i next hnext
        rw [hnext] at hcall
        split at hcalls
        · exact ih hcall hrest hcalls
        · cases hcalls

section Packed

variable {h : ProcessHandler ρ} {cause env : Envelope} {instanceID : String} {ids : List UUID}
  {scope : Scope ρ}

theorem Scope.PackedBy.command_keyless (hpacked : scope.PackedBy h cause instanceID ids)
    (henv : env ∈ scope.commands) : env.body.idempotencyKey = "" := by
  obtain ⟨effect, -, rfl⟩ := hpacked.commands env henv
  exact h.packer.packEffect_idempotencyKey ..

theorem Scope.PackedBy.command_generated (hpacked : scope.PackedBy h cause instanceID ids)
    (henv : env ∈ scope.commands) : env.body.messageID ∈ ids := by
  obtain ⟨effect, hid, rfl⟩ := hpacked.commands env henv
  rwa [Packer.packEffect_messageID]

theorem Scope.PackedBy.deadline_generated (hpacked : scope.PackedBy h cause instanceID ids)
    (henv : env ∈ scope.deadlines) : env.body.messageID ∈ ids := by
  obtain ⟨effect, t, hid, rfl⟩ := hpacked.deadlines env henv
  rwa [Packer.packDeadline_messageID]

/-- A deadline is one of the instance that schedules it. -/
theorem Scope.PackedBy.deadline_source (hpacked : scope.PackedBy h cause instanceID ids)
    (henv : env ∈ scope.deadlines) :
    env.header.handlerKey = h.key ∧ env.header.instanceID = instanceID := by
  obtain ⟨effect, t, -, rfl⟩ := hpacked.deadlines env henv
  rw [Packer.packDeadline_header, Packer.handlerKey_eq, Packer.instanceID_eq]
  exact ⟨rfl, rfl⟩

end Packed

/-- What is not decided by the engine while a message is handled by an instance:
whether each call into the application's code succeeds, and what the handler
does with its scope. -/
structure Behavior (ρ : Type) where
  /-- `New()` returns. -/
  constructs : Bool
  /-- `UnmarshalBinary()` succeeds. -/
  unmarshals : Bool
  /-- What `HandleEvent()` or `HandleDeadline()` does with its scope. -/
  calls : List (ScopeCall ρ)
  /-- It returns without an error. -/
  returns : Bool
  /-- `MarshalBinary()` succeeds. -/
  marshals : Bool
  /-- The database's clock when commands are added to the queue. -/
  now : Time

/-- What the handler leaves in its scope, or `none` if it fails. -/
def handleMessage (h : ProcessHandler ρ) (b : Behavior ρ) (cause : Envelope)
    (instanceID : String) (root : ρ) : Option (Scope ρ) :=
  match callEach h cause instanceID b.calls (Scope.start root) with
  | none => none
  | some scope => if b.returns then some scope else none

/-- The message IDs that are generated while a message is handled. -/
def Behavior.generated (b : Behavior ρ) : List UUID := b.calls.flatMap ScopeCall.generated

theorem handleMessage_packedBy {h : ProcessHandler ρ} {b : Behavior ρ} {cause : Envelope}
    {instanceID : String} {root : ρ} {scope : Scope ρ}
    (hscope : handleMessage h b cause instanceID root = some scope) :
    scope.PackedBy h cause instanceID b.generated := by
  unfold handleMessage at hscope
  split at hscope
  · cases hscope
  · rename_i scope' hcalls
    split at hscope
    · cases hscope
      refine (Scope.PackedBy.start root).callEach ?_ hcalls
      intro call hcall id hid
      exact List.mem_flatMap.mpr ⟨call, hcall, hid⟩
    · cases hscope

/-- A scope that has been ended stays ended. -/
theorem callScope_ended {h : ProcessHandler ρ} {cause : Envelope} {instanceID : String}
    {call : ScopeCall ρ} {scope : Scope ρ} (hended : scope.ended = true) :
    (callScope h cause instanceID call scope).1.ended = true := by
  cases call with
  | mutate fn returns recovers => simp [callScope, mutate, hended]
  | end_ => rfl
  | executeCommand command valid recovers => simp [callScope, executeCommand, hended]
  | scheduleDeadline deadline t valid recovers => simp [callScope, scheduleDeadline, hended]

theorem callEach_ended {h : ProcessHandler ρ} {cause : Envelope} {instanceID : String}
    {calls : List (ScopeCall ρ)} {scope scope' : Scope ρ}
    (hended : scope.ended = true ∨ ScopeCall.end_ ∈ calls)
    (hcalls : callEach h cause instanceID calls scope = some scope') :
    scope'.ended = true := by
  induction calls generalizing scope with
  | nil =>
      cases hcalls
      simpa using hended
  | cons call rest ih =>
      have hnext : (callScope h cause instanceID call scope).1.ended = true ∨
          ScopeCall.end_ ∈ rest := by
        obtain hended | hended := hended
        · exact Or.inl (callScope_ended hended)
        · obtain rfl | hrest := List.mem_cons.mp hended
          · exact Or.inl rfl
          · exact Or.inr hrest
      unfold callEach at hcalls
      split at hcalls
      · rename_i next hcall
        rw [hcall] at hnext
        exact ih hnext hcalls
      · rename_i next hcall
        rw [hcall] at hnext
        split at hcalls
        · exact ih hnext hcalls
        · cases hcalls

/-- A handler that calls `End` and succeeds leaves a scope that has been ended. -/
theorem handleMessage_ended {h : ProcessHandler ρ} {b : Behavior ρ} {cause : Envelope}
    {instanceID : String} {root : ρ} {scope : Scope ρ} (hend : ScopeCall.end_ ∈ b.calls)
    (hscope : handleMessage h b cause instanceID root = some scope) : scope.ended = true := by
  unfold handleMessage at hscope
  split at hscope
  · cases hscope
  · rename_i scope' hcalls
    split at hscope
    · cases hscope
      exact callEach_ended (Or.inr hend) hcalls
    · cases hscope

/-! ## Instance state -/

/-- `newRoot`. -/
def newRoot (h : ProcessHandler ρ) (b : Behavior ρ) : Stmt E ρ :=
  if b.constructs then return h.new else throw .failed

/-- The row that is inserted by `loadInstance`. -/
def newInstanceRow : ProcessInstanceRow where
  ended := false
  state := none

/-- The upsert in `loadInstance`. -/
def upsertInstance (handlerKey : UUID) (instanceID : String) : Stmt E ProcessInstanceRow := do
  match ← lock (.processInstance handlerKey instanceID) with
  | some row => return row
  | none =>
      write (.processInstance handlerKey instanceID) (some newInstanceRow)
      return newInstanceRow

/-- The part of `loadInstance` that follows the upsert. -/
def restoreState (h : ProcessHandler ρ) (b : Behavior ρ) (row : ProcessInstanceRow) (root : ρ) :
    Stmt E (Option ρ) :=
  if row.ended then
    return none
  else
    match row.state with
    | none => return some root
    | some state =>
        if b.unmarshals then
          return some (h.unmarshalBinary root (some state))
        else
          throw .failed

/-- `loadInstance`, which returns `none` if the instance has ended. -/
def loadInstance (h : ProcessHandler ρ) (b : Behavior ρ) (instanceID : String) (root : ρ) :
    Stmt E (Option ρ) := do
  let row ← upsertInstance h.key instanceID
  restoreState h b row root

/-- An UPDATE of one row of `process.instances` by `xsql.ExecOne`. -/
def updateInstance (handlerKey : UUID) (instanceID : String)
    (update : ProcessInstanceRow → ProcessInstanceRow) : Stmt E Unit := do
  match ← lock (.processInstance handlerKey instanceID) with
  | none => abort
  | some row => write (.processInstance handlerKey instanceID) (some (update row))

/-- `saveInstance`. -/
def saveInstance (h : ProcessHandler ρ) (b : Behavior ρ) (instanceID : String) (root : ρ) :
    Stmt E Unit :=
  if b.marshals then
    updateInstance h.key instanceID fun row => { row with state := h.marshalBinary root }
  else
    throw .failed

/-- The rows that `endInstance` deletes. -/
def isDeadlineOf (handlerKey : UUID) (instanceID : String) : (k : Key) → Row k → Bool
  | .deadline _, row => belongsTo handlerKey instanceID row
  | _, _ => false

/-- The row after a deadline is deleted. -/
def deleteRow : (k : Key) → Row k → Row k
  | .deadline _, _ => none
  | _, row => row

/-- `endInstance`. -/
def endInstance (handlerKey : UUID) (instanceID : String) : Stmt E Unit := do
  updateInstance handlerKey instanceID fun row => { row with ended := true, state := none }
  sweep (isDeadlineOf handlerKey instanceID) deleteRow

/-- `addCommandsToQueue`. -/
def addCommandsToQueue (now : Time) : List Envelope → Stmt E Unit
  | [] => return
  | env :: rest => do
      let _ ← CommandQueue.add env now
      addCommandsToQueue now rest

/-- The row that `persistDeadlines` inserts.  The time that the deadline is scheduled for is
rounded to microseconds when it is stored; see `Time`. -/
def newDeadlineRow (env : Envelope) : DeadlineRow where
  messageTypeID := env.typeID
  handlerKey := env.header.handlerKey
  instanceID := env.header.instanceID
  envelope := env
  failures := 0
  deliverAt := env.body.scheduledFor

/-- `persistDeadlines`. -/
def persistDeadlines : List Envelope → Stmt E Unit
  | [] => return
  | env :: rest => do
      match ← lock (.deadline env.body.messageID) with
      | some _ => abort
      | none =>
          write (.deadline env.body.messageID) (some (newDeadlineRow env))
          persistDeadlines rest

/-- The save and the persisting of deadlines, which `HandleDelivery` and
`dispatch` do unless the instance has ended. -/
def saveScope (h : ProcessHandler ρ) (b : Behavior ρ) (instanceID : String) (scope : Scope ρ) :
    Stmt E Unit := do
  if scope.mutated then
    saveInstance h b instanceID scope.root
    persistDeadlines scope.deadlines
  else
    persistDeadlines scope.deadlines

end Runkit.Process
