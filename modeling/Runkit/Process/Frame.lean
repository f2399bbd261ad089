/-
  Process/Frame.lean --- what the transactions of process handlers leave alone.
-/
import Runkit.Process.Commit

set_option autoImplicit false

namespace Runkit.Process

open Runkit.Foundation Runkit.Schema Runkit.Schema.Stmt Runkit.MessagePump

variable {ρ : Type}

/-- The key is not one of a table that process handlers write to, except for
that of checkpoints. -/
structure Foreign (k : Key) : Prop where
  command : ∀ messageID, k ≠ .command messageID
  deadline : ∀ messageID, k ≠ .deadline messageID
  instance_ : ∀ handlerKey instanceID, k ≠ .processInstance handlerKey instanceID

theorem Foreign.stream (id : UUID) : Foreign (.stream id) :=
  ⟨by simp, by simp, by simp⟩

theorem Foreign.aggregateInstance (handlerKey : UUID) (instanceID : String) :
    Foreign (.aggregateInstance handlerKey instanceID) :=
  ⟨by simp, by simp, by simp⟩

theorem Foreign.handlerCheckpoint (handlerKey streamID : UUID) :
    Foreign (.handlerCheckpoint handlerKey streamID) :=
  ⟨by simp, by simp, by simp⟩

section Frames

variable {h : ProcessHandler ρ} {b : Behavior ρ} {cause : Envelope} {before after : Database}
  {k : Key}

theorem withInstance_of_ne {handlerKey : UUID} {instanceID : String} {row : ProcessInstanceRow}
    {db : Database} (hk : k ≠ .processInstance handlerKey instanceID) :
    withInstance handlerKey instanceID row db k = db k :=
  Function.update_of_ne hk _ _

theorem withCheckpoint_of_ne {handlerKey streamID : UUID} {offset : Nat} {db : Database}
    (hk : k ≠ .handlerCheckpoint handlerKey streamID) :
    withCheckpoint handlerKey streamID offset db k = db k :=
  Function.update_of_ne hk _ _

theorem applyScope_frame {instanceID : String} {row : ProcessInstanceRow} {scope : Scope ρ}
    (hk : Foreign k) :
    applyScope h b instanceID row scope (withInstance h.key instanceID row before) k =
      before k := by
  rw [applyScope_of_ne hk.command hk.deadline (hk.instance_ _ _),
    withInstance_of_ne (hk.instance_ _ _)]

theorem DeadlineCompletes.frame {messageID : UUID}
    (hcompletes : DeadlineCompletes h b messageID cause before after) (hk : Foreign k) :
    after k = before k := by
  cases hcompletes with
  | ended _ _ => exact applyScope_frame hk
  | saved _ _ _ _ _ =>
      rw [Function.update_of_ne (hk.deadline _)]
      exact applyScope_frame hk

theorem DeadlineLeaves.frame {left : Database} (hleaves : DeadlineLeaves h b cause before left)
    (hk : Foreign k) : left k = before k := by
  cases hleaves with
  | failed => rfl
  | loaded _ => exact withInstance_of_ne (hk.instance_ _ _)
  | unsaved _ _ _ _ =>
      rw [withCommands_of_ne hk.command]
      exact withInstance_of_ne (hk.instance_ _ _)

theorem DeadlineCommitted.frame {c : Circumstances} {a : DeadlineAttempt ρ}
    {locks : Key → Bool} {o : Outcome}
    (hcommitted : DeadlineCommitted h c a before locks o after) (hk : Foreign k) :
    after k = before k := by
  cases hcommitted with
  | idle => rfl
  | unreadable _ => exact Function.update_of_ne (hk.deadline _) _ _
  | delivered _ hcompletes _ => exact hcompletes.frame hk
  | failed _ hleaves =>
      rw [Function.update_of_ne (hk.deadline _)]
      exact hleaves.frame hk

theorem Consumed.frame {call : ConsumeCall ρ} {locks : Key → Bool} {actual : Nat}
    {trace : List (Observation ρ)}
    (hconsumed : Consumed h call before locks actual trace after) (hk : Foreign k)
    (hcheckpoint : k ≠ .handlerCheckpoint h.key call.streamID) : after k = before k := by
  cases hconsumed with
  | conflict _ _ => exact withCheckpoint_of_ne hcheckpoint
  | skipped _ _ => exact withCheckpoint_of_ne hcheckpoint
  | dispatched _ _ hdispatched =>
      rw [withCheckpoint_of_ne hcheckpoint]
      cases hdispatched with
      | unrouted => exact withCheckpoint_of_ne hcheckpoint
      | ended _ _ _ => exact withCheckpoint_of_ne hcheckpoint
      | handled _ _ _ _ _ _ =>
          rw [applyScope_frame hk]
          exact withCheckpoint_of_ne hcheckpoint

/-- Adding commands to the queue keeps those that are in it. -/
theorem withCommands_keptOrAdded {now : Time} {envs : List Envelope} {db : Database}
    (hfresh : ∀ env ∈ envs, before (.command env.body.messageID) = none)
    (hdistinct : (envs.map (·.body.messageID)).Nodup) {messageID : UUID}
    (hdb : db (.command messageID) = before (.command messageID)) :
    CommandQueue.KeptOrAdded messageID (before (.command messageID))
      (withCommands now envs db (.command messageID)) := by
  by_cases hmem : ∃ env ∈ envs, env.body.messageID = messageID
  · obtain ⟨env, henv, rfl⟩ := hmem
    rw [withCommands_of_mem henv hdistinct]
    exact .added rfl (hfresh env henv)
  · rw [withCommands_of_not_mem fun env henv heq => hmem ⟨env, henv, heq⟩, hdb]
    exact .kept

theorem Invoked.command {instanceID : String} {row : ProcessInstanceRow} {scope : Scope ρ}
    (hinvoked : Invoked h b cause instanceID before row scope) (messageID : UUID) :
    CommandQueue.KeptOrAdded messageID (before (.command messageID))
      (applyScope h b instanceID row scope (withInstance h.key instanceID row before)
        (.command messageID)) := by
  rw [applyScope_command]
  exact withCommands_keptOrAdded hinvoked.fresh hinvoked.distinct
    (withInstance_of_ne (by simp))

/-- A transaction of the deadline pump does not remove commands. -/
theorem DeadlineCommitted.command {c : Circumstances} {a : DeadlineAttempt ρ}
    {locks : Key → Bool} {o : Outcome}
    (hcommitted : DeadlineCommitted h c a before locks o after) (messageID : UUID) :
    CommandQueue.KeptOrAdded messageID (before (.command messageID))
      (after (.command messageID)) := by
  cases hcommitted with
  | idle => exact .kept
  | unreadable _ =>
      rw [Function.update_of_ne (by simp)]
      exact .kept
  | delivered _ hcompletes _ =>
      cases hcompletes with
      | ended hinvoked _ => exact hinvoked.command messageID
      | saved hinvoked _ _ _ _ =>
          rw [Function.update_of_ne (by simp)]
          exact hinvoked.command messageID
  | failed _ hleaves =>
      rw [Function.update_of_ne (by simp)]
      cases hleaves with
      | failed => exact .kept
      | loaded _ =>
          rw [withInstance_of_ne (by simp)]
          exact .kept
      | unsaved hinvoked _ _ _ =>
          exact withCommands_keptOrAdded hinvoked.fresh hinvoked.distinct
            (withInstance_of_ne (by simp))

/-- A transaction of a sink does not remove commands. -/
theorem Consumed.command {call : ConsumeCall ρ} {locks : Key → Bool} {actual : Nat}
    {trace : List (Observation ρ)}
    (hconsumed : Consumed h call before locks actual trace after) (messageID : UUID) :
    CommandQueue.KeptOrAdded messageID (before (.command messageID))
      (after (.command messageID)) := by
  cases hconsumed with
  | conflict _ _ =>
      rw [withCheckpoint_of_ne (by simp)]
      exact .kept
  | skipped _ _ =>
      rw [withCheckpoint_of_ne (by simp)]
      exact .kept
  | dispatched _ _ hdispatched =>
      rw [withCheckpoint_of_ne (by simp)]
      cases hdispatched with
      | unrouted =>
          rw [withCheckpoint_of_ne (by simp)]
          exact .kept
      | ended _ _ _ =>
          rw [withCheckpoint_of_ne (by simp)]
          exact .kept
      | handled _ hinvoked _ _ _ _ =>
          have hcommand := hinvoked.command messageID
          rwa [withCheckpoint_of_ne (by simp)] at hcommand

theorem applyScope_frame_belongsTo {instanceID : String} {row : ProcessInstanceRow}
    {scope : Scope ρ} {messageID handlerKey : UUID} {other : String}
    (hinvoked : Invoked h b cause instanceID before row scope)
    (hfresh : scope.ended = false →
      ∀ env ∈ scope.deadlines, before (.deadline env.body.messageID) = none)
    (hdistinct : scope.ended = false → (scope.deadlines.map (·.body.messageID)).Nodup)
    (hother : ¬ (h.key = handlerKey ∧ instanceID = other)) :
    belongsTo handlerKey other (applyScope h b instanceID row scope
        (withInstance h.key instanceID row before) (.deadline messageID)) =
      belongsTo handlerKey other (before (.deadline messageID)) := by
  rw [applyScope_belongsTo (handleMessage_packedBy hinvoked.scope_eq) ?_ hdistinct hother,
    withInstance_of_ne (by simp)]
  intro hended env henv
  rw [withInstance_of_ne (by simp)]
  exact hfresh hended env henv

/-- A transaction of the deadline pump does not change which deadlines belong to
an instance that it has not locked. -/
theorem DeadlineCommitted.belongsTo {c : Circumstances} {a : DeadlineAttempt ρ}
    {locks : Key → Bool} {o : Outcome} {messageID handlerKey : UUID} {instanceID : String}
    (hcommitted : DeadlineCommitted h c a before locks o after)
    (hlock : locks (.processInstance handlerKey instanceID) = false) :
    belongsTo handlerKey instanceID (after (.deadline messageID)) =
      belongsTo handlerKey instanceID (before (.deadline messageID)) := by
  have hpostponed : ∀ {acquiredID : UUID} {row : DeadlineRow} {failures : Nat} {t : Time}
      {left : Database}, before (.deadline acquiredID) = some row →
      left (.deadline messageID) = before (.deadline messageID) →
      Schema.belongsTo handlerKey instanceID (Function.update left (.deadline acquiredID)
          (some (postponedDeadline row failures t)) (.deadline messageID)) =
        Schema.belongsTo handlerKey instanceID (before (.deadline messageID)) := by
    intro acquiredID row failures t left hrow hleft
    by_cases hid : messageID = acquiredID
    · subst hid
      rw [Function.update_self, hrow]
      rfl
    · rw [Function.update_of_ne (by simpa using hid), hleft]
  cases hcommitted with
  | idle => rfl
  | unreadable hacquired => exact hpostponed hacquired.row_eq rfl
  | failed hacquired hleaves =>
      exact hpostponed hacquired.row_eq (hleaves.deadline messageID)
  | @delivered acquiredID row _ hacquired hcompletes hlocked =>
      have hother : ¬ (h.key = handlerKey ∧ row.envelope.header.instanceID = instanceID) := by
        rintro ⟨rfl, rfl⟩
        rw [hlocked] at hlock
        cases hlock
      cases hcompletes with
      | ended hinvoked hended =>
          exact applyScope_frame_belongsTo hinvoked (by simp [hended]) (by simp [hended]) hother
      | saved hinvoked hended hmarshals hfresh hdistinct =>
          by_cases hid : messageID = acquiredID
          · subst hid
            have hnotMine : ¬ (row.handlerKey = handlerKey ∧ row.instanceID = instanceID) := by
              rintro ⟨rfl, rfl⟩
              rw [hacquired.instance_locked] at hlock
              cases hlock
            rw [Function.update_self, hacquired.row_eq]
            simp [Schema.belongsTo, hnotMine]
          · rw [Function.update_of_ne (by simpa using hid)]
            exact applyScope_frame_belongsTo hinvoked (fun _ => hfresh) (fun _ => hdistinct)
              hother

/-- A transaction of a sink does not change which deadlines belong to an
instance that it has not locked. -/
theorem Consumed.belongsTo {call : ConsumeCall ρ} {locks : Key → Bool} {actual : Nat}
    {trace : List (Observation ρ)} {messageID handlerKey : UUID} {instanceID : String}
    (hconsumed : Consumed h call before locks actual trace after)
    (hlock : locks (.processInstance handlerKey instanceID) = false) :
    belongsTo handlerKey instanceID (after (.deadline messageID)) =
      belongsTo handlerKey instanceID (before (.deadline messageID)) := by
  cases hconsumed with
  | conflict _ _ => rw [withCheckpoint_of_ne (by simp)]
  | skipped _ _ => rw [withCheckpoint_of_ne (by simp)]
  | dispatched _ _ hdispatched =>
      rw [withCheckpoint_of_ne (by simp)]
      cases hdispatched with
      | unrouted => rw [withCheckpoint_of_ne (by simp)]
      | ended _ _ _ => rw [withCheckpoint_of_ne (by simp)]
      | @handled routed row scope _ hinvoked hlocked _ hfresh hdistinct =>
          have hother : ¬ (h.key = handlerKey ∧ routed = instanceID) := by
            rintro ⟨rfl, rfl⟩
            rw [hlocked] at hlock
            cases hlock
          rw [applyScope_frame_belongsTo hinvoked hfresh hdistinct hother,
            withCheckpoint_of_ne (by simp)]

end Frames

end Runkit.Process
