/-
  Process/Observe.lean --- the root that `HandleEvent` and `HandleDeadline` are
  called with.

  `deadlinePump_notes` and `consume_notes` hold of transactions that are still
  open, and of those that are rolled back later.
-/
import Runkit.Process.Commit

set_option autoImplicit false

namespace Runkit.Process

open Runkit.Foundation Runkit.Schema Runkit.Schema.Stmt Runkit.MessagePump

variable {ρ E : Type}

/-! ## Programs that emit nothing -/

theorem add_silent {env : Envelope} {now : Time} :
    Silent (E := E) (CommandQueue.add env now) := by
  have hinsert : Silent (E := E) (CommandQueue.insert env now) := by
    unfold CommandQueue.insert
    refine Tx.Emits.except_bind Tx.emits_lock ?_
    intro row
    split
    · exact Tx.emits_abort
    · exact Tx.Emits.except_bind Tx.emits_write fun _ => Tx.emits_ok
  unfold CommandQueue.add
  split
  swap
  · exact hinsert
  refine Tx.Emits.except_bind Tx.emits_lock ?_
  intro original
  split
  · exact Tx.emits_ok
  refine Tx.Emits.except_bind Tx.emits_lock ?_
  intro key
  split
  · exact Tx.emits_abort
  · exact Tx.Emits.except_bind Tx.emits_write fun _ =>
      Tx.Emits.except_bind Tx.emits_write fun _ => hinsert

theorem addCommandsToQueue_silent {now : Time} {envs : List Envelope} :
    Silent (E := E) (addCommandsToQueue now envs) := by
  induction envs with
  | nil => exact Tx.emits_ok
  | cons env rest ih =>
      unfold addCommandsToQueue
      exact Tx.Emits.except_bind add_silent fun _ => ih

theorem persistDeadlines_silent {envs : List Envelope} :
    Silent (E := E) (persistDeadlines envs) := by
  induction envs with
  | nil => exact Tx.emits_ok
  | cons env rest ih =>
      unfold persistDeadlines
      refine Tx.Emits.except_bind Tx.emits_lock ?_
      intro row
      split
      · exact Tx.emits_abort
      · exact Tx.Emits.except_bind Tx.emits_write fun _ => ih

theorem updateInstance_silent {handlerKey : UUID} {instanceID : String}
    {update : ProcessInstanceRow → ProcessInstanceRow} :
    Silent (E := E) (updateInstance handlerKey instanceID update) := by
  unfold updateInstance
  refine Tx.Emits.except_bind Tx.emits_lock ?_
  intro row
  split
  · exact Tx.emits_abort
  · exact Tx.emits_write

theorem endInstance_silent {handlerKey : UUID} {instanceID : String} :
    Silent (E := E) (endInstance handlerKey instanceID) := by
  unfold endInstance
  exact Tx.Emits.except_bind updateInstance_silent fun _ => Tx.emits_sweep

theorem saveScope_silent {h : ProcessHandler ρ} {b : Behavior ρ} {instanceID : String}
    {scope : Scope ρ} : Silent (E := E) (saveScope h b instanceID scope) := by
  have hsave : ∀ root, Silent (E := E) (saveInstance h b instanceID root) := by
    intro root
    unfold saveInstance
    split
    · exact updateInstance_silent
    · exact Tx.emits_throw
  unfold saveScope
  split
  · exact Tx.Emits.except_bind (hsave _) fun _ => persistDeadlines_silent
  · exact persistDeadlines_silent

theorem deleteDeadline_silent {messageID : UUID} : Silent (E := E) (deleteDeadline messageID) := by
  unfold deleteDeadline
  refine Tx.Emits.except_bind Tx.emits_lock ?_
  intro row
  split
  · exact Tx.emits_abort
  · exact Tx.emits_write

theorem completeDeadline_silent {h : ProcessHandler ρ} {b : Behavior ρ} {messageID : UUID}
    {instanceID : String} {scope : Scope ρ} :
    Silent (E := E) (completeDeadline h b messageID instanceID scope) := by
  unfold completeDeadline
  refine Tx.Emits.except_bind addCommandsToQueue_silent ?_
  intro _
  split
  · exact endInstance_silent
  · exact Tx.Emits.except_bind saveScope_silent fun _ => deleteDeadline_silent

theorem completeEvent_silent {h : ProcessHandler ρ} {b : Behavior ρ} {instanceID : String}
    {scope : Scope ρ} : Silent (E := E) (completeEvent h b instanceID scope) := by
  unfold completeEvent
  refine Tx.Emits.except_bind addCommandsToQueue_silent ?_
  intro _
  split
  · exact endInstance_silent
  · exact saveScope_silent

theorem newRoot_silent {h : ProcessHandler ρ} {b : Behavior ρ} :
    Silent (E := E) (newRoot h b) := by
  unfold newRoot
  split
  · exact Tx.emits_ok
  · exact Tx.emits_throw

theorem loadInstance_silent {h : ProcessHandler ρ} {b : Behavior ρ} {instanceID : String}
    {root : ρ} : Silent (E := E) (loadInstance h b instanceID root) := by
  have hupsert : Silent (E := E) (upsertInstance h.key instanceID) := by
    unfold upsertInstance
    refine Tx.Emits.except_bind Tx.emits_lock ?_
    intro row
    split
    · exact Tx.emits_ok
    · exact Tx.Emits.except_bind Tx.emits_write fun _ => Tx.emits_ok
  unfold loadInstance
  refine Tx.Emits.except_bind hupsert ?_
  intro row
  unfold restoreState
  split
  · exact Tx.emits_ok
  · split
    · exact Tx.emits_ok
    · split
      · exact Tx.emits_ok
      · exact Tx.emits_throw

theorem acquireDelivery_silent {h : ProcessHandler ρ} {now : Time} {visited : List UUID} :
    Silent (E := E) (acquireDelivery h now visited) := by
  induction visited with
  | nil => exact Tx.emits_ok
  | cons messageID rest ih =>
      unfold acquireDelivery
      refine Tx.Emits.except_bind Tx.emits_tryLock ?_
      intro row
      split
      · refine Tx.Emits.except_bind Tx.emits_tryLock ?_
        intro instance_
        split
        · exact Tx.emits_ok
        · exact ih
      · exact ih

theorem postponeDelivery_silent {now : Time} {del : Delivery} {delay : Int} :
    Silent (E := E) (postponeDelivery now del delay) := by
  unfold postponeDelivery
  refine Tx.Emits.except_bind Tx.emits_lock ?_
  intro row
  split
  · exact Tx.emits_abort
  · exact Tx.emits_write

theorem routeEventToInstance_silent {a : EventAttempt ρ} :
    Silent (E := E) (routeEventToInstance a) := by
  unfold routeEventToInstance
  split
  · exact Tx.emits_abort
  · exact Tx.emits_ok
  · split
    · exact Tx.emits_abort
    · exact Tx.emits_ok

theorem upsertCheckpoint_silent {handlerKey streamID : UUID} :
    Silent (E := E) (upsertCheckpoint handlerKey streamID) := by
  unfold upsertCheckpoint
  refine Tx.Emits.except_bind Tx.emits_lock ?_
  intro row
  split
  · exact Tx.emits_ok
  · exact Tx.Emits.except_bind Tx.emits_write fun _ => Tx.emits_ok

theorem updateCheckpoint_silent {handlerKey streamID : UUID} {next : Nat} :
    Silent (E := E) (updateCheckpoint handlerKey streamID next) := by
  unfold updateCheckpoint
  refine Tx.Emits.except_bind Tx.emits_lock ?_
  intro row
  split
  · exact Tx.emits_abort
  · exact Tx.emits_write

/-! ## Handling -/

/-- What is known of a transaction that has called a handler: it has locked the
instance, which has not ended, and the root that it passed is the one that was
saved last. -/
def Called (h : ProcessHandler ρ) (rows : Database) :
    Observation ρ → Session Key Row (Observation ρ) → Prop
  | .handleMessage handlerKey instanceID root, s =>
      handlerKey = h.key ∧ s.locks (.processInstance handlerKey instanceID) = true ∧
        ((rows (.processInstance handlerKey instanceID)).getD newInstanceRow).ended = false ∧
        root = loadedRoot h
          ((rows (.processInstance handlerKey instanceID)).getD newInstanceRow)
  | _, _ => True

/-- Locks are not released before the transaction ends. -/
theorem Called.mono {h : ProcessHandler ρ} {rows : Database} {e : Observation ρ}
    {s t : Session Key Row (Observation ρ)} (hcalled : Called h rows e s)
    (hlocks : ∀ k, s.locks k = true → t.locks k = true) : Called h rows e t := by
  cases e with
  | handleMessage handlerKey instanceID root =>
      obtain ⟨hkey, hlocked, hactive, hroot⟩ := hcalled
      exact ⟨hkey, hlocks _ hlocked, hactive, hroot⟩
  | _ => exact True.intro

section Notes

variable {h : ProcessHandler ρ} {rows : Database} {s t : Session Key Row (Observation ρ)}

/-- The observations of the given program satisfy `Called`. -/
abbrev CalledBy {α : Type} (h : ProcessHandler ρ) (rows : Database)
    (p : Tx Key Row (Observation ρ) α) (s : Session Key Row (Observation ρ)) : Prop :=
  Tx.Notes databaseRely rows (Called h rows) p s

theorem called_of_loaded {b : Behavior ρ} {instanceID : String} {root : ρ}
    (hview : s.view rows (.processInstance h.key instanceID) =
      rows (.processInstance h.key instanceID))
    (hload : Tx.Runs databaseRely rows
      (loadInstance h b instanceID h.new : Stmt (Observation ρ) _).run s (.ok (some root)) t) :
    Called h rows (.handleMessage h.key instanceID root) t := by
  obtain ⟨row, hrow, -, hlocked, -, ⟨-, hr⟩ | ⟨hactive, hr | hr⟩⟩ := loadInstance_runs hload
  · cases hr
  · cases hr
  · cases hr
    rw [hview] at hrow
    subst hrow
    exact ⟨rfl, hlocked, hactive, rfl⟩

/-- What the deadline pump has called. -/
theorem deadlinePump_notes {p : Backoff} {c : Circumstances} {a : DeadlineAttempt ρ} :
    CalledBy h rows (deliver (deadlinePump h c a) p c).run .start := by
  refine deliver_notes acquireDelivery_silent (fun _ _ => postponeDelivery_silent) ?_
  intro del u hacquire
  obtain ⟨hview, -, -⟩ := acquireDelivery_runs rfl hacquire
  change CalledBy h rows (handleDelivery h a del del.envelope).run u
  unfold handleDelivery
  split
  swap
  · exact Silent.notes Tx.emits_throw
  refine Tx.Notes.except_bind (Silent.notes newRoot_silent) ?_
  intro root v hnew
  obtain ⟨hr | hr, rfl⟩ := newRoot_runs hnew <;> cases hr
  unfold handleDeadline
  refine Tx.Notes.except_bind (Silent.notes loadInstance_silent) ?_
  intro loaded w hload
  cases loaded with
  | none => exact Silent.notes Tx.emits_throw
  | some root =>
      refine Tx.Notes.emit_bind (called_of_loaded (by rw [hview]) hload) ?_
      split
      · exact Silent.notes Tx.emits_throw
      · exact Silent.notes completeDeadline_silent

theorem dispatch_notes {a : EventAttempt ρ} {env : Envelope}
    (hview : ∀ instanceID, s.view rows (.processInstance h.key instanceID) =
      rows (.processInstance h.key instanceID)) :
    CalledBy h rows (dispatch h a env).run s := by
  unfold dispatch
  split
  swap
  · exact Silent.notes Tx.emits_abort
  refine Tx.Notes.except_bind (Silent.notes routeEventToInstance_silent) ?_
  intro routed u hroute
  cases routed with
  | none => exact Silent.notes Tx.emits_ok
  | some instanceID =>
      obtain ⟨rfl, -⟩ := routeEventToInstance_runs hroute
      refine Tx.Notes.except_bind (Silent.notes newRoot_silent) ?_
      intro root v hnew
      obtain ⟨hr | hr, rfl⟩ := newRoot_runs hnew <;> cases hr
      unfold handleEvent
      refine Tx.Notes.except_bind (Silent.notes loadInstance_silent) ?_
      intro loaded w hload
      cases loaded with
      | none => exact Silent.notes Tx.emits_ok
      | some root =>
          refine Tx.Notes.emit_bind (called_of_loaded (hview instanceID) hload) ?_
          split
          · exact Silent.notes Tx.emits_abort
          · exact Silent.notes (Tx.Emits.except_bind completeEvent_silent fun _ => Tx.emits_ok)

/-- What a sink has called. -/
theorem consume_notes {call : ConsumeCall ρ} : CalledBy h rows (consume h call).run .start := by
  unfold consume
  refine Tx.Notes.except_bind (Silent.notes upsertCheckpoint_silent) ?_
  intro actual u hupsert
  obtain ⟨found, -, -, hview, -, -⟩ := upsertCheckpoint_runs hupsert
  split
  · exact Silent.notes Tx.emits_ok
  split
  · exact Silent.notes (Tx.Emits.except_bind updateCheckpoint_silent fun _ => Tx.emits_ok)
  · refine Tx.Notes.except_bind (dispatch_notes ?_) ?_
    · intro instanceID
      rw [hview, withCheckpoint, Function.update_of_ne (by simp)]
      rfl
    · intro disposition v _
      refine Tx.Notes.emit_bind True.intro (Silent.notes ?_)
      exact Tx.Emits.except_bind updateCheckpoint_silent fun _ => Tx.emits_ok

end Notes

end Runkit.Process
