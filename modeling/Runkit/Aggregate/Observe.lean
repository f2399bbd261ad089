/-
  Aggregate/Observe.lean --- the root that `HandleCommand` is called with.

  A transaction that is still open has not committed anything, so what it has
  committed says nothing about it.  `commandPump_notes` says what is known at
  the moment an instance is loaded, and at the moment its handler is called.
-/
import Runkit.Aggregate.Commit

set_option autoImplicit false

namespace Runkit.Aggregate

open Runkit.Foundation Runkit.Schema Runkit.Schema.Stmt Runkit.MessagePump

variable {ρ E α β : Type}

/-! ## Programs that emit nothing -/

theorem remove_silent {messageID : UUID} : Silent (E := E) (CommandQueue.remove messageID) := by
  unfold CommandQueue.remove
  refine Tx.Emits.except_bind Tx.emits_lock ?_
  intro row
  split
  · exact Tx.emits_abort
  · exact Tx.emits_write

theorem firstUnlocked_silent {visited : List UUID} :
    Silent (E := E) (EventStream.firstUnlocked visited) := by
  induction visited with
  | nil => exact Tx.emits_ok
  | cons id rest ih =>
      unfold EventStream.firstUnlocked
      refine Tx.Emits.except_bind Tx.emits_tryLock ?_
      intro stream
      split
      · exact Tx.emits_ok
      · exact ih

theorem acquireForWrite_silent {acq : EventStream.Acquisition} :
    Silent (E := E) (EventStream.acquireForWrite acq) := by
  have hzero : Silent (E := E) (EventStream.zeroLengthExists acq.zeroLength) := by
    unfold EventStream.zeroLengthExists
    split
    · exact Tx.emits_ok
    · exact Tx.Emits.except_bind Tx.emits_peek fun _ => Tx.emits_ok
  unfold EventStream.acquireForWrite
  refine Tx.Emits.except_bind firstUnlocked_silent ?_
  intro found
  split
  · exact Tx.emits_ok
  refine Tx.Emits.except_bind hzero ?_
  intro exists_
  split
  · refine Tx.Emits.except_bind Tx.emits_lock ?_
    intro stream
    split
    · exact Tx.emits_ok
    · exact Tx.emits_abort
  · refine Tx.Emits.except_bind Tx.emits_lock ?_
    intro stream
    split
    · exact Tx.emits_abort
    · exact Tx.Emits.except_bind Tx.emits_write fun _ => Tx.emits_ok

theorem append_silent {streamID correlationID : UUID} {aggregate : Option (UUID × String)}
    {events : List Envelope} :
    Silent (E := E) (EventStream.append streamID correlationID aggregate events) := by
  unfold EventStream.append
  refine Tx.Emits.except_bind Tx.emits_lock ?_
  intro stream
  split
  · exact Tx.emits_ok
  · split
    · exact Tx.emits_abort
    · exact Tx.Emits.except_bind Tx.emits_write fun _ => Tx.emits_ok

theorem updateInstance_silent {handlerKey : UUID} {instanceID : String}
    {update : AggregateInstanceRow → AggregateInstanceRow} :
    Silent (E := E) (Schema.Aggregate.updateInstance handlerKey instanceID update) := by
  unfold Schema.Aggregate.updateInstance
  refine Tx.Emits.except_bind Tx.emits_lock ?_
  intro row
  split
  · exact Tx.emits_ok
  · exact Tx.emits_write

theorem completeWithoutEvents_silent {messageID handlerKey : UUID} {instanceID : String} :
    Silent (E := E)
      (Schema.Aggregate.completeWithoutEvents messageID handlerKey instanceID) := by
  unfold Schema.Aggregate.completeWithoutEvents Schema.Aggregate.deleteUnbound
  refine Tx.Emits.except_bind (Tx.Emits.except_bind Tx.emits_lock ?_) fun _ => remove_silent
  intro row
  split
  · exact Tx.emits_write
  · exact Tx.emits_ok

theorem completeWithEvents_silent {acq : EventStream.Acquisition} {messageID handlerKey : UUID}
    {instanceID : String} {streamID : Option UUID} {correlationID : UUID}
    {snapshot : Option Bytes} {events : List Envelope} :
    Silent (E := E) (Schema.Aggregate.completeWithEvents acq messageID handlerKey instanceID
      streamID correlationID snapshot events) := by
  have hbound : Silent (E := E)
      (Schema.Aggregate.boundStream acq handlerKey instanceID streamID) := by
    unfold Schema.Aggregate.boundStream
    split
    · exact Tx.emits_ok
    · refine Tx.Emits.except_bind acquireForWrite_silent ?_
      intro id
      exact Tx.Emits.except_bind updateInstance_silent fun _ => Tx.emits_ok
  have hsnapshot : ∀ nextOffset, Silent (E := E)
      (Schema.Aggregate.updateSnapshot handlerKey instanceID nextOffset snapshot) := by
    intro nextOffset
    unfold Schema.Aggregate.updateSnapshot
    split
    · exact Tx.emits_ok
    · split
      · exact Tx.emits_abort
      · exact updateInstance_silent
  unfold Schema.Aggregate.completeWithEvents
  refine Tx.Emits.except_bind hbound ?_
  intro id
  refine Tx.Emits.except_bind append_silent ?_
  intro nextOffset
  exact Tx.Emits.except_bind (hsnapshot nextOffset) fun _ => remove_silent

theorem complete_silent {h : AggregateHandler ρ} {a : Attempt} {messageID : UUID}
    {cause : Envelope} {instanceID : String} {streamID : Option UUID} {scope : Scope ρ} :
    Silent (E := E) (complete h a messageID cause instanceID streamID scope) := by
  unfold complete
  split
  · exact completeWithoutEvents_silent
  · exact completeWithEvents_silent

theorem lockInstance_silent {handlerKey : UUID} {instanceID : String} :
    Silent (E := E) (lockInstance handlerKey instanceID) := by
  have htry : Silent (E := E) (tryLockInstance handlerKey instanceID) := by
    unfold tryLockInstance
    refine Tx.Emits.except_bind Tx.emits_peek ?_
    intro seen
    split
    · exact Tx.emits_ok
    · refine Tx.Emits.except_bind Tx.emits_tryLock ?_
      intro row
      split
      · exact Tx.emits_ok
      · exact Tx.emits_throw
  have hcreate : Silent (E := E) (tryCreateInstance handlerKey instanceID) := by
    unfold tryCreateInstance
    refine Tx.Emits.except_bind Tx.emits_lock ?_
    intro row
    split
    · exact Tx.emits_ok
    · exact Tx.Emits.except_bind Tx.emits_write fun _ => Tx.emits_ok
  unfold lockInstance
  refine Tx.Emits.except_bind htry ?_
  intro found
  split
  · exact Tx.emits_ok
  · exact hcreate

theorem newRoot_silent {h : AggregateHandler ρ} {constructs : Bool} :
    Silent (E := E) (newRoot h constructs) := by
  unfold newRoot
  split
  · exact Tx.emits_ok
  · exact Tx.emits_throw

theorem restoreSnapshot_silent {h : AggregateHandler ρ} {a : Attempt}
    {row : AggregateInstanceRow} {root : ρ} :
    Silent (E := E) (restoreSnapshot h a row root) := by
  unfold restoreSnapshot
  split
  · exact Tx.emits_ok
  · split
    · exact Tx.emits_ok
    · exact Tx.Emits.except_bind newRoot_silent fun _ => Tx.emits_ok

theorem applyHistoricalEvents_silent {h : AggregateHandler ρ} {a : Attempt} {streamID : UUID}
    {offset : Nat} {instanceID : String} {root : ρ} :
    Silent (E := E) (applyHistoricalEvents h a streamID offset instanceID root) := by
  have heach : ∀ events root, Silent (E := E) (applyEach h a events root) := by
    intro events
    induction events with
    | nil => exact fun _ => Tx.emits_ok
    | cons row rest ih =>
        intro root
        unfold applyEach
        split
        · exact Tx.emits_throw
        · split
          · exact Tx.emits_throw
          · exact ih _
  unfold applyHistoricalEvents
  exact Tx.Emits.except_bind Tx.emits_peek fun stream => heach _ _

/-! ## Loading and handling -/

/-- What is known of a transaction that has loaded an instance or called its
handler: the instance is locked, and the handler is given the root that
`loadInstance` computes from the committed rows. -/
def Called (h : AggregateHandler ρ) (a : Attempt) (rows : Database) :
    Observation ρ → Session Key Row (Observation ρ) → Prop
  | .loading handlerKey instanceID, s =>
      handlerKey = h.key ∧ s.locks (.aggregateInstance handlerKey instanceID) = true
  | .handleCommand handlerKey instanceID root, s =>
      handlerKey = h.key ∧ s.locks (.aggregateInstance handlerKey instanceID) = true ∧
        root = loadedRoot h a rows instanceID
          ((rows (.aggregateInstance handlerKey instanceID)).getD newInstanceRow)
  | _, _ => True

/-- Locks are not released before the transaction ends. -/
theorem Called.mono {h : AggregateHandler ρ} {a : Attempt} {rows : Database}
    {e : Observation ρ} {s t : Session Key Row (Observation ρ)} (hcalled : Called h a rows e s)
    (hlocks : ∀ k, s.locks k = true → t.locks k = true) : Called h a rows e t := by
  cases e with
  | loading handlerKey instanceID => exact ⟨hcalled.1, hlocks _ hcalled.2⟩
  | handleCommand handlerKey instanceID root =>
      exact ⟨hcalled.1, hlocks _ hcalled.2.1, hcalled.2.2⟩
  | _ => exact True.intro

section Notes

variable {h : AggregateHandler ρ} {a : Attempt} {rows : Database}
  {s : Session Key Row (Observation ρ)}

/-- The observations of the given program satisfy `Called`. -/
abbrev CalledBy (h : AggregateHandler ρ) (a : Attempt) (rows : Database)
    (p : Tx Key Row (Observation ρ) α) (s : Session Key Row (Observation ρ)) : Prop :=
  Tx.Notes databaseRely rows (Called h a rows) p s

theorem loadInstance_notes {instanceID : String} :
    CalledBy h a rows (loadInstance h a instanceID).run s := by
  unfold loadInstance
  refine Tx.Notes.except_bind (Silent.notes lockInstance_silent) ?_
  intro row u hlock
  obtain ⟨hr, -⟩ | ⟨_, -, -, -, hlocked, -⟩ := lockInstance_runs hlock
  · cases hr
  refine Tx.Notes.emit_bind ⟨rfl, hlocked⟩ ?_
  refine Tx.Notes.except_bind (Silent.notes newRoot_silent) ?_
  intro root v hnew
  split
  · exact Silent.notes Tx.emits_ok
  · refine Tx.Notes.except_bind (Silent.notes restoreSnapshot_silent) ?_
    intro restored w hrestore
    refine Tx.Notes.except_bind (Silent.notes applyHistoricalEvents_silent) ?_
    intro root' x happly
    exact Silent.notes Tx.emits_ok

theorem handleLoaded_notes {messageID : UUID} {cause : Envelope} {instanceID : String}
    {root : ρ} {streamID : Option UUID}
    (hcalled : Called h a rows (.handleCommand h.key instanceID root) s) :
    CalledBy h a rows (handleLoaded h a messageID cause instanceID root streamID).run s := by
  unfold handleLoaded
  refine Tx.Notes.emit_bind hcalled ?_
  split
  · exact Silent.notes Tx.emits_throw
  · exact Silent.notes complete_silent

theorem handleDelivery_notes {del : Delivery} {env : Envelope}
    (hview : s.view rows = rows) (hpending : ∀ id, s.pending (.stream id) = none) :
    CalledBy h a rows (handleDelivery h a del env).run s := by
  unfold handleDelivery
  split
  swap
  · exact Silent.notes Tx.emits_throw
  have hroute : Silent (E := Observation ρ) (routeCommandToInstance a) := by
    unfold routeCommandToInstance
    split
    · exact Tx.emits_throw
    · split
      · exact Tx.emits_throw
      · exact Tx.emits_ok
  refine Tx.Notes.except_bind (Silent.notes hroute) ?_
  intro instanceID u hrouted
  have hsame : u = s := by
    unfold routeCommandToInstance at hrouted
    split at hrouted
    · exact (Tx.runs_throw.mp hrouted).2
    · split at hrouted
      · exact (Tx.runs_throw.mp hrouted).2
      · exact (Tx.runs_ok.mp hrouted).2
  subst hsame
  refine Tx.Notes.except_bind loadInstance_notes ?_
  intro loaded v hload
  obtain ⟨hr, -⟩ | ⟨row, hrow, -, hlocked, hr | hr⟩ := loadInstance_runs hpending hload
  · cases hr
  · cases hr
  · cases hr
    refine handleLoaded_notes ⟨rfl, hlocked, ?_⟩
    rw [hrow, hview]

/-- What the aggregate command pump has loaded and called. -/
theorem commandPump_notes {p : Backoff} {c : Circumstances} :
    CalledBy h a rows (deliver (commandPump h c a) p c).run .start := by
  refine deliver_notes acquireCommandDelivery_silent
    (fun _ _ => postponeCommandDelivery_silent) ?_
  intro del u hacquire
  obtain ⟨hr, -⟩ | ⟨_, _, -, -, -, rfl⟩ := acquireCommandDelivery_runs hacquire
  · cases hr
  · exact handleDelivery_notes rfl fun _ => rfl

end Notes

end Runkit.Aggregate
