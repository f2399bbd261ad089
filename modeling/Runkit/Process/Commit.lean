/-
  Process/Commit.lean --- what the transactions of process handlers can commit.

  `deadlinePump_committed` and `consume_committed` are the only statements about
  the code of the deadline pump and of the sink that the rest of the development
  needs for rows.
-/
import Runkit.Process.DeadlinePump
import Runkit.Process.Effects
import Runkit.Process.Sink

set_option autoImplicit false

namespace Runkit.Process

open Runkit.Foundation Runkit.Schema Runkit.Schema.Stmt Runkit.MessagePump

variable {ρ E : Type} {rely : Rely Key Row} {rows : Database}

/-! ## Deadlines -/

/-- The instance of the given ID has been invoked with the message in `cause`,
and its handler succeeded and left the given scope. -/
structure Invoked (h : ProcessHandler ρ) (b : Behavior ρ) (cause : Envelope)
    (instanceID : String) (before : Database) (row : ProcessInstanceRow) (scope : Scope ρ) :
    Prop where
  row_eq : row = (before (.processInstance h.key instanceID)).getD newInstanceRow
  active : row.ended = false
  scope_eq : handleMessage h b cause instanceID (loadedRoot h row) = some scope
  fresh : ∀ env ∈ scope.commands, before (.command env.body.messageID) = none
  distinct : (scope.commands.map (·.body.messageID)).Nodup

/-- What handling a deadline successfully does to the database. -/
inductive DeadlineCompletes (h : ProcessHandler ρ) (b : Behavior ρ) (messageID : UUID)
    (cause : Envelope) (before : Database) : Database → Prop where
  | ended {row : ProcessInstanceRow} {scope : Scope ρ}
      (hinvoked : Invoked h b cause cause.header.instanceID before row scope)
      (hended : scope.ended = true) :
      DeadlineCompletes h b messageID cause before
        (applyScope h b cause.header.instanceID row scope
          (withInstance h.key cause.header.instanceID row before))
  | saved {row : ProcessInstanceRow} {scope : Scope ρ}
      (hinvoked : Invoked h b cause cause.header.instanceID before row scope)
      (hended : scope.ended = false)
      (hmarshals : scope.mutated = true → b.marshals = true)
      (hfresh : ∀ env ∈ scope.deadlines, before (.deadline env.body.messageID) = none)
      (hdistinct : (scope.deadlines.map (·.body.messageID)).Nodup) :
      DeadlineCompletes h b messageID cause before
        (Function.update (applyScope h b cause.header.instanceID row scope
          (withInstance h.key cause.header.instanceID row before)) (.deadline messageID) none)

/-- What handling a deadline has done to the database when it returns an
error. -/
inductive DeadlineLeaves (h : ProcessHandler ρ) (b : Behavior ρ) (cause : Envelope)
    (before : Database) : Database → Prop where
  | failed : DeadlineLeaves h b cause before before
  | loaded {row : ProcessInstanceRow}
      (hrow : row = (before (.processInstance h.key cause.header.instanceID)).getD
        newInstanceRow) :
      DeadlineLeaves h b cause before (withInstance h.key cause.header.instanceID row before)
  /-- The handler succeeded, but the root that it mutated can not be marshaled.
  By then its commands have been added to the queue. -/
  | unsaved {row : ProcessInstanceRow} {scope : Scope ρ}
      (hinvoked : Invoked h b cause cause.header.instanceID before row scope)
      (hended : scope.ended = false) (hmutated : scope.mutated = true)
      (hmarshals : b.marshals = false) :
      DeadlineLeaves h b cause before (withCommands b.now scope.commands
        (withInstance h.key cause.header.instanceID row before))

section Deadlines

variable {s t : Session Key Row (Observation ρ)} {r : Except Error Unit}

theorem deleteDeadline_runs {messageID : UUID}
    (h : Tx.Runs rely rows (deleteDeadline messageID : Stmt (Observation ρ) _).run s r t) :
    s.view rows (.deadline messageID) ≠ none ∧ r = .ok () ∧
      t = (s.acquire (.deadline messageID)).put (.deadline messageID) none := by
  unfold deleteDeadline at h
  rw [Tx.runs_lock_bind] at h
  split at h
  · exact absurd h (by simp)
  · rename_i row hrow
    obtain ⟨-, hr, ht⟩ := Tx.runs_write_last.mp h
    exact ⟨by simp [hrow], hr, ht⟩

/-- What is done with the scope of a deadline. -/
theorem completeDeadline_runs {h : ProcessHandler ρ} {b : Behavior ρ} {messageID : UUID}
    {cause : Envelope} {before : Database} {row : ProcessInstanceRow} {scope : Scope ρ}
    (hrow : row = (before (.processInstance h.key cause.header.instanceID)).getD newInstanceRow)
    (hactive : row.ended = false)
    (hscope : handleMessage h b cause cause.header.instanceID (loadedRoot h row) = some scope)
    (hview : s.view before = withInstance h.key cause.header.instanceID row before)
    (hruns : Tx.Runs databaseRely before
      (completeDeadline h b messageID cause.header.instanceID scope :
        Stmt (Observation ρ) _).run s r t) :
    t.trace = s.trace ∧
      ((r = .ok () ∧ DeadlineCompletes h b messageID cause before (t.view before)) ∨
        (r = .error .failed ∧ DeadlineLeaves h b cause before (t.view before))) := by
  have hpacked := handleMessage_packedBy hscope
  have hkeys : ∀ env ∈ scope.commands, env.body.idempotencyKey = "" :=
    fun env henv => hpacked.command_keyless henv
  unfold completeDeadline at hruns
  obtain ⟨e, -, herror⟩ | ⟨_, u, hadd, hrest⟩ := Tx.runs_except_bind.mp hruns
  · cases (addCommandsToQueue_runs hkeys herror).1
  obtain ⟨-, htrace, hadded, hfresh, hdistinct⟩ := addCommandsToQueue_runs hkeys hadd
  rw [hview] at hadded hfresh
  have hinvoked : Invoked h b cause cause.header.instanceID before row scope :=
    ⟨hrow, hactive, hscope, fun env henv => by simpa [withInstance] using hfresh env henv,
      hdistinct⟩
  have hinstance : u.view before (.processInstance h.key cause.header.instanceID) =
      some row := by
    rw [hadded, withCommands_of_ne (by simp), withInstance, Function.update_self]
  split at hrest
  · rename_i hended
    obtain ⟨hr, htrace', hafter⟩ := endInstance_runs hinstance hrest
    refine ⟨htrace'.trans htrace, Or.inl ⟨hr, ?_⟩⟩
    have happly : t.view before = applyScope h b cause.header.instanceID row scope
        (withInstance h.key cause.header.instanceID row before) := by
      rw [hafter, hadded, applyScope, if_pos hended]
    rw [happly]
    exact .ended hinvoked hended
  · rename_i hended
    have hended' : scope.ended = false := by simpa using hended
    obtain ⟨e, rfl, herror⟩ | ⟨_, v, hsave, hdelete⟩ := Tx.runs_except_bind.mp hrest
    · obtain ⟨hmutated, hmarshals, hr, rfl⟩ | ⟨-, hr, -⟩ := saveScope_runs hinstance herror
      · cases hr
        refine ⟨htrace, Or.inr ⟨rfl, ?_⟩⟩
        rw [hadded]
        exact .unsaved hinvoked hended' hmutated hmarshals
      · cases hr
    obtain ⟨-, -, hr, -⟩ | ⟨hmarshals, -, htrace', hafter, hfreshDeadlines, hdistinct'⟩ :=
      saveScope_runs hinstance hsave
    · cases hr
    obtain ⟨-, hr, rfl⟩ := deleteDeadline_runs hdelete
    refine ⟨htrace'.trans htrace, Or.inl ⟨hr, ?_⟩⟩
    have happly : v.view before = applyScope h b cause.header.instanceID row scope
        (withInstance h.key cause.header.instanceID row before) := by
      rw [hafter, hadded, applyScope, if_neg hended]
    rw [Session.put_view, Session.acquire_view, happly]
    refine .saved hinvoked hended' hmarshals ?_ hdistinct'
    intro env henv
    have hnone := hfreshDeadlines env henv
    rw [hadded, withCommands_of_ne (by simp)] at hnone
    simpa [withInstance] using hnone

/-- What a run of `DeadlinePump.HandleDelivery` can do. -/
theorem handleDelivery_runs {h : ProcessHandler ρ} {a : DeadlineAttempt ρ} {del : Delivery}
    {env : Envelope} {before : Database} (hview : s.view before = before)
    (hruns : Tx.Runs databaseRely before (handleDelivery h a del env).run s r t) :
    (r = .ok () ∧ DeadlineCompletes h a.behavior del.messageID env before (t.view before) ∧
        t.locks (.processInstance h.key env.header.instanceID) = true ∧
        t.trace = s.trace ++ [.handleMessage h.key env.header.instanceID (loadedRoot h
          ((before (.processInstance h.key env.header.instanceID)).getD newInstanceRow))]) ∨
      (r = .error .failed ∧ DeadlineLeaves h a.behavior env before (t.view before)) := by
  unfold handleDelivery at hruns
  split at hruns
  swap
  · obtain ⟨hr, rfl⟩ := Tx.runs_throw.mp hruns
    exact Or.inr ⟨hr, by rw [hview]; exact .failed⟩
  obtain ⟨e, rfl, herror⟩ | ⟨root, u, hnew, hruns⟩ := Tx.runs_except_bind.mp hruns
  · obtain ⟨hr, rfl⟩ := newRoot_runs herror
    obtain hr | hr := hr <;> cases hr
    exact Or.inr ⟨rfl, by rw [hview]; exact .failed⟩
  obtain ⟨hr, rfl⟩ := newRoot_runs hnew
  obtain hr | hr := hr <;> cases hr
  unfold handleDeadline at hruns
  obtain ⟨e, rfl, herror⟩ | ⟨loaded, v, hload, hruns⟩ := Tx.runs_except_bind.mp hruns
  · obtain ⟨row, hrow, hafter, -, -, ⟨-, hr⟩ | ⟨-, hr | hr⟩⟩ := loadInstance_runs herror
    · cases hr
    · cases hr
      rw [hview] at hrow hafter
      exact Or.inr ⟨rfl, by rw [hafter]; exact .loaded hrow⟩
    · cases hr
  obtain ⟨row, hrow, hafter, hlock, htrace, hloaded⟩ := loadInstance_runs hload
  rw [hview] at hrow hafter
  obtain ⟨-, hr⟩ | ⟨hactive, hr | hr⟩ := hloaded
  · cases hr
    obtain ⟨hr, rfl⟩ := Tx.runs_throw.mp hruns
    exact Or.inr ⟨hr, by rw [hafter]; exact .loaded hrow⟩
  · cases hr
  cases hr
  dsimp only at hruns
  rw [Tx.runs_emit_bind] at hruns
  split at hruns
  · obtain ⟨hr, rfl⟩ := Tx.runs_throw.mp hruns
    exact Or.inr ⟨hr, by rw [Session.note_view, hafter]; exact .loaded hrow⟩
  · rename_i scope hscope
    have hlock' := Tx.Visits.locks_mono hruns _ hlock
    obtain ⟨htrace', ⟨hr, hcompletes⟩ | hleaves⟩ :=
      completeDeadline_runs (s := v.note _) hrow hactive hscope hafter hruns
    · refine Or.inl ⟨hr, hcompletes, hlock', ?_⟩
      rw [htrace', Session.note_trace, htrace, hrow]
    · exact Or.inr hleaves

/-- The transaction has acquired the deadline in the given row. -/
structure Acquired (h : ProcessHandler ρ) (c : Circumstances) (messageID : UUID)
    (before : Database) (locks : Key → Bool) (row : DeadlineRow) : Prop where
  row_eq : before (.deadline messageID) = some row
  handlerKey : row.handlerKey = h.key
  due : row.deliverAt ≤ c.acquiredAt
  type : row.messageTypeID ∈ h.deadlineTypeIDs
  instance_exists : before (.processInstance row.handlerKey row.instanceID) ≠ none
  locked : locks (.deadline messageID) = true
  instance_locked : locks (.processInstance row.handlerKey row.instanceID) = true

/-- What a run of `DeadlinePump.AcquireDelivery` can do. -/
theorem acquireDelivery_runs {h : ProcessHandler ρ} {c : Circumstances} {visited : List UUID}
    {before : Database} {r : Except Error (Option Delivery)} (hview : s.view before = before)
    (hruns : Tx.Runs rely before
      (acquireDelivery h c.acquiredAt visited : Stmt (Observation ρ) _).run s r t) :
    t.view before = before ∧ t.trace = s.trace ∧
      (r = .ok none ∨ ∃ messageID row, r = .ok (some (deadlineDelivery messageID row)) ∧
        Acquired h c messageID before t.locks row) := by
  induction visited generalizing s with
  | nil =>
      obtain ⟨hr, rfl⟩ := Tx.runs_ok.mp hruns
      exact ⟨hview, rfl, Or.inl hr⟩
  | cons messageID rest ih =>
      rw [acquireDelivery, Tx.runs_tryLock_bind] at hruns
      obtain ⟨hvisible, hruns⟩ | hruns := hruns
      swap
      · exact ih hview hruns
      rw [hview] at hvisible hruns
      cases hrow : before (.deadline messageID) with
      | none => simp [hrow, deadlineIsDue] at hvisible
      | some row =>
          simp only [hrow, deadlineIsDue, Bool.and_eq_true, decide_eq_true_eq] at hvisible
          obtain ⟨⟨hkey, hdue⟩, htype⟩ := hvisible
          simp only [hrow, Tx.runs_tryLock_bind] at hruns
          obtain ⟨hexists, hdone⟩ | hruns := hruns
          · obtain ⟨hr, rfl⟩ := Tx.runs_ok.mp hdone
            rw [Session.acquire_view, hview] at hexists
            refine ⟨hview, rfl, Or.inr ⟨messageID, row, hr, hrow, hkey, hdue, htype, ?_, ?_, ?_⟩⟩
            · exact Option.isSome_iff_ne_none.mp hexists
            · exact (Session.acquire_locks _ _ _).mpr (Or.inr (by simp))
            · simp
          · exact ih (s := s.acquire (.deadline messageID)) hview hruns

theorem postponeDelivery_runs {now : Time} {del : Delivery} {delay : Int}
    (h : Tx.Runs rely rows (postponeDelivery now del delay : Stmt (Observation ρ) _).run s r t) :
    ∃ row, s.view rows (.deadline del.messageID) = some row ∧ r = .ok () ∧
      t = (s.acquire (.deadline del.messageID)).put (.deadline del.messageID)
        (some { row with failures := del.failures, deliverAt := now + delay }) := by
  unfold postponeDelivery at h
  rw [Tx.runs_lock_bind] at h
  split at h
  · exact absurd h (by simp)
  · rename_i row hrow
    obtain ⟨-, hr, ht⟩ := Tx.runs_write_last.mp h
    exact ⟨row, hrow, hr, ht⟩

/-- The row of a deadline after its delivery has been postponed. -/
def postponedDeadline (row : DeadlineRow) (failures : Nat) (deliverAt : Time) : DeadlineRow :=
  { row with failures := failures, deliverAt := deliverAt }

/-- What a transaction of the deadline pump can commit. -/
inductive DeadlineCommitted (h : ProcessHandler ρ) (c : Circumstances)
    (a : DeadlineAttempt ρ) (before : Database) (locks : Key → Bool) :
    Outcome → Database → Prop where
  | idle : DeadlineCommitted h c a before locks .idle before
  | unreadable {messageID : UUID} {row : DeadlineRow} {delay : Int}
      (hacquired : Acquired h c messageID before locks row) :
      DeadlineCommitted h c a before locks (.unreadable messageID)
        (Function.update before (.deadline messageID)
          (some (postponedDeadline row (row.failures + 1) (c.postponedAt + delay))))
  | delivered {messageID : UUID} {row : DeadlineRow} {after : Database}
      (hacquired : Acquired h c messageID before locks row)
      (hcompletes : DeadlineCompletes h a.behavior messageID row.envelope before after)
      (hlock : locks (.processInstance h.key row.envelope.header.instanceID) = true) :
      DeadlineCommitted h c a before locks (.delivered messageID) after
  | failed {messageID : UUID} {row : DeadlineRow} {delay : Int} {left : Database}
      (hacquired : Acquired h c messageID before locks row)
      (hleaves : DeadlineLeaves h a.behavior row.envelope before left) :
      DeadlineCommitted h c a before locks (.failed messageID)
        (Function.update left (.deadline messageID)
          (some (postponedDeadline row (row.failures + 1) (c.postponedAt + delay))))

/-- Handling a deadline that returns an error leaves all deadlines alone. -/
theorem DeadlineLeaves.deadline {h : ProcessHandler ρ} {b : Behavior ρ} {cause : Envelope}
    {before left : Database} (hleaves : DeadlineLeaves h b cause before left)
    (messageID : UUID) : left (.deadline messageID) = before (.deadline messageID) := by
  cases hleaves with
  | failed => rfl
  | loaded _ => simp [withInstance]
  | unsaved _ _ _ _ =>
      rw [withCommands_of_ne (by simp)]
      simp [withInstance]

/-- What a transaction of the deadline pump does, with what is observed meanwhile
and the time until which a delivery is postponed. -/
inductive Pumped (h : ProcessHandler ρ) (p : Backoff) (c : Circumstances)
    (a : DeadlineAttempt ρ) (before : Database) (locks : Key → Bool)
    (trace : List (Observation ρ)) : Outcome → Database → Prop where
  | idle : Pumped h p c a before locks trace .idle before
  | unreadable {messageID : UUID} {row : DeadlineRow} {delay : Int}
      (hacquired : Acquired h c messageID before locks row) (hdelay : p.backoffBase ≤ delay) :
      Pumped h p c a before locks trace (.unreadable messageID)
        (Function.update before (.deadline messageID)
          (some (postponedDeadline row (row.failures + 1) (c.postponedAt + delay))))
  | delivered {messageID : UUID} {row : DeadlineRow} {after : Database}
      (hacquired : Acquired h c messageID before locks row)
      (hcompletes : DeadlineCompletes h a.behavior messageID row.envelope before after)
      (hlock : locks (.processInstance h.key row.envelope.header.instanceID) = true)
      (htrace : trace = [.handleMessage h.key row.envelope.header.instanceID (loadedRoot h
        ((before (.processInstance h.key row.envelope.header.instanceID)).getD
          newInstanceRow))]) :
      Pumped h p c a before locks trace (.delivered messageID) after
  | failed {messageID : UUID} {row : DeadlineRow} {delay : Int} {left : Database}
      (hacquired : Acquired h c messageID before locks row)
      (hleaves : DeadlineLeaves h a.behavior row.envelope before left)
      (hdelay : p.backoffBase ≤ delay) :
      Pumped h p c a before locks trace (.failed messageID)
        (Function.update left (.deadline messageID)
          (some (postponedDeadline row (row.failures + 1) (c.postponedAt + delay))))

theorem Pumped.committed {h : ProcessHandler ρ} {p : Backoff} {c : Circumstances}
    {a : DeadlineAttempt ρ} {before after : Database} {locks : Key → Bool}
    {trace : List (Observation ρ)} {o : Outcome}
    (hpumped : Pumped h p c a before locks trace o after) :
    DeadlineCommitted h c a before locks o after := by
  cases hpumped with
  | idle => exact .idle
  | unreadable hacquired _ => exact .unreadable hacquired
  | delivered hacquired hcompletes hlock _ => exact .delivered hacquired hcompletes hlock
  | failed hacquired hleaves _ => exact .failed hacquired hleaves

theorem deadlinePump_pumped {h : ProcessHandler ρ} {p : Backoff} {c : Circumstances}
    {a : DeadlineAttempt ρ} {before : Database} {o : Outcome}
    (hruns : Tx.Runs databaseRely before (deliver (deadlinePump h c a) p c).run .start
      (.ok o) t) :
    Pumped h p c a before t.locks t.trace o (t.view before) := by
  obtain ⟨rfl, hacquire⟩ | ⟨del, u, hacquire, hcases⟩ := deliver_runs hruns
  · obtain ⟨hview, -, -⟩ := acquireDelivery_runs rfl hacquire
    rw [hview]
    exact .idle
  obtain ⟨hview, htrace, hr | ⟨messageID, row, hr, hacquired⟩⟩ :=
    acquireDelivery_runs rfl hacquire
  · cases hr
  cases hr
  have hmono : ∀ v : Session Key Row (Observation ρ), (∀ k, u.locks k = true → v.locks k = true) →
      Acquired h c messageID before v.locks row := fun v hv =>
    { hacquired with
      locked := hv _ hacquired.locked
      instance_locked := hv _ hacquired.instance_locked }
  have hpostponed : ∀ {failures : Nat} {delay : Int} {v : Session Key Row (Observation ρ)},
      v.view before (.deadline messageID) = some row →
      Tx.Runs databaseRely before (postponeDelivery c.postponedAt
        { deadlineDelivery messageID row with failures := failures } delay).run v (.ok ()) t →
      t.view before = Function.update (v.view before) (.deadline messageID)
        (some (postponedDeadline row failures (c.postponedAt + delay))) := by
    intro failures delay v hrow hpostpone
    obtain ⟨row', hrow', -, rfl⟩ := postponeDelivery_runs hpostpone
    cases hrow.symm.trans hrow'
    simp [deadlineDelivery, postponedDeadline]
  have hrow : u.view before (.deadline messageID) = some row := by
    rw [hview]
    exact hacquired.row_eq
  obtain ⟨delay, hdelay, rfl, hpostpone⟩ | ⟨rfl, hhandle⟩ |
    ⟨delay, v, hdelay, rfl, hhandle, hpostpone⟩ |
    ⟨delay, v, -, rfl, hhandle, hpostpone⟩ := hcases
  · have hlocks := Tx.Visits.locks_mono hpostpone
    rw [hpostponed hrow hpostpone, hview]
    exact .unreadable (hmono t hlocks) hdelay
  · have hlocks := Tx.Visits.locks_mono hhandle
    obtain ⟨-, hcompletes, hlock, htrace'⟩ | ⟨hr, -⟩ := handleDelivery_runs hview hhandle
    · refine .delivered (hmono t hlocks) hcompletes hlock ?_
      rw [htrace', htrace]
      rfl
    · cases hr
  · have hlocks := Tx.Visits.locks_mono hhandle
    have hlocks' := Tx.Visits.locks_mono hpostpone
    obtain ⟨hr, -⟩ | ⟨-, hleaves⟩ := handleDelivery_runs hview hhandle
    · cases hr
    rw [hpostponed ((hleaves.deadline messageID).trans hacquired.row_eq) hpostpone]
    exact .failed (hmono t fun k hk => hlocks' k (hlocks k hk)) hleaves hdelay
  · -- The deadline pump is never busy.
    obtain ⟨hr, -⟩ | ⟨hr, -⟩ := handleDelivery_runs hview hhandle <;> cases hr

theorem deadlinePump_committed {h : ProcessHandler ρ} {p : Backoff} {c : Circumstances}
    {a : DeadlineAttempt ρ} {before : Database} {o : Outcome}
    (hruns : Tx.Runs databaseRely before (deliver (deadlinePump h c a) p c).run .start
      (.ok o) t) :
    DeadlineCommitted h c a before t.locks o (t.view before) :=
  (deadlinePump_pumped hruns).committed

end Deadlines

/-! ## Events -/

/-- The database after the checkpoint of a handler on a stream is written. -/
def withCheckpoint (handlerKey streamID : UUID) (offset : Nat) (db : Database) : Database :=
  Function.update db (.handlerCheckpoint handlerKey streamID) (some offset)

/-- What dispatching an event does to the database, given how the sink disposes
of it, and what is observed meanwhile. -/
inductive Dispatched (h : ProcessHandler ρ) (a : EventAttempt ρ) (env : Envelope)
    (before : Database) (locks : Key → Bool) :
    Disposition → List (Observation ρ) → Database → Prop where
  | unrouted : Dispatched h a env before locks .unrouted [] before
  | ended {instanceID : String} {row : ProcessInstanceRow}
      (hrouting : a.routing = .routed instanceID)
      (hrow : before (.processInstance h.key instanceID) = some row)
      (hended : row.ended = true) :
      Dispatched h a env before locks .ended [] before
  | handled {instanceID : String} {row : ProcessInstanceRow} {scope : Scope ρ}
      (hrouting : a.routing = .routed instanceID)
      (hinvoked : Invoked h a.behavior env instanceID before row scope)
      (hlock : locks (.processInstance h.key instanceID) = true)
      (hmarshals : scope.ended = false → scope.mutated = true → a.behavior.marshals = true)
      (hfresh : scope.ended = false →
        ∀ env ∈ scope.deadlines, before (.deadline env.body.messageID) = none)
      (hdistinct : scope.ended = false → (scope.deadlines.map (·.body.messageID)).Nodup) :
      Dispatched h a env before locks .handled
        [.handleMessage h.key instanceID (loadedRoot h row)]
        (applyScope h a.behavior instanceID row scope
          (withInstance h.key instanceID row before))

/-- What the transaction of a call of `Sink.consume` can commit, given the actual
checkpoint that it finds, and what is observed meanwhile. -/
inductive Consumed (h : ProcessHandler ρ) (call : ConsumeCall ρ) (before : Database)
    (locks : Key → Bool) : Nat → List (Observation ρ) → Database → Prop where
  | conflict {actual : Nat}
      (hactual : actual = checkpointOffset (before (.handlerCheckpoint h.key call.streamID)))
      (hconflict : actual ≠ call.cp) :
      Consumed h call before locks actual [] (withCheckpoint h.key call.streamID actual before)
  | skipped
      (hactual : call.cp = checkpointOffset (before (.handlerCheckpoint h.key call.streamID)))
      (henv : call.env = none) :
      Consumed h call before locks call.cp []
        (withCheckpoint h.key call.streamID call.next before)
  | dispatched {env : Envelope} {disposition : Disposition} {trace : List (Observation ρ)}
      {after : Database}
      (hactual : call.cp = checkpointOffset (before (.handlerCheckpoint h.key call.streamID)))
      (henv : call.env = some env)
      (hdispatched : Dispatched h call.attempt env
        (withCheckpoint h.key call.streamID call.cp before) locks disposition trace after) :
      Consumed h call before locks call.cp
        (trace ++ [.processed h.key call.streamID env disposition])
        (withCheckpoint h.key call.streamID call.next after)

/-- Holding more locks makes no difference. -/
theorem Dispatched.mono {h : ProcessHandler ρ} {a : EventAttempt ρ} {env : Envelope}
    {before after : Database} {locks locks' : Key → Bool} {disposition : Disposition}
    {trace : List (Observation ρ)}
    (hdispatched : Dispatched h a env before locks disposition trace after)
    (hlocks : ∀ k, locks k = true → locks' k = true) :
    Dispatched h a env before locks' disposition trace after := by
  cases hdispatched with
  | unrouted => exact .unrouted
  | ended hrouting hrow hended => exact .ended hrouting hrow hended
  | handled hrouting hinvoked hlock hmarshals hfresh hdistinct =>
      exact .handled hrouting hinvoked (hlocks _ hlock) hmarshals hfresh hdistinct

section Events

variable {s t : Session Key Row (Observation ρ)}

theorem upsertCheckpoint_runs {handlerKey streamID : UUID} {r : Except Error Nat}
    (hruns : Tx.Runs rely rows
      (upsertCheckpoint handlerKey streamID : Stmt (Observation ρ) _).run s r t) :
    ∃ actual, r = .ok actual ∧
      actual = checkpointOffset (s.view rows (.handlerCheckpoint handlerKey streamID)) ∧
      t.view rows = withCheckpoint handlerKey streamID actual (s.view rows) ∧
      t.locks (.handlerCheckpoint handlerKey streamID) = true ∧ t.trace = s.trace := by
  unfold upsertCheckpoint at hruns
  rw [Tx.runs_lock_bind] at hruns
  unfold withCheckpoint checkpointOffset
  split at hruns
  · rename_i offset hoffset
    obtain ⟨rfl, rfl⟩ := Tx.runs_ok.mp hruns
    refine ⟨offset, rfl, by rw [hoffset]; rfl, ?_, by simp, rfl⟩
    rw [Session.acquire_view, ← hoffset, Function.update_eq_self]
  · rename_i hnone
    obtain ⟨-, hdone⟩ := Tx.runs_write_bind.mp hruns
    obtain ⟨rfl, rfl⟩ := Tx.runs_ok.mp hdone
    exact ⟨0, rfl, by rw [hnone]; rfl, by simp, by simp, rfl⟩

theorem updateCheckpoint_runs {handlerKey streamID : UUID} {next : Nat} {r : Except Error Unit}
    (hruns : Tx.Runs rely rows
      (updateCheckpoint handlerKey streamID next : Stmt (Observation ρ) _).run s r t) :
    r = .ok () ∧ t.view rows = withCheckpoint handlerKey streamID next (s.view rows) ∧
      t.trace = s.trace := by
  unfold updateCheckpoint at hruns
  rw [Tx.runs_lock_bind] at hruns
  split at hruns
  · exact absurd hruns (by simp)
  · obtain ⟨-, hr, rfl⟩ := Tx.runs_write_last.mp hruns
    exact ⟨hr, by simp [withCheckpoint], rfl⟩

/-- Routing an event does nothing to the database. -/
theorem routeEventToInstance_runs {a : EventAttempt ρ} {r : Except Error (Option String)}
    (hruns : Tx.Runs rely rows (routeEventToInstance a : Stmt (Observation ρ) _).run s r t) :
    t = s ∧ (r = .ok none ∨ ∃ instanceID, a.routing = .routed instanceID ∧
      r = .ok (some instanceID)) := by
  unfold routeEventToInstance at hruns
  split at hruns
  · exact (Tx.runs_abort.mp hruns).elim
  · obtain ⟨hr, ht⟩ := Tx.runs_ok.mp hruns
    exact ⟨ht, Or.inl hr⟩
  · rename_i instanceID hrouting
    split at hruns
    · exact (Tx.runs_abort.mp hruns).elim
    · obtain ⟨hr, ht⟩ := Tx.runs_ok.mp hruns
      exact ⟨ht, Or.inr ⟨instanceID, hrouting, hr⟩⟩

/-- What is done with the scope of an event. -/
theorem completeEvent_runs {h : ProcessHandler ρ} {b : Behavior ρ} {instanceID : String}
    {cause : Envelope} {before : Database} {row : ProcessInstanceRow} {scope : Scope ρ}
    (hrow : row = (before (.processInstance h.key instanceID)).getD newInstanceRow)
    (hactive : row.ended = false)
    (hscope : handleMessage h b cause instanceID (loadedRoot h row) = some scope)
    (hview : s.view rows = withInstance h.key instanceID row before)
    (hruns : Tx.Runs databaseRely rows
      (completeEvent h b instanceID scope : Stmt (Observation ρ) _).run s (.ok ()) t) :
    t.trace = s.trace ∧ Invoked h b cause instanceID before row scope ∧
      t.view rows = applyScope h b instanceID row scope
        (withInstance h.key instanceID row before) ∧
      (scope.ended = false → scope.mutated = true → b.marshals = true) ∧
      (scope.ended = false →
        ∀ env ∈ scope.deadlines, before (.deadline env.body.messageID) = none) ∧
      (scope.ended = false → (scope.deadlines.map (·.body.messageID)).Nodup) := by
  have hpacked := handleMessage_packedBy hscope
  have hkeys : ∀ env ∈ scope.commands, env.body.idempotencyKey = "" :=
    fun env henv => hpacked.command_keyless henv
  unfold completeEvent at hruns
  obtain ⟨_, u, hadd, hrest⟩ := Tx.runs_ok_bind hruns
  obtain ⟨-, htrace, hadded, hfresh, hdistinct⟩ := addCommandsToQueue_runs hkeys hadd
  rw [hview] at hadded hfresh
  have hinvoked : Invoked h b cause instanceID before row scope :=
    ⟨hrow, hactive, hscope, fun env henv => by simpa [withInstance] using hfresh env henv,
      hdistinct⟩
  have hinstance : u.view rows (.processInstance h.key instanceID) = some row := by
    rw [hadded, withCommands_of_ne (by simp), withInstance, Function.update_self]
  unfold applyScope
  split at hrest
  · rename_i hended
    obtain ⟨-, htrace', hafter⟩ := endInstance_runs hinstance hrest
    refine ⟨htrace'.trans htrace, hinvoked, ?_, ?_, ?_, ?_⟩
    · rw [hafter, hadded, if_pos hended]
    all_goals exact fun hactive => absurd hended (by simp [hactive])
  · rename_i hended
    obtain ⟨-, -, hr, -⟩ | ⟨hmarshals, -, htrace', hafter, hfreshDeadlines, hdistinct'⟩ :=
      saveScope_runs hinstance hrest
    · cases hr
    refine ⟨htrace'.trans htrace, hinvoked, ?_, fun _ => hmarshals, fun _ => ?_,
      fun _ => hdistinct'⟩
    · rw [hafter, hadded, if_neg hended]
    · intro env henv
      have hnone := hfreshDeadlines env henv
      rw [hadded, withCommands_of_ne (by simp)] at hnone
      simpa [withInstance] using hnone

/-- What a run of `Sink.dispatch` can do. -/
theorem dispatch_runs {h : ProcessHandler ρ} {a : EventAttempt ρ} {env : Envelope}
    {before : Database} {disposition : Disposition} (hview : s.view rows = before)
    (hruns : Tx.Runs databaseRely rows (dispatch h a env).run s (.ok disposition) t) :
    ∃ trace, t.trace = s.trace ++ trace ∧
      Dispatched h a env before t.locks disposition trace (t.view rows) := by
  unfold dispatch at hruns
  split at hruns
  swap
  · exact absurd hruns (by simp)
  obtain ⟨routed, u, hroute, hruns⟩ := Tx.runs_ok_bind hruns
  obtain ⟨rfl, hr | ⟨instanceID, hrouting, hr⟩⟩ := routeEventToInstance_runs hroute
  · cases hr
    obtain ⟨hr, rfl⟩ := Tx.runs_ok.mp hruns
    cases hr
    exact ⟨[], by simp, by rw [hview]; exact .unrouted⟩
  cases hr
  obtain ⟨root, u, hnew, hruns⟩ := Tx.runs_ok_bind hruns
  obtain ⟨hr, rfl⟩ := newRoot_runs hnew
  obtain hr | hr := hr <;> cases hr
  unfold handleEvent at hruns
  obtain ⟨loaded, v, hload, hruns⟩ := Tx.runs_ok_bind hruns
  obtain ⟨row, hrow, hafter, hlock, htrace, hloaded⟩ := loadInstance_runs hload
  rw [hview] at hrow hafter
  obtain ⟨hended, hr⟩ | ⟨hactive, hr | hr⟩ := hloaded
  · cases hr
    obtain ⟨hr, rfl⟩ := Tx.runs_ok.mp hruns
    cases hr
    -- A new instance has not ended, so the row was there before.
    have hexists : before (.processInstance h.key instanceID) = some row := by
      cases hbefore : before (.processInstance h.key instanceID) with
      | none =>
          rw [hbefore] at hrow
          rw [hrow] at hended
          cases hended
      | some row' =>
          rw [hbefore] at hrow
          rw [hrow]
          rfl
    rw [withInstance, ← hexists, Function.update_eq_self] at hafter
    exact ⟨[], by simp [htrace], by rw [hafter]; exact .ended hrouting hexists hended⟩
  · cases hr
  cases hr
  dsimp only at hruns
  rw [Tx.runs_emit_bind] at hruns
  split at hruns
  · exact absurd hruns (by simp)
  rename_i scope hscope
  obtain ⟨_, rfl, hcomplete⟩ := Tx.runs_ok_return hruns
  have hlock' := Tx.Visits.locks_mono hcomplete _ hlock
  obtain ⟨htrace', hinvoked, happly, hmarshals, hfresh, hdistinct⟩ :=
    completeEvent_runs (s := v.note _) hrow hactive hscope hafter hcomplete
  refine ⟨_, htrace'.trans (congrArg (· ++ [_]) htrace), ?_⟩
  rw [happly]
  exact .handled hrouting hinvoked hlock' hmarshals hfresh hdistinct

/-- What the transaction of `Sink.consume` can commit. -/
theorem consume_committed {h : ProcessHandler ρ} {call : ConsumeCall ρ} {before : Database}
    {actual : Nat}
    (hruns : Tx.Runs databaseRely before (consume h call).run .start (.ok actual) t) :
    Consumed h call before t.locks actual t.trace (t.view before) ∧
      t.locks (.handlerCheckpoint h.key call.streamID) = true := by
  unfold consume at hruns
  obtain ⟨_, u, hupsert, hruns⟩ := Tx.runs_ok_bind hruns
  obtain ⟨found, hr, hfound, hview, hlock, htrace⟩ := upsertCheckpoint_runs hupsert
  cases hr
  have hlock' := Tx.Visits.locks_mono hruns _ hlock
  refine ⟨?_, hlock'⟩
  split at hruns
  · rename_i hconflict
    obtain ⟨hr, rfl⟩ := Tx.runs_ok.mp hruns
    cases hr
    rw [hview, htrace]
    exact .conflict hfound hconflict
  rename_i hactual
  rw [ne_eq, not_not] at hactual
  subst hactual
  split at hruns
  · rename_i henv
    obtain ⟨_, rfl, hupdate⟩ := Tx.runs_ok_return hruns
    obtain ⟨-, hafter, htrace'⟩ := updateCheckpoint_runs hupdate
    have hfinal : t.view before = withCheckpoint h.key call.streamID call.next before := by
      rw [hafter, hview]
      simp [withCheckpoint]
      rfl
    rw [hfinal, htrace', htrace]
    exact .skipped hfound henv
  · rename_i env henv
    obtain ⟨disposition, v, hdispatch, hruns⟩ := Tx.runs_ok_bind hruns
    obtain ⟨trace, htrace', hdispatched⟩ := dispatch_runs hview hdispatch
    rw [Tx.runs_emit_bind] at hruns
    obtain ⟨_, rfl, hupdate⟩ := Tx.runs_ok_return hruns
    obtain ⟨-, hafter, htrace''⟩ := updateCheckpoint_runs hupdate
    have hlocks := Tx.Visits.locks_mono hupdate
    have hfinal : t.trace = trace ++ [.processed h.key call.streamID env disposition] := by
      rw [htrace'', Session.note_trace, htrace', htrace]
      rfl
    rw [hafter, hfinal, Session.note_view]
    exact .dispatched hfound henv (hdispatched.mono hlocks)

end Events

end Runkit.Process
