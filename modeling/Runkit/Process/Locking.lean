/-
  Process/Locking.lean --- the locks that the transactions of process handlers
  request.

  A sink waits for its checkpoint while it holds nothing, and for an instance while
  it holds nothing but its checkpoint.  A deadline pump does not wait at all until
  it has both a deadline and its instance.  What either of them waits for after
  that is listed by `Requested`.
-/
import Runkit.Process.Commit

set_option autoImplicit false

namespace Runkit.Process

open Runkit.Foundation Runkit.Schema Runkit.Schema.Stmt Runkit.MessagePump

variable {ρ E : Type}

/-! ## Programs that ask for nothing -/

section Nothing

variable {Ψ : LockRequest Key Row → Prop} {h : ProcessHandler ρ} {b : Behavior ρ}

theorem newRoot_asks : Tx.Asks Ψ (newRoot h b : Stmt E _).run := by
  unfold newRoot
  split
  · exact Tx.asks_ok
  · exact Tx.asks_throw

theorem restoreState_asks {row : ProcessInstanceRow} {root : ρ} :
    Tx.Asks Ψ (restoreState h b row root : Stmt E _).run := by
  unfold restoreState
  split
  · exact Tx.asks_ok
  · split
    · exact Tx.asks_ok
    · split
      · exact Tx.asks_ok
      · exact Tx.asks_throw

theorem routeEventToInstance_asks {a : EventAttempt ρ} :
    Tx.Asks Ψ (routeEventToInstance a : Stmt E _).run := by
  unfold routeEventToInstance
  split
  · exact Tx.asks_abort
  · exact Tx.asks_ok
  · split
    · exact Tx.asks_abort
    · exact Tx.asks_ok

end Nothing

/-! ## Once the instance is locked -/

/-- What is requested in order to apply the scope of an instance, given the IDs of
the messages that were generated, and the locks that are held already. -/
inductive Asked (h : ProcessHandler ρ) (ids : List UUID) (instanceID : String)
    (held : Key → Bool) : LockRequest Key Row → Prop where
  | held {k : Key} (hheld : held k = true) : Asked h ids instanceID held (.row k)
  | command {id : UUID} (hid : id ∈ ids) : Asked h ids instanceID held (.row (.command id))
  | deadline {id : UUID} (hid : id ∈ ids) : Asked h ids instanceID held (.row (.deadline id))
  | deletes : Asked h ids instanceID held (.rows (isDeadlineOf h.key instanceID))

section Asked

variable {h : ProcessHandler ρ} {b : Behavior ρ} {ids : List UUID} {instanceID : String}
  {held : Key → Bool} {scope : Scope ρ}

theorem addCommandsToQueue_asks {now : Time} {envs : List Envelope}
    (henvs : ∀ env ∈ envs, env.body.idempotencyKey = "" ∧ env.body.messageID ∈ ids) :
    Tx.Asks (Asked h ids instanceID held) (addCommandsToQueue now envs : Stmt E _).run := by
  induction envs with
  | nil => exact Tx.asks_ok
  | cons env rest ih =>
      obtain ⟨hkey, hid⟩ := henvs env List.mem_cons_self
      unfold addCommandsToQueue
      refine Tx.Asks.except_bind ((CommandQueue.add_asks hkey).mono ?_) fun _ => ih ?_
      · intro w hw
        rw [hw]
        exact .command hid
      · exact fun env henv => henvs env (List.mem_cons_of_mem _ henv)

theorem persistDeadlines_asks {envs : List Envelope}
    (henvs : ∀ env ∈ envs, env.body.messageID ∈ ids) :
    Tx.Asks (Asked h ids instanceID held) (persistDeadlines envs : Stmt E _).run := by
  induction envs with
  | nil => exact Tx.asks_ok
  | cons env rest ih =>
      unfold persistDeadlines
      refine Tx.Asks.except_bind (Tx.asks_lock (.deadline (henvs env List.mem_cons_self))) ?_
      intro row
      split
      · exact Tx.asks_abort
      · refine Tx.Asks.except_bind Tx.asks_write fun _ => ih ?_
        exact fun env henv => henvs env (List.mem_cons_of_mem _ henv)

theorem updateInstance_asks {update : ProcessInstanceRow → ProcessInstanceRow}
    (hinstance : held (.processInstance h.key instanceID) = true) :
    Tx.Asks (Asked h ids instanceID held)
      (updateInstance h.key instanceID update : Stmt E _).run := by
  unfold updateInstance
  refine Tx.Asks.except_bind (Tx.asks_lock (.held hinstance)) ?_
  intro row
  split
  · exact Tx.asks_abort
  · exact Tx.asks_write

theorem endInstance_asks (hinstance : held (.processInstance h.key instanceID) = true) :
    Tx.Asks (Asked h ids instanceID held) (endInstance h.key instanceID : Stmt E _).run := by
  unfold endInstance
  exact Tx.Asks.except_bind (updateInstance_asks hinstance) fun _ => Tx.asks_sweep .deletes

theorem saveScope_asks (hinstance : held (.processInstance h.key instanceID) = true)
    (hdeadlines : ∀ env ∈ scope.deadlines, env.body.messageID ∈ ids) :
    Tx.Asks (Asked h ids instanceID held) (saveScope h b instanceID scope : Stmt E _).run := by
  have hsave : ∀ root, Tx.Asks (Asked h ids instanceID held)
      (saveInstance h b instanceID root : Stmt E _).run := by
    intro root
    unfold saveInstance
    split
    · exact updateInstance_asks hinstance
    · exact Tx.asks_throw
  unfold saveScope
  split
  · exact Tx.Asks.except_bind (hsave _) fun _ => persistDeadlines_asks hdeadlines
  · exact persistDeadlines_asks hdeadlines

theorem loadInstance_asks {root : ρ}
    (hinstance : held (.processInstance h.key instanceID) = true) :
    Tx.Asks (Asked h ids instanceID held) (loadInstance h b instanceID root : Stmt E _).run := by
  have hupsert : Tx.Asks (Asked h ids instanceID held)
      (upsertInstance h.key instanceID : Stmt E _).run := by
    unfold upsertInstance
    refine Tx.Asks.except_bind (Tx.asks_lock (.held hinstance)) ?_
    intro row
    split
    · exact Tx.asks_ok
    · exact Tx.Asks.except_bind Tx.asks_write fun _ => Tx.asks_ok
  unfold loadInstance
  exact Tx.Asks.except_bind hupsert fun _ => restoreState_asks

theorem handleMessage_ids {cause : Envelope} {root : ρ}
    (hscope : handleMessage h b cause instanceID root = some scope) :
    (∀ env ∈ scope.commands, env.body.idempotencyKey = "" ∧ env.body.messageID ∈ b.generated) ∧
      ∀ env ∈ scope.deadlines, env.body.messageID ∈ b.generated := by
  have hpacked := handleMessage_packedBy hscope
  exact ⟨fun env henv => ⟨hpacked.command_keyless henv, hpacked.command_generated henv⟩,
    fun env henv => hpacked.deadline_generated henv⟩

theorem completeEvent_asks (hinstance : held (.processInstance h.key instanceID) = true)
    (hcommands : ∀ env ∈ scope.commands,
      env.body.idempotencyKey = "" ∧ env.body.messageID ∈ ids)
    (hdeadlines : ∀ env ∈ scope.deadlines, env.body.messageID ∈ ids) :
    Tx.Asks (Asked h ids instanceID held)
      (completeEvent h b instanceID scope : Stmt E _).run := by
  unfold completeEvent
  refine Tx.Asks.except_bind (addCommandsToQueue_asks hcommands) ?_
  intro _
  split
  · exact endInstance_asks hinstance
  · exact saveScope_asks hinstance hdeadlines

theorem completeDeadline_asks {messageID : UUID}
    (hinstance : held (.processInstance h.key instanceID) = true)
    (hdeadline : held (.deadline messageID) = true)
    (hcommands : ∀ env ∈ scope.commands,
      env.body.idempotencyKey = "" ∧ env.body.messageID ∈ ids)
    (hdeadlines : ∀ env ∈ scope.deadlines, env.body.messageID ∈ ids) :
    Tx.Asks (Asked h ids instanceID held)
      (completeDeadline h b messageID instanceID scope : Stmt E _).run := by
  have hdelete : Tx.Asks (Asked h ids instanceID held)
      (deleteDeadline messageID : Stmt E _).run := by
    unfold deleteDeadline
    refine Tx.Asks.except_bind (Tx.asks_lock (.held hdeadline)) ?_
    intro row
    split
    · exact Tx.asks_abort
    · exact Tx.asks_write
  unfold completeDeadline
  refine Tx.Asks.except_bind (addCommandsToQueue_asks hcommands) ?_
  intro _
  split
  · exact endInstance_asks hinstance
  · exact Tx.Asks.except_bind (saveScope_asks hinstance hdeadlines) fun _ => hdelete

theorem handleDelivery_asks {a : DeadlineAttempt ρ} {del : Delivery} {env : Envelope}
    (hinstance : held (.processInstance h.key env.header.instanceID) = true)
    (hdeadline : held (.deadline del.messageID) = true) :
    Tx.Asks (Asked h a.behavior.generated env.header.instanceID held)
      (handleDelivery h a del env).run := by
  unfold handleDelivery
  split
  swap
  · exact Tx.asks_throw
  refine Tx.Asks.except_bind newRoot_asks ?_
  intro root
  unfold handleDeadline
  refine Tx.Asks.except_bind (loadInstance_asks hinstance) ?_
  intro loaded
  cases loaded with
  | none => exact Tx.asks_throw
  | some root =>
      refine Tx.Asks.except_bind Tx.asks_emit ?_
      intro _
      split
      · exact Tx.asks_throw
      · rename_i scope hscope
        obtain ⟨hcommands, hdeadlines⟩ := handleMessage_ids hscope
        exact completeDeadline_asks hinstance hdeadline hcommands hdeadlines

end Asked

/-! ## From the beginning -/

/-- What a transaction of a process handler may be about to request. -/
inductive Requested (h : ProcessHandler ρ) (ids : List UUID) :
    LockRequest Key Row → Session Key Row (Observation ρ) → Prop where
  /-- A sink waits for its checkpoint first. -/
  | checkpoint {streamID : UUID} {s : Session Key Row (Observation ρ)}
      (hnone : ∀ k, s.locks k = false) :
      Requested h ids (.row (.handlerCheckpoint h.key streamID)) s
  /-- It waits for an instance when it has locked its checkpoint. -/
  | instance_ {streamID : UUID} {instanceID : String} {s : Session Key Row (Observation ρ)}
      (honly : ∀ k, s.locks k = true → k = .handlerCheckpoint h.key streamID) :
      Requested h ids (.row (.processInstance h.key instanceID)) s
  /-- A deadline pump visits deadlines that are due, and their instances. -/
  | visitsDeadline {messageID : UUID} {now : Time} {s : Session Key Row (Observation ρ)} :
      Requested h ids (.skipLocked (.deadline messageID) (deadlineIsDue h now)) s
  | visitsInstance {key : UUID} {instanceID : String}
      {visible : Row (.processInstance key instanceID) → Bool}
      {s : Session Key Row (Observation ρ)} :
      Requested h ids (.skipLocked (.processInstance key instanceID) visible) s
  /-- Locks that are held are requested again. -/
  | held {k : Key} {s : Session Key Row (Observation ρ)} (hheld : s.locks k = true) :
      Requested h ids (.row k) s
  | command {id : UUID} {s : Session Key Row (Observation ρ)} (hid : id ∈ ids) :
      Requested h ids (.row (.command id)) s
  | deadline {id : UUID} {s : Session Key Row (Observation ρ)} (hid : id ∈ ids) :
      Requested h ids (.row (.deadline id)) s
  /-- The deadlines of an instance are deleted when the instance is locked. -/
  | deletes {instanceID : String} {s : Session Key Row (Observation ρ)}
      (hinstance : s.locks (.processInstance h.key instanceID) = true) :
      Requested h ids (.rows (isDeadlineOf h.key instanceID)) s

section Requested

variable {h : ProcessHandler ρ} {rows : Database} {s t : Session Key Row (Observation ρ)}

theorem Asked.requested {ids : List UUID} {instanceID : String} {w : LockRequest Key Row}
    (hinstance : s.locks (.processInstance h.key instanceID) = true)
    (hasked : Asked h ids instanceID s.locks w)
    (hlocks : ∀ k, s.locks k = true → t.locks k = true) : Requested h ids w t := by
  cases hasked with
  | held hheld => exact .held (hlocks _ hheld)
  | command hid => exact .command hid
  | deadline hid => exact .deadline hid
  | deletes => exact .deletes (hlocks _ hinstance)

theorem acquireDelivery_requests {ids : List UUID} {now : Time} {visited : List UUID} :
    Tx.Requests databaseRely rows (Requested h ids)
      (acquireDelivery h now visited : Stmt (Observation ρ) _).run s := by
  have hasks : Tx.Asks (fun w => (∃ messageID, w = .skipLocked (.deadline messageID)
        (deadlineIsDue h now)) ∨ ∃ key instanceID visible,
        w = .skipLocked (.processInstance key instanceID) visible)
      (acquireDelivery h now visited : Stmt (Observation ρ) _).run := by
    induction visited with
    | nil => exact Tx.asks_ok
    | cons messageID rest ih =>
        unfold acquireDelivery
        refine Tx.Asks.except_bind (Tx.asks_tryLock (Or.inl ⟨messageID, rfl⟩)) ?_
        intro row
        split
        · refine Tx.Asks.except_bind (Tx.asks_tryLock (Or.inr ⟨_, _, _, rfl⟩)) ?_
          intro instance_
          split
          · exact Tx.asks_ok
          · exact ih
        · exact ih
  refine Tx.Requests.of_asks hasks ?_
  intro w t hw _
  obtain ⟨messageID, rfl⟩ | ⟨key, instanceID, visible, rfl⟩ := hw
  · exact .visitsDeadline
  · exact .visitsInstance

/-- What a deadline pump requests, as long as the columns of the deadlines agree
with their envelopes. -/
theorem deadlinePump_requests {p : Backoff} {c : Circumstances} {a : DeadlineAttempt ρ}
    (hagrees : ∀ messageID row, rows (.deadline messageID) = some row →
      row.instanceID = row.envelope.header.instanceID) :
    Tx.Requests databaseRely rows (Requested h a.behavior.generated)
      (deliver (deadlinePump h c a) p c).run .start := by
  have hacquired : ∀ {del : Delivery} {u : Session Key Row (Observation ρ)},
      Tx.Runs databaseRely rows (acquireDelivery h c.acquiredAt c.visited).run .start
        (.ok (some del)) u →
      u.locks (.deadline del.messageID) = true ∧
        u.locks (.processInstance h.key del.envelope.header.instanceID) = true := by
    intro del u hacquire
    obtain ⟨-, -, hr | ⟨messageID, row, hr, hacquired⟩⟩ := acquireDelivery_runs rfl hacquire
    · cases hr
    cases hr
    have hlocked := hacquired.instance_locked
    rw [hacquired.handlerKey, hagrees messageID row hacquired.row_eq] at hlocked
    exact ⟨hacquired.locked, hlocked⟩
  refine deliver_requests acquireDelivery_requests ?_ ?_
  · intro del u hacquire
    obtain ⟨hdeadline, hinstance⟩ := hacquired hacquire
    refine Tx.Requests.of_asks (handleDelivery_asks hinstance hdeadline) ?_
    exact fun w v hasked hlocks => hasked.requested hinstance hlocks
  · intro del u hacquire del' delay v hid hlocks
    obtain ⟨hdeadline, -⟩ := hacquired hacquire
    have hheld : v.locks (.deadline del'.messageID) = true := by
      rw [hid]
      exact hlocks _ hdeadline
    change Tx.Requests databaseRely rows _ (postponeDelivery c.postponedAt del' delay).run v
    unfold postponeDelivery
    refine Tx.Requests.lock_bind (.held hheld) (Tx.Requests.of_none ?_)
    split
    · exact Tx.asks_abort
    · exact Tx.asks_write

theorem updateCheckpoint_requests {ids : List UUID} {streamID : UUID} {next : Nat}
    (hheld : s.locks (.handlerCheckpoint h.key streamID) = true) :
    Tx.Requests databaseRely rows (Requested h ids)
      (updateCheckpoint h.key streamID next : Stmt (Observation ρ) _).run s := by
  unfold updateCheckpoint
  refine Tx.Requests.lock_bind (.held hheld) (Tx.Requests.of_none ?_)
  split
  · exact Tx.asks_abort
  · exact Tx.asks_write

theorem dispatch_requests {a : EventAttempt ρ} {env : Envelope} {streamID : UUID}
    (honly : ∀ k, s.locks k = true → k = .handlerCheckpoint h.key streamID) :
    Tx.Requests databaseRely rows (Requested h a.behavior.generated)
      (dispatch h a env).run s := by
  unfold dispatch
  split
  swap
  · exact Tx.Requests.of_none Tx.asks_abort
  refine Tx.Requests.except_bind (Tx.Requests.of_none routeEventToInstance_asks) ?_
  intro routed u hroute
  cases routed with
  | none => exact Tx.Requests.of_none Tx.asks_ok
  | some instanceID =>
      obtain ⟨rfl, -⟩ := routeEventToInstance_runs hroute
      refine Tx.Requests.except_bind (Tx.Requests.of_none newRoot_asks) ?_
      intro root v hnew
      obtain ⟨hr | hr, rfl⟩ := newRoot_runs hnew <;> cases hr
      unfold handleEvent
      refine Tx.Requests.except_bind ?_ ?_
      · unfold loadInstance upsertInstance
        refine Tx.Requests.except_bind (Tx.Requests.lock_bind (.instance_ honly) ?_) ?_
        · refine Tx.Requests.of_none ?_
          split
          · exact Tx.asks_ok
          · exact Tx.Asks.except_bind Tx.asks_write fun _ => Tx.asks_ok
        · exact fun _ _ _ => Tx.Requests.of_none restoreState_asks
      intro loaded w hload
      obtain ⟨-, -, -, hinstance, -⟩ := loadInstance_runs hload
      cases loaded with
      | none => exact Tx.Requests.of_none Tx.asks_ok
      | some root =>
          refine Tx.Requests.of_asks
            (?_ : Tx.Asks (Asked h a.behavior.generated instanceID w.locks) _)
            fun _ _ hasked hlocks => hasked.requested hinstance hlocks
          refine Tx.Asks.except_bind Tx.asks_emit ?_
          intro _
          split
          · exact Tx.asks_abort
          · rename_i scope hscope
            obtain ⟨hcommands, hdeadlines⟩ := handleMessage_ids hscope
            exact Tx.Asks.except_bind (completeEvent_asks hinstance hcommands hdeadlines)
              fun _ => Tx.asks_ok

theorem upsertCheckpoint_requests {handlerKey streamID : UUID}
    {Φ : LockRequest Key Row → Session Key Row (Observation ρ) → Prop}
    (hcheckpoint : Φ (.row (.handlerCheckpoint handlerKey streamID)) s) :
    Tx.Requests databaseRely rows Φ
      (upsertCheckpoint handlerKey streamID : Stmt (Observation ρ) _).run s := by
  unfold upsertCheckpoint
  refine Tx.Requests.lock_bind hcheckpoint (Tx.Requests.of_none ?_)
  split
  · exact Tx.asks_ok
  · exact Tx.Asks.except_bind Tx.asks_write fun _ => Tx.asks_ok

/-- What a sink requests. -/
theorem consume_requests {call : ConsumeCall ρ} :
    Tx.Requests databaseRely rows (Requested h call.attempt.behavior.generated)
      (consume h call).run .start := by
  unfold consume
  refine Tx.Requests.except_bind (upsertCheckpoint_requests (.checkpoint fun _ => rfl)) ?_
  intro actual u hupsert
  obtain ⟨-, -, -, -, hheld, -⟩ := upsertCheckpoint_runs hupsert
  have honly : ∀ k, u.locks k = true → k = .handlerCheckpoint h.key call.streamID := by
    intro k hk
    have hrequests : Tx.Requests databaseRely rows
        (fun w _ => w = .row (.handlerCheckpoint h.key call.streamID))
        (upsertCheckpoint h.key call.streamID : Stmt (Observation ρ) _).run .start :=
      upsertCheckpoint_requests rfl
    obtain hstart | honly := Tx.Visits.granted
      (P := fun k => k = .handlerCheckpoint h.key call.streamID) hupsert Session.start_disciplined
      hrequests (fun w v k _ hw hcovers => by subst hw; exact Or.inr hcovers) hk
    · cases hstart
    · exact honly
  split
  · exact Tx.Requests.of_none Tx.asks_ok
  split
  · exact Tx.Requests.except_bind (updateCheckpoint_requests hheld)
      fun _ _ _ => Tx.Requests.of_none Tx.asks_ok
  · refine Tx.Requests.except_bind (dispatch_requests honly) ?_
    intro disposition v hdispatch
    have hheld' := Tx.Visits.locks_mono hdispatch _ hheld
    refine Tx.Requests.except_bind (Tx.Requests.of_none Tx.asks_emit) ?_
    intro _ w hemit
    have hheld'' := Tx.Visits.locks_mono hemit _ hheld'
    exact Tx.Requests.except_bind (updateCheckpoint_requests hheld'')
      fun _ _ _ => Tx.Requests.of_none Tx.asks_ok

end Requested

end Runkit.Process
