/-
  Process/Effects.lean --- what the statements of process handlers do to the
  database.

  The effects of a scope are applied by several statements.  `applyScope` is what
  they do taken together.
-/
import Runkit.Process.Instance

set_option autoImplicit false

namespace Runkit.Process

open Runkit.Foundation Runkit.Schema Runkit.Schema.Stmt Runkit.MessagePump

variable {ρ E : Type} {rely : Rely Key Row} {rows : Database}

/-! ## Queues -/

/-- The key of the queue row of the command in an envelope. -/
abbrev commandKey (env : Envelope) : Key := .command env.body.messageID

/-- The key of the row of the deadline in an envelope. -/
abbrev deadlineKey (env : Envelope) : Key := .deadline env.body.messageID

/-- The database after the given commands have been added to the queue. -/
def withCommands (now : Time) (envs : List Envelope) (db : Database) : Database :=
  Tx.insertAll commandKey (fun env => some (CommandQueue.newRow env now)) envs db

/-- The database after the given deadlines have been persisted. -/
def withDeadlines (envs : List Envelope) (db : Database) : Database :=
  Tx.insertAll deadlineKey (fun env => some (newDeadlineRow env)) envs db

section Queues

variable {s t : Session Key Row E} {r : Except Error Unit}

theorem addCommandsToQueue_runs {now : Time} {envs : List Envelope}
    (hkeys : ∀ env ∈ envs, env.body.idempotencyKey = "")
    (h : Tx.Runs rely rows (addCommandsToQueue now envs : Stmt E _).run s r t) :
    r = .ok () ∧ t.trace = s.trace ∧ t.view rows = withCommands now envs (s.view rows) ∧
      (∀ env ∈ envs, s.view rows (.command env.body.messageID) = none) ∧
      (envs.map (·.body.messageID)).Nodup := by
  induction envs generalizing s with
  | nil =>
      obtain ⟨hr, rfl⟩ := Tx.runs_ok.mp h
      exact ⟨hr, rfl, rfl, by simp, by simp⟩
  | cons env rest ih =>
      rw [addCommandsToQueue] at h
      have hkey := hkeys env List.mem_cons_self
      have hrestKeys : ∀ env ∈ rest, env.body.idempotencyKey = "" :=
        fun env henv => hkeys env (List.mem_cons_of_mem _ henv)
      obtain ⟨e, -, herror⟩ | ⟨added, u, hadd, hrest⟩ := Tx.runs_except_bind.mp h
      · obtain ⟨_, hne, -⟩ | ⟨hne, -⟩ | ⟨-, -, hr, -⟩ := CommandQueue.add_runs herror
        · exact absurd hkey hne
        · exact absurd hkey hne
        · cases hr
      obtain ⟨_, hne, -⟩ | ⟨hne, -⟩ | ⟨-, hnone, -, rfl⟩ := CommandQueue.add_runs hadd
      · exact absurd hkey hne
      · exact absurd hkey hne
      obtain ⟨hr, htrace, hview, hfresh, hdistinct⟩ := ih hrestKeys hrest
      have hinserted : (CommandQueue.inserted env now s).view rows =
          Function.update (s.view rows) (.command env.body.messageID)
            (some (CommandQueue.newRow env now)) := by
        simp [CommandQueue.inserted]
      have hother : ∀ env' ∈ rest, env'.body.messageID ≠ env.body.messageID := by
        intro env' henv' heq
        have hnone' := hfresh env' henv'
        rw [hinserted, heq, Function.update_self] at hnone'
        cases hnone'
      refine ⟨hr, htrace, ?_, ?_, ?_⟩
      · rw [hview, hinserted]
        rfl
      · intro env' henv'
        obtain rfl | henv' := List.mem_cons.mp henv'
        · exact hnone
        · have hnone' := hfresh env' henv'
          rwa [hinserted, Function.update_of_ne (by simpa using hother env' henv')] at hnone'
      · rw [List.map_cons, List.nodup_cons]
        refine ⟨?_, hdistinct⟩
        intro hmem
        obtain ⟨env', henv', heq⟩ := List.mem_map.mp hmem
        exact hother env' henv' heq

theorem persistDeadlines_runs {envs : List Envelope}
    (h : Tx.Runs rely rows (persistDeadlines envs : Stmt E _).run s r t) :
    r = .ok () ∧ t.trace = s.trace ∧ t.view rows = withDeadlines envs (s.view rows) ∧
      (∀ env ∈ envs, s.view rows (.deadline env.body.messageID) = none) ∧
      (envs.map (·.body.messageID)).Nodup := by
  induction envs generalizing s with
  | nil =>
      obtain ⟨hr, rfl⟩ := Tx.runs_ok.mp h
      exact ⟨hr, rfl, rfl, by simp, by simp⟩
  | cons env rest ih =>
      rw [persistDeadlines, Tx.runs_lock_bind] at h
      split at h
      · exact absurd h (by simp)
      rename_i hnone
      obtain ⟨-, hrest⟩ := Tx.runs_write_bind.mp h
      obtain ⟨hr, htrace, hview, hfresh, hdistinct⟩ := ih hrest
      simp only [Session.put_view, Session.acquire_view] at hview hfresh
      have hother : ∀ env' ∈ rest, env'.body.messageID ≠ env.body.messageID := by
        intro env' henv' heq
        have hnone' := hfresh env' henv'
        rw [heq, Function.update_self] at hnone'
        cases hnone'
      refine ⟨hr, htrace, hview, ?_, ?_⟩
      · intro env' henv'
        obtain rfl | henv' := List.mem_cons.mp henv'
        · exact hnone
        · have hnone' := hfresh env' henv'
          rwa [Function.update_of_ne (by simpa using hother env' henv')] at hnone'
      · rw [List.map_cons, List.nodup_cons]
        refine ⟨?_, hdistinct⟩
        intro hmem
        obtain ⟨env', henv', heq⟩ := List.mem_map.mp hmem
        exact hother env' henv' heq

end Queues

/-! ## Instances -/

/-- The database after the row of an instance has been written. -/
def withInstance (handlerKey : UUID) (instanceID : String) (row : ProcessInstanceRow)
    (db : Database) : Database :=
  Function.update db (.processInstance handlerKey instanceID) (some row)

/-- The database after the deadlines of an instance have been deleted. -/
def withoutDeadlinesOf (handlerKey : UUID) (instanceID : String) (db : Database) : Database :=
  fun k => if isDeadlineOf handlerKey instanceID k (db k) then deleteRow k (db k) else db k

/-- The database after an instance whose root may have been mutated is saved. -/
def withScope (h : ProcessHandler ρ) (instanceID : String) (row : ProcessInstanceRow)
    (scope : Scope ρ) (db : Database) : Database :=
  if scope.mutated then
    withInstance h.key instanceID { row with state := h.marshalBinary scope.root } db
  else
    db

/-- The database after the effects of a scope have been applied to it: the
commands are in the queue, and the instance has either ended or been saved along
with its deadlines. -/
def applyScope (h : ProcessHandler ρ) (b : Behavior ρ) (instanceID : String)
    (row : ProcessInstanceRow) (scope : Scope ρ) (db : Database) : Database :=
  if scope.ended then
    withoutDeadlinesOf h.key instanceID (withInstance h.key instanceID
      { row with ended := true, state := none } (withCommands b.now scope.commands db))
  else
    withDeadlines scope.deadlines (withScope h instanceID row scope
      (withCommands b.now scope.commands db))

section Lookups

variable {now : Time} {envs : List Envelope} {db : Database} {k : Key}

theorem withCommands_of_ne (hk : ∀ messageID, k ≠ .command messageID) :
    withCommands now envs db k = db k :=
  Tx.insertAll_of_not_mem fun env _ => hk env.body.messageID

theorem withCommands_of_not_mem {messageID : UUID}
    (hmessage : ∀ env ∈ envs, env.body.messageID ≠ messageID) :
    withCommands now envs db (.command messageID) = db (.command messageID) := by
  apply Tx.insertAll_of_not_mem
  intro env henv heq
  exact hmessage env henv (Key.command.inj heq).symm

theorem withCommands_of_mem {env : Envelope} (henv : env ∈ envs)
    (hdistinct : (envs.map (·.body.messageID)).Nodup) :
    withCommands now envs db (.command env.body.messageID) =
      some (CommandQueue.newRow env now) := by
  have hkeys : (envs.map commandKey).Nodup := by
    have hinjective : Function.Injective Key.command := fun _ _ heq => Key.command.inj heq
    simpa [commandKey, Function.comp_def] using hdistinct.map hinjective
  exact Tx.insertAll_of_mem henv hkeys

theorem withDeadlines_of_ne (hk : ∀ messageID, k ≠ .deadline messageID) :
    withDeadlines envs db k = db k :=
  Tx.insertAll_of_not_mem fun env _ => hk env.body.messageID

theorem withDeadlines_of_not_mem {messageID : UUID}
    (hmessage : ∀ env ∈ envs, env.body.messageID ≠ messageID) :
    withDeadlines envs db (.deadline messageID) = db (.deadline messageID) := by
  apply Tx.insertAll_of_not_mem
  intro env henv heq
  exact hmessage env henv (Key.deadline.inj heq).symm

theorem withDeadlines_of_mem {env : Envelope} (henv : env ∈ envs)
    (hdistinct : (envs.map (·.body.messageID)).Nodup) :
    withDeadlines envs db (.deadline env.body.messageID) = some (newDeadlineRow env) := by
  have hkeys : (envs.map deadlineKey).Nodup := by
    have hinjective : Function.Injective Key.deadline := fun _ _ heq => Key.deadline.inj heq
    simpa [deadlineKey, Function.comp_def] using hdistinct.map hinjective
  exact Tx.insertAll_of_mem henv hkeys

theorem withoutDeadlinesOf_of_ne {handlerKey : UUID} {instanceID : String}
    (hk : ∀ messageID, k ≠ .deadline messageID) :
    withoutDeadlinesOf handlerKey instanceID db k = db k := by
  cases k with
  | deadline messageID => exact absurd rfl (hk messageID)
  | _ => rfl

theorem withoutDeadlinesOf_deadline {handlerKey : UUID} {instanceID : String}
    {messageID : UUID} :
    withoutDeadlinesOf handlerKey instanceID db (.deadline messageID) =
      if belongsTo handlerKey instanceID (db (.deadline messageID)) then none
      else db (.deadline messageID) :=
  rfl

variable {h : ProcessHandler ρ} {b : Behavior ρ} {instanceID : String}
  {row : ProcessInstanceRow} {scope : Scope ρ}

theorem withScope_of_ne (hk : k ≠ .processInstance h.key instanceID) :
    withScope h instanceID row scope db k = db k := by
  unfold withScope withInstance
  split
  · rw [Function.update_of_ne hk]
  · rfl

/-- Applying a scope changes nothing but the command queue, the instance and the
deadlines. -/
theorem applyScope_of_ne (hcommand : ∀ messageID, k ≠ .command messageID)
    (hdeadline : ∀ messageID, k ≠ .deadline messageID)
    (hinstance : k ≠ .processInstance h.key instanceID) :
    applyScope h b instanceID row scope db k = db k := by
  unfold applyScope
  split
  · rw [withoutDeadlinesOf_of_ne hdeadline, withInstance, Function.update_of_ne hinstance,
      withCommands_of_ne hcommand]
  · rw [withDeadlines_of_ne hdeadline, withScope_of_ne hinstance, withCommands_of_ne hcommand]

theorem applyScope_command {messageID : UUID} :
    applyScope h b instanceID row scope db (.command messageID) =
      withCommands b.now scope.commands db (.command messageID) := by
  unfold applyScope
  split
  · rw [withoutDeadlinesOf_of_ne (by simp), withInstance, Function.update_of_ne (by simp)]
  · rw [withDeadlines_of_ne (by simp), withScope_of_ne (by simp)]

/-- Applying a scope that has ended deletes the deadlines of the instance. -/
theorem applyScope_deadline_of_ended (hended : scope.ended = true) {messageID : UUID} :
    applyScope h b instanceID row scope db (.deadline messageID) =
      if belongsTo h.key instanceID (db (.deadline messageID)) then none
      else db (.deadline messageID) := by
  unfold applyScope
  rw [if_pos hended, withoutDeadlinesOf_deadline, withInstance,
    Function.update_of_ne (by simp), withCommands_of_ne (by simp)]

/-- Applying a scope that has not ended persists its deadlines. -/
theorem applyScope_deadline_of_active (hended : scope.ended = false) {messageID : UUID} :
    applyScope h b instanceID row scope db (.deadline messageID) =
      withDeadlines scope.deadlines db (.deadline messageID) := by
  unfold applyScope
  rw [if_neg (by simp [hended])]
  apply Tx.insertAll_congr
  rw [withScope_of_ne (by simp), withCommands_of_ne (by simp)]

/-- Applying a scope does not change which deadlines belong to another
instance. -/
theorem applyScope_belongsTo {cause : Envelope} {ids : List UUID} {messageID : UUID}
    {handlerKey : UUID} {other : String}
    (hpacked : scope.PackedBy h cause instanceID ids)
    (hfresh : scope.ended = false →
      ∀ env ∈ scope.deadlines, db (.deadline env.body.messageID) = none)
    (hdistinct : scope.ended = false → (scope.deadlines.map (·.body.messageID)).Nodup)
    (hother : ¬ (h.key = handlerKey ∧ instanceID = other)) :
    belongsTo handlerKey other (applyScope h b instanceID row scope db (.deadline messageID)) =
      belongsTo handlerKey other (db (.deadline messageID)) := by
  cases hended : scope.ended with
  | true =>
      rw [applyScope_deadline_of_ended hended]
      split
      · rename_i hbelongs
        cases hrow : db (.deadline messageID) with
        | none => rfl
        | some deadline =>
            rw [hrow, belongsTo, decide_eq_true_eq] at hbelongs
            simp only [belongsTo, hbelongs.1, hbelongs.2, hother, decide_false]
      · rfl
  | false =>
      rw [applyScope_deadline_of_active hended]
      by_cases hmem : ∃ env ∈ scope.deadlines, env.body.messageID = messageID
      · obtain ⟨env, henv, rfl⟩ := hmem
        obtain ⟨hkey, hinstance⟩ := hpacked.deadline_source henv
        rw [withDeadlines_of_mem henv (hdistinct hended), hfresh hended env henv]
        simp only [belongsTo, newDeadlineRow, hkey, hinstance, hother, decide_false]
      · rw [withDeadlines_of_not_mem fun env henv heq => hmem ⟨env, henv, heq⟩]

end Lookups

section Instances

variable {s t : Session Key Row E} {r : Except Error Unit}

theorem updateInstance_runs {handlerKey : UUID} {instanceID : String}
    {update : ProcessInstanceRow → ProcessInstanceRow} {row : ProcessInstanceRow}
    (hrow : s.view rows (.processInstance handlerKey instanceID) = some row)
    (h : Tx.Runs rely rows
      (updateInstance handlerKey instanceID update : Stmt E _).run s r t) :
    r = .ok () ∧ t = (s.acquire (.processInstance handlerKey instanceID)).put
      (.processInstance handlerKey instanceID) (some (update row)) := by
  unfold updateInstance at h
  rw [Tx.runs_lock_bind, hrow, Tx.runs_write_last] at h
  exact h.2

/-- Deleting the deadlines of an instance misses none of them, even though the
statement looks for them without holding locks on them: the instance is
locked. -/
theorem sweep_view_eq {handlerKey : UUID} {instanceID : String} {seen : Database}
    (hlock : s.locks (.processInstance handlerKey instanceID) = true)
    (hseen : ∀ k, databaseRely.allows s.locks k (seen k) (rows k))
    (hexact : ∀ k, (s.sweep seen (isDeadlineOf handlerKey instanceID) deleteRow).locks k = true →
      seen k = rows k) :
    (s.sweep seen (isDeadlineOf handlerKey instanceID) deleteRow).view rows =
      withoutDeadlinesOf handlerKey instanceID (s.view rows) := by
  have hmatch : ∀ k, isDeadlineOf handlerKey instanceID k (s.view seen k) =
      isDeadlineOf handlerKey instanceID k (s.view rows k) := by
    intro k
    cases k with
    | deadline messageID =>
        unfold isDeadlineOf Session.view
        cases s.pending (.deadline messageID) with
        | some row => rfl
        | none => exact (hseen (.deadline messageID) handlerKey instanceID hlock).symm
    | _ => rfl
  funext k
  unfold withoutDeadlinesOf
  rw [Session.sweep_view, hmatch k]
  by_cases hk : isDeadlineOf handlerKey instanceID k (s.view rows k) = true
  · have hseenk : seen k = rows k :=
      hexact k (Session.sweep_locks _ _ _ _ k (Or.inr ((hmatch k).trans hk)))
    have hview : s.view seen k = s.view rows k := by
      unfold Session.view
      rw [hseenk]
    rw [hview]
  · rw [if_neg hk, if_neg hk]

theorem endInstance_runs {handlerKey : UUID} {instanceID : String} {row : ProcessInstanceRow}
    (hrow : s.view rows (.processInstance handlerKey instanceID) = some row)
    (h : Tx.Runs databaseRely rows
      (endInstance handlerKey instanceID : Stmt E _).run s r t) :
    r = .ok () ∧ t.trace = s.trace ∧
      t.view rows = withoutDeadlinesOf handlerKey instanceID (withInstance handlerKey instanceID
        { row with ended := true, state := none } (s.view rows)) := by
  unfold endInstance at h
  obtain ⟨e, -, herror⟩ | ⟨_, u, hupdate, hsweep⟩ := Tx.runs_except_bind.mp h
  · cases (updateInstance_runs hrow herror).1
  obtain ⟨-, rfl⟩ := updateInstance_runs hrow hupdate
  obtain ⟨seen, hseen, hexact, hr, rfl⟩ := Tx.runs_sweep_last.mp hsweep
  refine ⟨hr, rfl, ?_⟩
  rw [sweep_view_eq (by simp) hseen hexact]
  simp [withInstance]

theorem saveInstance_runs {h : ProcessHandler ρ} {b : Behavior ρ} {instanceID : String}
    {root : ρ} {row : ProcessInstanceRow}
    (hrow : s.view rows (.processInstance h.key instanceID) = some row)
    (hruns : Tx.Runs rely rows (saveInstance h b instanceID root : Stmt E _).run s r t) :
    (b.marshals = false ∧ r = .error .failed ∧ t = s) ∨
      (b.marshals = true ∧ r = .ok () ∧ t.trace = s.trace ∧ t.view rows =
        withInstance h.key instanceID { row with state := h.marshalBinary root }
          (s.view rows)) := by
  unfold saveInstance at hruns
  split at hruns
  · rename_i hmarshals
    obtain ⟨hr, rfl⟩ := updateInstance_runs hrow hruns
    exact Or.inr ⟨hmarshals, hr, rfl, by simp [withInstance]⟩
  · rename_i hmarshals
    obtain ⟨hr, ht⟩ := Tx.runs_throw.mp hruns
    exact Or.inl ⟨by simpa using hmarshals, hr, ht⟩

/-- What is done with a scope that was not ended. -/
theorem saveScope_runs {h : ProcessHandler ρ} {b : Behavior ρ} {instanceID : String}
    {scope : Scope ρ} {row : ProcessInstanceRow}
    (hrow : s.view rows (.processInstance h.key instanceID) = some row)
    (hruns : Tx.Runs rely rows (saveScope h b instanceID scope : Stmt E _).run s r t) :
    (scope.mutated = true ∧ b.marshals = false ∧ r = .error .failed ∧ t = s) ∨
      ((scope.mutated = true → b.marshals = true) ∧ r = .ok () ∧ t.trace = s.trace ∧
        t.view rows = withDeadlines scope.deadlines
          (withScope h instanceID row scope (s.view rows)) ∧
        (∀ env ∈ scope.deadlines, s.view rows (.deadline env.body.messageID) = none) ∧
        (scope.deadlines.map (·.body.messageID)).Nodup) := by
  unfold saveScope at hruns
  unfold withScope
  split at hruns
  · rename_i hmutated
    rw [if_pos hmutated]
    obtain ⟨e, rfl, herror⟩ | ⟨_, u, hsave, hpersist⟩ := Tx.runs_except_bind.mp hruns
    · obtain ⟨hmarshals, hr, ht⟩ | ⟨-, hr, -⟩ := saveInstance_runs hrow herror
      · exact Or.inl ⟨hmutated, hmarshals, hr, ht⟩
      · cases hr
    obtain ⟨-, hr, -⟩ | ⟨hmarshals, -, htrace, hview⟩ := saveInstance_runs hrow hsave
    · cases hr
    obtain ⟨hr, htrace', hview', hfresh, hdistinct⟩ := persistDeadlines_runs hpersist
    rw [hview] at hview' hfresh
    refine Or.inr ⟨fun _ => hmarshals, hr, htrace'.trans htrace, hview', ?_, hdistinct⟩
    intro env henv
    simpa [withInstance] using hfresh env henv
  · rename_i hmutated
    rw [if_neg hmutated]
    exact Or.inr ⟨fun h => absurd h hmutated, persistDeadlines_runs hruns⟩

end Instances

/-! ## Loading -/

section Loading

variable {s t : Session Key Row E}

theorem newRoot_runs {h : ProcessHandler ρ} {b : Behavior ρ} {r : Except Error ρ}
    (hruns : Tx.Runs rely rows (newRoot h b : Stmt E _).run s r t) :
    (r = .ok h.new ∨ r = .error .failed) ∧ t = s := by
  unfold newRoot at hruns
  split at hruns
  · obtain ⟨hr, ht⟩ := Tx.runs_ok.mp hruns
    exact ⟨Or.inl hr, ht⟩
  · obtain ⟨hr, ht⟩ := Tx.runs_throw.mp hruns
    exact ⟨Or.inr hr, ht⟩

/-- The root that `loadInstance` returns for an instance with the given row,
unless it has ended. -/
def loadedRoot (h : ProcessHandler ρ) (row : ProcessInstanceRow) : ρ :=
  match row.state with
  | none => h.new
  | some state => h.unmarshalBinary h.new (some state)

theorem upsertInstance_runs {handlerKey : UUID} {instanceID : String}
    {r : Except Error ProcessInstanceRow}
    (hruns : Tx.Runs rely rows (upsertInstance handlerKey instanceID : Stmt E _).run s r t) :
    ∃ row, r = .ok row ∧
      row = (s.view rows (.processInstance handlerKey instanceID)).getD newInstanceRow ∧
      t.view rows = withInstance handlerKey instanceID row (s.view rows) ∧
      t.locks (.processInstance handlerKey instanceID) = true ∧ t.trace = s.trace := by
  unfold upsertInstance at hruns
  rw [Tx.runs_lock_bind] at hruns
  unfold withInstance
  split at hruns
  · rename_i row hrow
    obtain ⟨rfl, rfl⟩ := Tx.runs_ok.mp hruns
    refine ⟨row, rfl, by rw [hrow]; rfl, ?_, by simp, rfl⟩
    rw [Session.acquire_view, ← hrow, Function.update_eq_self]
  · rename_i hnone
    obtain ⟨-, hdone⟩ := Tx.runs_write_bind.mp hruns
    obtain ⟨rfl, rfl⟩ := Tx.runs_ok.mp hdone
    exact ⟨newInstanceRow, rfl, by rw [hnone]; rfl, by simp, by simp, rfl⟩

/-- What a run of `loadInstance` can do: the row of the instance is in the
database and locked by then. -/
theorem loadInstance_runs {h : ProcessHandler ρ} {b : Behavior ρ} {instanceID : String}
    {r : Except Error (Option ρ)}
    (hruns : Tx.Runs rely rows (loadInstance h b instanceID h.new : Stmt E _).run s r t) :
    ∃ row, row = (s.view rows (.processInstance h.key instanceID)).getD newInstanceRow ∧
      t.view rows = withInstance h.key instanceID row (s.view rows) ∧
      t.locks (.processInstance h.key instanceID) = true ∧ t.trace = s.trace ∧
      ((row.ended = true ∧ r = .ok none) ∨
        (row.ended = false ∧ (r = .error .failed ∨ r = .ok (some (loadedRoot h row))))) := by
  unfold loadInstance at hruns
  obtain ⟨e, -, herror⟩ | ⟨row, u, hupsert, hrestore⟩ := Tx.runs_except_bind.mp hruns
  · obtain ⟨_, hr, -⟩ := upsertInstance_runs herror
    cases hr
  obtain ⟨_, hr, hrow, hview, hlock, htrace⟩ := upsertInstance_runs hupsert
  cases hr
  unfold restoreState at hrestore
  refine ⟨row, hrow, ?_⟩
  unfold loadedRoot
  split at hrestore
  · rename_i hended
    obtain ⟨hr, rfl⟩ := Tx.runs_ok.mp hrestore
    exact ⟨hview, hlock, htrace, Or.inl ⟨hended, hr⟩⟩
  · rename_i hended
    have hended' : row.ended = false := by simpa using hended
    split at hrestore
    · rename_i hstate
      obtain ⟨hr, rfl⟩ := Tx.runs_ok.mp hrestore
      exact ⟨hview, hlock, htrace, Or.inr ⟨hended', Or.inr (by simpa [hstate] using hr)⟩⟩
    · rename_i state hstate
      split at hrestore
      · obtain ⟨hr, rfl⟩ := Tx.runs_ok.mp hrestore
        exact ⟨hview, hlock, htrace, Or.inr ⟨hended', Or.inr (by simpa [hstate] using hr)⟩⟩
      · obtain ⟨hr, rfl⟩ := Tx.runs_throw.mp hrestore
        exact ⟨hview, hlock, htrace, Or.inr ⟨hended', Or.inl hr⟩⟩

end Loading

end Runkit.Process
