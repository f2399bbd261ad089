/-
  Aggregate/Commit.lean --- what a transaction of the aggregate command pump
  does to the database.

  `commandPump_committed` is the only statement about the pump's code that the
  rest of the development needs for rows.
-/
import Runkit.Aggregate.CommandPump
import Runkit.Schema.Rely

set_option autoImplicit false

namespace Runkit.Aggregate

open Runkit.Foundation Runkit.Schema Runkit.Schema.Stmt Runkit.MessagePump

variable {ρ E : Type} {rows : Database}

/-- The events of an instance on a stream, in the order of the stream. -/
def instanceEvents (handlerKey : UUID) (instanceID : String) (stream : Stream) :
    List EventRow :=
  stream.events.filter (recordedBy handlerKey instanceID)

/-- The root after the given historical events have been applied to it. -/
def replay (h : AggregateHandler ρ) (root : ρ) (events : List EventRow) : ρ :=
  events.foldl (fun root row => h.applyEvent root row.envelope.body.message) root

/-- The root that `loadInstance` returns for an instance with the given row. -/
def loadedRoot (h : AggregateHandler ρ) (a : Attempt) (rows : Database) (instanceID : String)
    (row : AggregateInstanceRow) : ρ :=
  match row.streamID with
  | none => h.new
  | some streamID =>
      if nextOffset row ≠ 0 ∧ a.unmarshals = true then
        replay h (h.unmarshalBinary h.new row.snapshot)
          (historicalEvents h.key instanceID (nextOffset row) (rows (.stream streamID)))
      else
        replay h h.new (historicalEvents h.key instanceID 0 (rows (.stream streamID)))

/-! ## Loading an instance -/

section Loading

variable {rely : Rely Key Row} {s t : Session Key Row E}

theorem tryLockInstance_runs {handlerKey : UUID} {instanceID : String}
    {r : Except Error (Option AggregateInstanceRow)}
    (h : Tx.Runs rely rows (tryLockInstance handlerKey instanceID : Stmt E _).run s r t) :
    ((r = .ok none ∨ r = .error .busy) ∧ t = s) ∨
      ∃ row, r = .ok (some row) ∧
        s.view rows (.aggregateInstance handlerKey instanceID) = some row ∧
        t = s.acquire (.aggregateInstance handlerKey instanceID) := by
  unfold tryLockInstance at h
  rw [Tx.runs_peek_bind] at h
  obtain ⟨seen, -, -, h⟩ := h
  split at h
  · obtain ⟨hr, ht⟩ := Tx.runs_ok.mp h
    exact Or.inl ⟨Or.inl hr, ht⟩
  · rw [Tx.runs_tryLock_bind] at h
    obtain ⟨hvisible, h⟩ | h := h
    · obtain ⟨row, hrow⟩ := Option.isSome_iff_exists.mp hvisible
      simp only [hrow, Tx.runs_ok] at h
      exact Or.inr ⟨row, h.1, hrow, h.2⟩
    · obtain ⟨hr, ht⟩ := Tx.runs_throw.mp h
      exact Or.inl ⟨Or.inr hr, ht⟩

/-- Whether an instance is locked or created, its row is then in the database
and locked. -/
theorem lockInstance_runs {handlerKey : UUID} {instanceID : String}
    {r : Except Error AggregateInstanceRow}
    (h : Tx.Runs rely rows (lockInstance handlerKey instanceID : Stmt E _).run s r t) :
    (r = .error .busy ∧ t = s) ∨
      ∃ row, r = .ok row ∧
        row = (s.view rows (.aggregateInstance handlerKey instanceID)).getD newInstanceRow ∧
        t.view rows = Function.update (s.view rows)
          (.aggregateInstance handlerKey instanceID) (some row) ∧
        t.locks (.aggregateInstance handlerKey instanceID) = true ∧
        ∀ id, t.pending (.stream id) = s.pending (.stream id) := by
  unfold lockInstance at h
  obtain ⟨e, rfl, herror⟩ | ⟨found, u, hlock, hrest⟩ := Tx.runs_except_bind.mp h
  · obtain ⟨hr, ht⟩ | ⟨_, hr, -⟩ := tryLockInstance_runs herror
    · obtain hr | hr := hr <;> cases hr
      exact Or.inl ⟨rfl, ht⟩
    · cases hr
  obtain ⟨hr, rfl⟩ | ⟨row, hr, hrow, rfl⟩ := tryLockInstance_runs hlock
  · obtain hr | hr := hr <;> cases hr
    refine Or.inr ?_
    unfold tryCreateInstance at hrest
    rw [Tx.runs_lock_bind] at hrest
    split at hrest
    · rename_i row hrow
      obtain ⟨rfl, rfl⟩ := Tx.runs_ok.mp hrest
      refine ⟨row, rfl, by simp [hrow], ?_, by simp, fun id => rfl⟩
      rw [← hrow, Session.acquire_view, Function.update_eq_self]
    · rename_i hnone
      simp only [Tx.runs_write_bind, Tx.runs_ok] at hrest
      obtain ⟨-, rfl, rfl⟩ := hrest
      refine ⟨newInstanceRow, rfl, by simp [hnone], by simp, by simp, ?_⟩
      intro id
      simp [Session.put]
  · cases hr
    obtain ⟨rfl, rfl⟩ := Tx.runs_ok.mp hrest
    refine Or.inr ⟨row, rfl, by simp [hrow], ?_, by simp, fun id => rfl⟩
    rw [← hrow, Session.acquire_view, Function.update_eq_self]

theorem newRoot_runs {h : AggregateHandler ρ} {constructs : Bool} {r : Except Error ρ}
    (hruns : Tx.Runs rely rows (newRoot h constructs : Stmt E _).run s r t) :
    (r = .ok h.new ∨ r = .error .failed) ∧ t = s := by
  unfold newRoot at hruns
  split at hruns
  · obtain ⟨hr, ht⟩ := Tx.runs_ok.mp hruns
    exact ⟨Or.inl hr, ht⟩
  · obtain ⟨hr, ht⟩ := Tx.runs_throw.mp hruns
    exact ⟨Or.inr hr, ht⟩

theorem restoreSnapshot_runs {h : AggregateHandler ρ} {a : Attempt}
    {row : AggregateInstanceRow} {root : ρ} {r : Except Error (ρ × Nat)}
    (hruns : Tx.Runs rely rows (restoreSnapshot h a row root : Stmt E _).run s r t) :
    t = s ∧ (r = .error .failed ∨
      (nextOffset row ≠ 0 ∧ a.unmarshals = true ∧
        r = .ok (h.unmarshalBinary root row.snapshot, nextOffset row)) ∨
      (nextOffset row = 0 ∧ r = .ok (root, 0)) ∨
      (nextOffset row ≠ 0 ∧ a.unmarshals = false ∧ r = .ok (h.new, 0))) := by
  unfold restoreSnapshot at hruns
  split at hruns
  · rename_i hzero
    obtain ⟨hr, ht⟩ := Tx.runs_ok.mp hruns
    exact ⟨ht, Or.inr (Or.inr (Or.inl ⟨hzero, hr⟩))⟩
  · rename_i hsnapshot
    split at hruns
    · rename_i hunmarshals
      obtain ⟨hr, ht⟩ := Tx.runs_ok.mp hruns
      exact ⟨ht, Or.inr (Or.inl ⟨hsnapshot, hunmarshals, hr⟩)⟩
    · rename_i hunmarshals
      obtain ⟨e, rfl, herror⟩ | ⟨root', u, hnew, hdone⟩ := Tx.runs_except_bind.mp hruns
      · obtain ⟨hr, ht⟩ := newRoot_runs herror
        obtain hr | hr := hr <;> cases hr
        exact ⟨ht, Or.inl rfl⟩
      · obtain ⟨hr, rfl⟩ := newRoot_runs hnew
        obtain hr | hr := hr <;> cases hr
        obtain ⟨hr, ht⟩ := Tx.runs_ok.mp hdone
        exact ⟨ht, Or.inr (Or.inr (Or.inr ⟨hsnapshot, by simpa using hunmarshals, hr⟩))⟩

theorem applyEach_runs {h : AggregateHandler ρ} {a : Attempt} {events : List EventRow}
    {root : ρ} {r : Except Error ρ}
    (hruns : Tx.Runs rely rows (applyEach h a events root : Stmt E _).run s r t) :
    t = s ∧ (r = .error .failed ∨ r = .ok (replay h root events)) := by
  induction events generalizing root with
  | nil =>
      obtain ⟨hr, ht⟩ := Tx.runs_ok.mp hruns
      exact ⟨ht, Or.inr hr⟩
  | cons row rest ih =>
      unfold applyEach at hruns
      split at hruns
      · obtain ⟨hr, ht⟩ := Tx.runs_throw.mp hruns
        exact ⟨ht, Or.inl hr⟩
      · split at hruns
        · obtain ⟨hr, ht⟩ := Tx.runs_throw.mp hruns
          exact ⟨ht, Or.inl hr⟩
        · exact ih hruns

end Loading

section Handling

variable {s t : Session Key Row (Observation ρ)}

/-- The query of `applyHistoricalEvents` does not lock the events, but it sees
all events of the instance, since the instance is locked. -/
theorem applyHistoricalEvents_runs {h : AggregateHandler ρ} {a : Attempt} {streamID : UUID}
    {offset : Nat} {instanceID : String} {root : ρ} {r : Except Error ρ}
    (hlock : s.locks (.aggregateInstance h.key instanceID) = true)
    (hpending : s.pending (.stream streamID) = none)
    (hruns : Tx.Runs databaseRely rows
      (applyHistoricalEvents h a streamID offset instanceID root :
        Stmt (Observation ρ) _).run s r t) :
    t = s ∧ (r = .error .failed ∨ r = .ok (replay h root
      (historicalEvents h.key instanceID offset (rows (.stream streamID))))) := by
  unfold applyHistoricalEvents at hruns
  rw [Tx.runs_peek_bind] at hruns
  obtain ⟨seen, hseen, -, hruns⟩ := hruns
  have hsame : historicalEvents h.key instanceID offset (rows (.stream streamID)) =
      historicalEvents h.key instanceID offset seen := by
    unfold historicalEvents recordedBy
    rw [StreamMayBecome.filter_eq hseen hlock]
  rw [hpending, Option.getD_none] at hruns
  rw [hsame]
  exact applyEach_runs hruns

/-- What a run of `loadInstance` can do. -/
theorem loadInstance_runs {h : AggregateHandler ρ} {a : Attempt} {instanceID : String}
    {r : Except Error (ρ × Option UUID)}
    (hpending : ∀ id, s.pending (.stream id) = none)
    (hruns : Tx.Runs databaseRely rows (loadInstance h a instanceID).run s r t) :
    (r = .error .busy ∧ t = s) ∨
      ∃ row, row = (s.view rows (.aggregateInstance h.key instanceID)).getD newInstanceRow ∧
        t.view rows = Function.update (s.view rows)
          (.aggregateInstance h.key instanceID) (some row) ∧
        t.locks (.aggregateInstance h.key instanceID) = true ∧
        (r = .error .failed ∨ r = .ok (loadedRoot h a rows instanceID row, row.streamID)) := by
  unfold loadInstance at hruns
  obtain ⟨e, rfl, herror⟩ | ⟨row, u, hlock, hrest⟩ := Tx.runs_except_bind.mp hruns
  · obtain ⟨hr, ht⟩ | ⟨_, hr, -⟩ := lockInstance_runs herror
    · cases hr
      exact Or.inl ⟨rfl, ht⟩
    · cases hr
  obtain ⟨hr, -⟩ | ⟨_, hr, hrow, hview, hlocked, hsame⟩ := lockInstance_runs hlock
  · cases hr
  cases hr
  have hlocked' : (u.note (.loading h.key instanceID)).locks
      (.aggregateInstance h.key instanceID) = true := hlocked
  rw [Tx.runs_emit_bind] at hrest
  obtain ⟨e, rfl, herror⟩ | ⟨root, v, hnew, hrest⟩ := Tx.runs_except_bind.mp hrest
  · obtain ⟨hr, rfl⟩ := newRoot_runs herror
    obtain hr | hr := hr <;> cases hr
    exact Or.inr ⟨row, hrow, hview, hlocked, Or.inl rfl⟩
  obtain ⟨hr, rfl⟩ := newRoot_runs hnew
  obtain hr | hr := hr <;> cases hr
  refine Or.inr ⟨row, hrow, ?_⟩
  unfold loadedRoot
  split at hrest
  · rename_i hstream
    obtain ⟨hr, rfl⟩ := Tx.runs_ok.mp hrest
    simp only [hstream]
    exact ⟨hview, hlocked, Or.inr hr⟩
  · rename_i streamID hstream
    simp only [hstream]
    have hpending' : (u.note (.loading h.key instanceID)).pending (.stream streamID) = none :=
      (hsame streamID).trans (hpending streamID)
    obtain ⟨e, rfl, herror⟩ | ⟨restored, v, hrestore, hrest⟩ := Tx.runs_except_bind.mp hrest
    · obtain ⟨rfl, hr | ⟨-, -, hr⟩ | ⟨-, hr⟩ | ⟨-, -, hr⟩⟩ := restoreSnapshot_runs herror <;>
        cases hr
      exact ⟨hview, hlocked, Or.inl rfl⟩
    obtain ⟨rfl, hrestored⟩ := restoreSnapshot_runs hrestore
    obtain ⟨e, rfl, herror⟩ | ⟨root, w, happly, hdone⟩ := Tx.runs_except_bind.mp hrest
    · obtain ⟨rfl, hr | hr⟩ := applyHistoricalEvents_runs hlocked' hpending' herror <;> cases hr
      exact ⟨hview, hlocked, Or.inl rfl⟩
    obtain ⟨rfl, hr | hr⟩ := applyHistoricalEvents_runs hlocked' hpending' happly
    · cases hr
    obtain ⟨rfl, rfl⟩ := Tx.runs_ok.mp hdone
    refine ⟨hview, hlocked, Or.inr ?_⟩
    cases hr
    obtain hr | ⟨hoffset, hunmarshals, hr⟩ | ⟨hoffset, hr⟩ | ⟨hoffset, hunmarshals, hr⟩ :=
      hrestored <;> cases hr <;> simp_all

/-- The command of the given attempt has been handled by an instance. -/
structure Handled (h : AggregateHandler ρ) (a : Attempt) (cause : Envelope)
    (before : Database) (instanceID : String) (row : AggregateInstanceRow) (scope : Scope ρ) :
    Prop where
  route : a.route = some instanceID
  row_eq : row = (before (.aggregateInstance h.key instanceID)).getD newInstanceRow
  scope_eq : handleCommand h a cause instanceID (loadedRoot h a before instanceID row) =
    some scope

/-- What handling a command successfully does to the database, and that the
instance is locked by then. -/
inductive Completes (h : AggregateHandler ρ) (a : Attempt) (messageID : UUID)
    (cause : Envelope) (before : Database) (locks : Key → Bool) : Database → Prop where
  | withoutEvents {instanceID : String} {row : AggregateInstanceRow} {scope : Scope ρ}
      (hhandled : Handled h a cause before instanceID row scope)
      (hlock : locks (.aggregateInstance h.key instanceID) = true)
      (hevents : scope.events = []) :
      Completes h a messageID cause before locks
        (Function.update (Function.update before (.aggregateInstance h.key instanceID)
          (Schema.Aggregate.withoutUnbound (before (.aggregateInstance h.key instanceID))))
          (.command messageID) none)
  | withEvents {instanceID : String} {row : AggregateInstanceRow} {scope : Scope ρ}
      {streamID : UUID} {base : Nat} {after : Database}
      (hhandled : Handled h a cause before instanceID row scope)
      (hlock : locks (.aggregateInstance h.key instanceID) = true)
      (hcompleted : Schema.Aggregate.CompletedWithEvents messageID h.key instanceID
        (h.packer.sealedHeader cause h.key instanceID).correlationID
        (marshalSnapshot h a scope.root) scope.events row streamID
        base before after) :
      Completes h a messageID cause before locks after
  /-- The instance is bound to a stream that does not exist. -/
  | missing {instanceID : String} {row : AggregateInstanceRow} {scope : Scope ρ}
      {streamID : UUID}
      (hhandled : Handled h a cause before instanceID row scope)
      (hlock : locks (.aggregateInstance h.key instanceID) = true)
      (hrow : before (.aggregateInstance h.key instanceID) = some row)
      (hstream : row.streamID = some streamID)
      (hmissing : (before (.stream streamID)).nextOffset = none) :
      Completes h a messageID cause before locks
        (Function.update before (.command messageID) none)

/-- What handling a command has done to the database when it returns an error.
If loading or handling fails, an instance that did not exist has been created by
then. -/
inductive Leaves (h : AggregateHandler ρ) (before : Database) : Error → Database → Prop where
  | busy : Leaves h before .busy before
  | failed : Leaves h before .failed before
  | loaded (instanceID : String) :
      Leaves h before .failed (Function.update before (.aggregateInstance h.key instanceID)
        (some ((before (.aggregateInstance h.key instanceID)).getD newInstanceRow)))

theorem Leaves.frame {h : AggregateHandler ρ} {before left : Database} {e : Error} {k : Key}
    (hleaves : Leaves h before e left)
    (hk : ∀ instanceID, k ≠ .aggregateInstance h.key instanceID) : left k = before k := by
  cases hleaves with
  | busy => rfl
  | failed => rfl
  | loaded instanceID => exact Function.update_of_ne (hk instanceID) _ _

/-- Whether an instance was created in the same transaction or not makes no
difference to what `complete_with_events` does. -/
theorem completedWithEvents_of_update {messageID handlerKey : UUID} {instanceID : String}
    {correlationID : UUID} {snapshot : Option Bytes} {events : List Envelope}
    {row : AggregateInstanceRow} {streamID : UUID} {base : Nat} {before after : Database}
    {created : Option AggregateInstanceRow}
    (hcompleted : Schema.Aggregate.CompletedWithEvents messageID handlerKey instanceID
      correlationID snapshot events row streamID base
      (Function.update before (.aggregateInstance handlerKey instanceID) created) after) :
    Schema.Aggregate.CompletedWithEvents messageID handlerKey instanceID correlationID snapshot
      events row streamID base before after where
  nonempty := hcompleted.nonempty
  bound := hcompleted.bound
  base_eq := by simpa using hcompleted.base_eq
  stream := by simpa using hcompleted.stream
  row_eq := hcompleted.row_eq
  command := hcompleted.command
  frame := by
    intro k hstream hinstance hcommand
    rw [hcompleted.frame k hstream hinstance hcommand, Function.update_of_ne hinstance]

theorem complete_runs {h : AggregateHandler ρ} {a : Attempt} {messageID : UUID}
    {cause : Envelope} {before : Database} {instanceID : String} {row : AggregateInstanceRow}
    {scope : Scope ρ} {r : Except Error Unit}
    (hhandled : Handled h a cause before instanceID row scope)
    (hview : s.view before = Function.update before
      (.aggregateInstance h.key instanceID) (some row))
    (hlock : s.locks (.aggregateInstance h.key instanceID) = true)
    (hruns : Tx.Runs databaseRely before
      (complete h a messageID cause instanceID row.streamID scope :
        Stmt (Observation ρ) _).run s r t) :
    r = .ok () ∧ Completes h a messageID cause before t.locks (t.view before) := by
  have hlock' : t.locks (.aggregateInstance h.key instanceID) = true :=
    Tx.Visits.locks_mono hruns _ hlock
  have hrow : s.view before (.aggregateInstance h.key instanceID) = some row := by
    simp [hview]
  unfold complete at hruns
  split at hruns
  · rename_i hevents
    obtain ⟨hr, hafter⟩ := Schema.Aggregate.completeWithoutEvents_runs hruns
    refine ⟨hr, ?_⟩
    have hdelete : Schema.Aggregate.withoutUnbound (some row) =
        Schema.Aggregate.withoutUnbound (before (.aggregateInstance h.key instanceID)) := by
      rw [hhandled.row_eq]
      cases before (.aggregateInstance h.key instanceID) <;> rfl
    rw [hafter, hrow, hview, hdelete]
    simp only [Function.update_idem]
    exact .withoutEvents hhandled hlock' hevents
  · obtain ⟨hr, hafter⟩ := Schema.Aggregate.completeWithEvents_runs hrow rfl hruns
    refine ⟨hr, ?_⟩
    obtain ⟨streamID, base, hcompleted⟩ | ⟨streamID, hstream, hmissing, hafter⟩ := hafter
    · rw [hview] at hcompleted
      exact .withEvents hhandled hlock' (completedWithEvents_of_update hcompleted)
    · -- Only an instance that existed before can be bound to a stream.
      have hexists : before (.aggregateInstance h.key instanceID) = some row := by
        have hroweq := hhandled.row_eq
        cases hbefore : before (.aggregateInstance h.key instanceID) with
        | none =>
            rw [hbefore] at hroweq
            rw [hroweq] at hstream
            cases hstream
        | some row' =>
            rw [hbefore] at hroweq
            rw [hroweq]
            rfl
      rw [hview, ← hexists, Function.update_eq_self] at hafter hmissing
      rw [hafter]
      exact .missing hhandled hlock' hexists hstream hmissing

/-- `HandleDelivery` fails before it has done anything, or loads the instance that the command
is routed to. -/
theorem handleDelivery_routes {h : AggregateHandler ρ} {a : Attempt} {del : Delivery}
    {env : Envelope} {rows : Database} {r : Except Error Unit}
    (hruns : Tx.Runs databaseRely rows (handleDelivery h a del env).run s r t) :
    (r = .error .failed ∧ t = s) ∨
      ∃ instanceID, a.unpacks = true ∧ a.route = some instanceID ∧
        Tx.Runs databaseRely rows (loadInstance h a instanceID >>= fun loaded =>
          handleLoaded h a del.messageID env instanceID loaded.1 loaded.2).run s r t := by
  unfold handleDelivery at hruns
  split at hruns
  · rename_i hunpacks
    unfold routeCommandToInstance at hruns
    split at hruns
    · exact Or.inl (Tx.runs_throw_bind.mp hruns)
    · rename_i instanceID hinstance
      split at hruns
      · exact Or.inl (Tx.runs_throw_bind.mp hruns)
      · exact Or.inr ⟨instanceID, hunpacks, hinstance, Tx.runs_pure_bind.mp hruns⟩
  · exact Or.inl (Tx.runs_throw.mp hruns)

/-- What a run of `HandleDelivery` can do. -/
theorem handleDelivery_runs {h : AggregateHandler ρ} {a : Attempt} {del : Delivery}
    {env : Envelope} {before : Database} {r : Except Error Unit}
    (hview : s.view before = before) (hpending : ∀ id, s.pending (.stream id) = none)
    (hruns : Tx.Runs databaseRely before (handleDelivery h a del env).run s r t) :
    (r = .ok () ∧ Completes h a del.messageID env before t.locks (t.view before)) ∨
      ∃ e, r = .error e ∧ Leaves h before e (t.view before) := by
  obtain ⟨hr, rfl⟩ | ⟨instanceID, -, hinstance, hruns⟩ := handleDelivery_routes hruns
  · exact Or.inr ⟨_, hr, by rw [hview]; exact .failed⟩
  obtain ⟨e, rfl, herror⟩ | ⟨⟨root, streamID⟩, u, hload, hrest⟩ := Tx.runs_except_bind.mp hruns
  · obtain ⟨hr, rfl⟩ | ⟨row, hrow, hafter, -, hr | hr⟩ := loadInstance_runs hpending herror
    · cases hr
      exact Or.inr ⟨_, rfl, by rw [hview]; exact .busy⟩
    · cases hr
      refine Or.inr ⟨_, rfl, ?_⟩
      rw [hafter, hrow, hview]
      exact .loaded instanceID
    · cases hr
  obtain ⟨hr, -⟩ | ⟨row, hrow, hafter, hlock, hr | hr⟩ := loadInstance_runs hpending hload
  · cases hr
  · cases hr
  cases hr
  rw [hview] at hrow hafter
  unfold handleLoaded at hrest
  rw [Tx.runs_emit_bind] at hrest
  split at hrest
  · obtain ⟨hr, rfl⟩ := Tx.runs_throw.mp hrest
    refine Or.inr ⟨_, hr, ?_⟩
    rw [Session.note_view, hafter, hrow]
    exact .loaded instanceID
  · rename_i scope hscope
    exact Or.inl (complete_runs (s := u.note _) ⟨hinstance, hrow, hscope⟩ hafter hlock hrest)

/-- What a transaction of the aggregate command pump can commit. -/
theorem commandPump_committed {h : AggregateHandler ρ} {p : Backoff} {c : Circumstances}
    {a : Attempt} {before : Database} {o : Outcome} {s : Session Key Row (Observation ρ)}
    (hruns : Tx.Runs databaseRely before (deliver (commandPump h c a) p c).run .start
      (.ok o) s) :
    CommandCommitted (fun messageID env => Completes h a messageID env before s.locks)
      (Leaves h before) before o (s.view before) := by
  have hdriver : (commandPump h c a).OfCommands h.commandTypeIDs c := ⟨rfl, rfl⟩
  refine hdriver.committed (fun locks messageID env => Completes h a messageID env before locks)
    _ ?_ ?_ hruns
  · intro messageID row t hrow hhandle
    obtain ⟨-, hcompletes⟩ | ⟨e, hr, -⟩ := handleDelivery_runs rfl (fun _ => rfl) hhandle
    · exact hcompletes
    · cases hr
  · intro messageID row e t hrow hhandle
    obtain ⟨hr, -⟩ | ⟨_, hr, hleaves⟩ := handleDelivery_runs rfl (fun _ => rfl) hhandle
    · cases hr
    · cases hr
      refine ⟨hleaves, ?_⟩
      generalize t.view before = after at hleaves
      cases hleaves <;> simp [hrow]

end Handling

end Runkit.Aggregate
