/-
  Engine/Deadlock.lean --- which transactions of process handlers wait for which.

  A sink waits for a checkpoint or an instance, and either a sink or a deadline
  pump waits for the deadlines of an instance that it ends.  The latter can wait
  for a pump that holds a deadline whose instance it had to skip.  As long as such
  a pump does not itself delete the deadlines of another instance, no transactions
  wait for one another in a circle; if it does, they can.
-/
import Runkit.Engine.Instances
import Runkit.Foundation.Serve
import Runkit.Process.Locking

set_option autoImplicit false

namespace Runkit.Engine

open Runkit.Foundation Runkit.Schema Runkit.Schema.Stmt Runkit.MessagePump

variable {ρ : Type}

/-! ## Generated message IDs -/

/-- The message IDs that are generated while the transaction handles a message. -/
def Request.generated (r : Request ρ) : List UUID :=
  (r.behavior.map Process.Behavior.generated).getD []

/-- The request is one of a process handler, and generates message IDs that are
new. -/
def FreshProcess (begun : List (Request ρ)) (r : Request ρ) : Prop :=
  r.ofProcess = true ∧ ∀ id ∈ r.generated, ∀ r' ∈ begun, id ∉ r'.generated

/-- A deadline that a transaction inserts has an ID that it generated. -/
theorem ProcessChange.stored {app : Application ρ} {before after : Database}
    {locks : Key → Bool} {trace : List (Observation ρ)} {r : Request ρ} {response : Response}
    (h : ProcessChange app before locks trace r response after) {messageID : UUID}
    (hstored : after (.deadline messageID) ≠ none) :
    before (.deadline messageID) ≠ none ∨ messageID ∈ r.generated := by
  cases h with
  | kept _ _ hdeadlines =>
      rw [hdeadlines] at hstored
      exact Or.inl hstored
  | @postponed _ _ _ acquiredID row _ _ hacquired _ _ _ _ hdeadlines =>
      refine Or.inl ?_
      by_cases hid : messageID = acquiredID
      · rw [hid, hacquired.row_eq]
        exact Option.some_ne_none row
      · rwa [hdeadlines messageID hid] at hstored
  | @invoked key b cause instanceID row scope hhandled hinvoked _ _ _ hdeadlines =>
      have hrescheduled := hdeadlines messageID
      generalize after (.deadline messageID) = deadline at hrescheduled hstored
      cases hrescheduled with
      | kept _ => exact Or.inl hstored
      | removed => exact absurd rfl hstored
      | @scheduled env _ henv hid =>
          refine Or.inr ?_
          rw [Request.generated, behavior_of_handled hhandled, ← hid]
          exact (Process.handleMessage_packedBy hinvoked.scope_eq).deadline_generated henv

section Runs

variable {T : Type} [DecidableEq T] {app : Application ρ} {e e' : System T ρ} {t t' : T}

/-- What holds of the message IDs that open transactions generate. -/
structure FreshInvariant (e : System T ρ) : Prop where
  process : ∀ t o, e.sessions t = some o → o.request.ofProcess = true
  /-- No two transactions generate the same ID. -/
  disjoint : ∀ t t' o o' id, e.sessions t = some o → e.sessions t' = some o' →
    id ∈ o.request.generated → id ∈ o'.request.generated → t = t'
  /-- They are not yet the IDs of any deadlines. -/
  unstored : ∀ t o id, e.sessions t = some o → id ∈ o.request.generated →
    e.rows (.deadline id) = none
  stored : ∀ id, e.rows (.deadline id) ≠ none → ∃ r ∈ e.begun, id ∈ r.generated

omit [DecidableEq T] in
theorem FreshInvariant.initial : FreshInvariant (start : System T ρ) where
  process := by intro t o h; cases h
  disjoint := by intro t t' o o' id h; cases h
  unstored := by intro t o id h; cases h
  stored := by intro id h; exact absurd rfl h

omit [DecidableEq T] in
/-- Nothing about the IDs depends on how far a transaction has got, or on those that
have been rolled back. -/
theorem FreshInvariant.of_requests (hinv : FreshInvariant e) (hrows : e'.rows = e.rows)
    (hbegun : e'.begun = e.begun)
    (hopen : ∀ t o', e'.sessions t = some o' →
      ∃ o, e.sessions t = some o ∧ o.request = o'.request) : FreshInvariant e' := by
  refine ⟨?_, ?_, ?_, ?_⟩
  · intro t₁ o₁ h₁
    obtain ⟨o, ho, hrequest⟩ := hopen t₁ o₁ h₁
    rw [← hrequest]
    exact hinv.process t₁ o ho
  · intro t₁ t₂ o₁ o₂ id h₁ h₂ hid₁ hid₂
    obtain ⟨u₁, hu₁, hrequest₁⟩ := hopen t₁ o₁ h₁
    obtain ⟨u₂, hu₂, hrequest₂⟩ := hopen t₂ o₂ h₂
    rw [← hrequest₁] at hid₁
    rw [← hrequest₂] at hid₂
    exact hinv.disjoint t₁ t₂ u₁ u₂ id hu₁ hu₂ hid₁ hid₂
  · intro t₁ o₁ id h₁ hid
    obtain ⟨o, ho, hrequest⟩ := hopen t₁ o₁ h₁
    rw [← hrequest] at hid
    rw [hrows]
    exact hinv.unstored t₁ o id ho hid
  · intro id hid
    rw [hrows] at hid
    rw [hbegun]
    exact hinv.stored id hid

theorem FreshInvariant.begin {r : Request ρ} (hinv : FreshInvariant e)
    (hconsistent : e.Consistent databaseRely (program app))
    (hallowed : FreshProcess e.begun r) : FreshInvariant (e.begin (program app) t r) := by
  obtain ⟨hprocess, hfresh⟩ := hallowed
  have hnew : ∀ t₁ o₁ id, e.sessions t₁ = some o₁ → id ∈ r.generated →
      id ∉ o₁.request.generated := by
    intro t₁ o₁ id h₁ hid
    exact hfresh id hid _ (hconsistent.requested t₁ o₁ h₁)
  refine ⟨?_, ?_, ?_, ?_⟩
  · intro t₁ o₁ h₁
    rcases update_eq_some h₁ with ⟨-, hadded⟩ | ⟨-, hold⟩
    · cases hadded
      exact hprocess
    · exact hinv.process t₁ o₁ hold
  · intro t₁ t₂ o₁ o₂ id h₁ h₂ hid₁ hid₂
    rcases update_eq_some h₁ with ⟨rfl, hadded₁⟩ | ⟨-, hold₁⟩
    · rcases update_eq_some h₂ with ⟨rfl, -⟩ | ⟨-, hold₂⟩
      · rfl
      · cases hadded₁
        exact absurd hid₂ (hnew t₂ o₂ id hold₂ hid₁)
    · rcases update_eq_some h₂ with ⟨-, hadded₂⟩ | ⟨-, hold₂⟩
      · cases hadded₂
        exact absurd hid₁ (hnew t₁ o₁ id hold₁ hid₂)
      · exact hinv.disjoint t₁ t₂ o₁ o₂ id hold₁ hold₂ hid₁ hid₂
  · intro t₁ o₁ id h₁ hid
    rcases update_eq_some h₁ with ⟨-, hadded⟩ | ⟨-, hold⟩
    · cases hadded
      by_contra hstored
      obtain ⟨r', hr', hid'⟩ := hinv.stored id hstored
      exact hfresh id hid r' hr' hid'
    · exact hinv.unstored t₁ o₁ id hold hid
  · intro id hid
    obtain ⟨r', hr', hid'⟩ := hinv.stored id hid
    exact ⟨r', List.mem_append_left _ hr', hid'⟩

theorem FreshInvariant.commit {o : Open (Request ρ) Key Row (Observation ρ) Response}
    {response : Response} (hinv : FreshInvariant e)
    (hconsistent : e.Consistent databaseRely (program app)) (hrows : ProcessInvariant e.rows)
    (hopen : e.sessions t = some o) (hdone : o.residual = .pure response) :
    FreshInvariant (e.commit t o response) := by
  have hchange := processChange hrows.agrees (hconsistent.runs hopen hdone)
  have hold : ∀ t₁ o₁, (e.commit t o response).sessions t₁ = some o₁ →
      t₁ ≠ t ∧ e.sessions t₁ = some o₁ := by
    intro t₁ o₁ h₁
    rcases update_eq_some h₁ with ⟨-, hnone⟩ | hold
    · cases hnone
    · exact hold
  refine ⟨?_, ?_, ?_, ?_⟩
  · intro t₁ o₁ h₁
    exact hinv.process t₁ o₁ (hold t₁ o₁ h₁).2
  · intro t₁ t₂ o₁ o₂ id h₁ h₂ hid₁ hid₂
    exact hinv.disjoint t₁ t₂ o₁ o₂ id (hold t₁ o₁ h₁).2 (hold t₂ o₂ h₂).2 hid₁ hid₂
  · intro t₁ o₁ id h₁ hid
    obtain ⟨hne, h₁⟩ := hold t₁ o₁ h₁
    by_contra hstored
    obtain hbefore | hgenerated := hchange.stored hstored
    · exact hbefore (hinv.unstored t₁ o₁ id h₁ hid)
    · exact hne (hinv.disjoint t₁ t o₁ o id h₁ hopen hid hgenerated)
  · intro id hid
    obtain hbefore | hgenerated := hchange.stored hid
    · exact hinv.stored id hbefore
    · exact ⟨o.request, hconsistent.requested t o hopen, hgenerated⟩

theorem FreshInvariant.step (hinv : FreshInvariant e)
    (hconsistent : e.Consistent databaseRely (program app)) (hrows : ProcessInvariant e.rows)
    (hstep : Pool.Step (program app) FreshProcess e e') : FreshInvariant e' := by
  cases hstep with
  | begin _ hallowed => exact hinv.begin hconsistent hallowed
  | @advance t o q s hopen _ =>
      refine hinv.of_requests rfl rfl ?_
      intro t₁ o₁ h₁
      rcases update_eq_some h₁ with ⟨rfl, hnew⟩ | ⟨-, hold⟩
      · cases hnew
        exact ⟨o, hopen, rfl⟩
      · exact ⟨o₁, hold, rfl⟩
  | commit hopen hdone => exact hinv.commit hconsistent hrows hopen hdone
  | rollback _ =>
      refine hinv.of_requests rfl rfl ?_
      intro t₁ o₁ h₁
      rcases update_eq_some h₁ with ⟨-, hnone⟩ | ⟨-, hold⟩
      · cases hnone
      · exact ⟨o₁, hold, rfl⟩

theorem fresh_invariant (h : Reaches app FreshProcess start e) : FreshInvariant e := by
  have hpreserves : ∀ s s' : System T ρ,
      (Reaches app FreshProcess start s ∧ FreshInvariant s) →
        Pool.Step (program app) FreshProcess s s' →
          Reaches app FreshProcess start s' ∧ FreshInvariant s' := by
    intro s s' hs hstep
    obtain ⟨hreached, hinv⟩ := hs
    obtain ⟨hconsistent, hrows⟩ := process_invariant hreached
    exact ⟨hreached.tail hstep, hinv.step hconsistent hrows hstep⟩
  exact (run_preserves hpreserves h ⟨.refl, .initial⟩).2

/-! ## What is requested and what is held -/

variable (app) in
/-- What an open transaction of a process handler may be about to request. -/
theorem requests_of_process {rows : Database} {r : Request ρ} (hrows : ProcessInvariant rows)
    (hprocess : r.ofProcess = true) :
    ∃ key, Tx.Requests databaseRely rows (Process.Requested (app.process key) r.generated)
      (program app r) .start := by
  have hdone : ∀ (response : Response) (key : UUID) (u : Session Key Row (Observation ρ)),
      Tx.Requests databaseRely rows (Process.Requested (app.process key) r.generated)
        (pure response : Stmt (Observation ρ) Response).run u :=
    fun _ _ _ => Tx.Requests.of_none Tx.asks_ok
  cases r with
  | deadline key c a =>
      refine ⟨key, transact_requests
        (Tx.Requests.except_bind (Process.deadlinePump_requests ?_) fun _ _ _ => hdone _ key _)⟩
      intro messageID row hrow
      exact (hrows.agrees messageID row hrow).2.2
  | consume key call =>
      exact ⟨key, transact_requests
        (Tx.Requests.except_bind Process.consume_requests fun _ _ _ => hdone _ key _)⟩
  | _ => cases hprocess

/-- The locks on messages that a transaction may hold, if it generates the given
IDs. -/
def MayHold (rows : Database) (ids : List UUID) : Key → Prop
  | .command id => id ∈ ids
  | .deadline id => id ∈ ids ∨ rows (.deadline id) ≠ none
  | _ => True

/-- A request that is granted locks nothing else. -/
theorem mayHold_of_requested {rows : Database} {h : ProcessHandler ρ} {ids : List UUID}
    {w : LockRequest Key Row} {s : Session Key Row (Observation ρ)} {k : Key}
    (hs : s.Disciplined) (hrequested : Process.Requested h ids w s)
    (hcovers : w.Covers (s.view rows) k) : s.locks k = true ∨ MayHold rows ids k := by
  by_cases hlocked : s.locks k = true
  · exact Or.inl hlocked
  refine Or.inr ?_
  have hview := hs.view_of_unlocked rows hlocked
  cases hrequested with
  | checkpoint _ =>
      cases hcovers
      exact True.intro
  | instance_ _ =>
      cases hcovers
      exact True.intro
  | @visitsDeadline messageID now =>
      obtain ⟨rfl, hdue⟩ := hcovers
      refine Or.inr ?_
      rw [← hview]
      intro hnone
      rw [hnone] at hdue
      cases hdue
  | visitsInstance =>
      cases hcovers.1
      exact True.intro
  | held hheld =>
      cases hcovers
      exact absurd hheld hlocked
  | command hid =>
      cases hcovers
      exact hid
  | deadline hid =>
      cases hcovers
      exact Or.inl hid
  | @deletes instanceID _ =>
      cases k with
      | deadline messageID =>
          refine Or.inr ?_
          rw [← hview]
          intro hnone
          change belongsTo h.key instanceID (s.view rows (.deadline messageID)) = true at hcovers
          rw [hnone] at hcovers
          cases hcovers
      | command id => cases hcovers
      | _ => exact True.intro

omit [DecidableEq T] in
theorem mayHold_of_open {o : Open (Request ρ) Key Row (Observation ρ) Response} {k : Key}
    (hconsistent : e.Consistent databaseRely (program app)) (hrows : ProcessInvariant e.rows)
    (hfresh : FreshInvariant e) (hopen : e.sessions t = some o)
    (hk : o.session.locks k = true) : MayHold e.rows o.request.generated k := by
  obtain ⟨key, hrequests⟩ :=
    requests_of_process app hrows (hfresh.process t o hopen)
  obtain hstart | hheld := Tx.Visits.granted (hconsistent.visits t o hopen)
    Session.start_disciplined hrequests
    (fun _ _ _ hs hrequested hcovers => mayHold_of_requested hs hrequested hcovers) hk
  · cases hstart
  · exact hheld

/-! ## Waiting -/

/-- What an open transaction waits for, when another one holds it. -/
inductive Waiting (e : System T ρ) (t : T) : Key → Prop where
  /-- A sink waits for its checkpoint before it locks anything. -/
  | checkpoint {o : Open (Request ρ) Key Row (Observation ρ) Response}
      {key streamID : UUID} (hopen : e.sessions t = some o)
      (hnone : ∀ k, o.session.locks k = false) : Waiting e t (.handlerCheckpoint key streamID)
  /-- It waits for an instance when it has locked nothing but its checkpoint. -/
  | instance_ {o : Open (Request ρ) Key Row (Observation ρ) Response} {key : UUID}
      {instanceID : String} (hopen : e.sessions t = some o)
      (honly : ∀ k, o.session.locks k = true →
        ∃ key streamID, k = .handlerCheckpoint key streamID) :
      Waiting e t (.processInstance key instanceID)
  /-- The deadlines of an instance that ends are waited for by the transaction that
  has locked the instance. -/
  | deletes {o : Open (Request ρ) Key Row (Observation ρ) Response} {key : UUID}
      {instanceID : String} {messageID : UUID} (hopen : e.sessions t = some o)
      (hrequest : o.residual.lockRequest = some (.rows (Process.isDeadlineOf key instanceID)))
      (hinstance : o.session.locks (.processInstance key instanceID) = true)
      (hdeadline : belongsTo key instanceID (e.rows (.deadline messageID)) = true) :
      Waiting e t (.deadline messageID)

omit [DecidableEq T] in
theorem waiting_of_waitsFor (hconsistent : e.Consistent databaseRely (program app))
    (hrows : ProcessInvariant e.rows) (hfresh : FreshInvariant e) (h : e.WaitsFor t t') :
    ∃ k o', e.sessions t' = some o' ∧ o'.session.locks k = true ∧ Waiting e t k := by
  obtain ⟨hne, o, o', w, k, hopen, hopen', hw, hwaits, hcovers, hk⟩ := h
  refine ⟨k, o', hopen', hk, ?_⟩
  obtain ⟨key, hrequests⟩ :=
    requests_of_process app hrows (hfresh.process t o hopen)
  have hrequested := hrequests _ _ w (hconsistent.visits t o hopen) hw
  have hmay := mayHold_of_open hconsistent hrows hfresh hopen' hk
  have hview := hconsistent.view_of_other hopen hopen' hne hk
  -- The other transaction neither generated the same IDs nor found them stored.
  have hnotMine : ∀ id ∈ o.request.generated, id ∉ o'.request.generated := by
    intro id hid hid'
    exact hne (hfresh.disjoint t' t o' o id hopen' hopen hid' hid)
  cases hrequested with
  | checkpoint hnone =>
      cases hcovers
      exact .checkpoint hopen hnone
  | instance_ honly =>
      cases hcovers
      exact .instance_ hopen fun k hk => ⟨_, _, honly k hk⟩
  | visitsDeadline => cases hwaits
  | visitsInstance => cases hwaits
  | held hheld =>
      cases hcovers
      exact absurd (hconsistent.exclusive _ _ _ _ k hopen' hopen hk hheld) hne
  | @command id _ hid =>
      cases hcovers
      exact absurd hmay (hnotMine id hid)
  | @deadline id _ hid =>
      cases hcovers
      obtain hmine | hstored := hmay
      · exact absurd hmine (hnotMine id hid)
      · exact absurd (hfresh.unstored t o id hopen hid) hstored
  | deletes hinstance =>
      cases k with
      | deadline messageID =>
          refine .deletes hopen hw hinstance ?_
          rw [← hview]
          exact hcovers
      | _ => cases hcovers

/-- Every transaction that is about to delete the deadlines of an instance holds no
deadline of another one.  (A deadline pump that had to skip an instance holds the
deadline on account of which it tried to lock it.) -/
def Unburdened (e : System T ρ) : Prop :=
  ∀ t o matching, e.sessions t = some o →
    o.residual.lockRequest = some (.rows matching) →
    ∀ messageID, o.session.locks (.deadline messageID) = true →
      e.rows (.deadline messageID) ≠ none →
        matching (.deadline messageID) (e.rows (.deadline messageID)) = true

omit [DecidableEq T] in
/-- A transaction whose deadline is about to be deleted does not wait. -/
theorem not_waitsFor_of_deletes (hconsistent : e.Consistent databaseRely (program app))
    (hrows : ProcessInvariant e.rows) (hfresh : FreshInvariant e) (hunburdened : Unburdened e)
    {o o' : Open (Request ρ) Key Row (Observation ρ) Response} {key : UUID}
    {instanceID : String} {messageID : UUID} (hne : t' ≠ t) (hopen : e.sessions t = some o)
    (hinstance : o.session.locks (.processInstance key instanceID) = true)
    (hdeadline : belongsTo key instanceID (e.rows (.deadline messageID)) = true)
    (hopen' : e.sessions t' = some o') (hk : o'.session.locks (.deadline messageID) = true)
    (t'' : T) : ¬ e.WaitsFor t' t'' := by
  intro hwaits
  obtain ⟨k, -, -, -, hwaiting⟩ := waiting_of_waitsFor hconsistent hrows hfresh hwaits
  cases hwaiting with
  | checkpoint hopen'' hnone =>
      cases hopen'.symm.trans hopen''
      rw [hnone] at hk
      cases hk
  | instance_ hopen'' honly =>
      cases hopen'.symm.trans hopen''
      obtain ⟨_, _, heq⟩ := honly _ hk
      cases heq
  | @deletes _ key' instanceID' _ hopen'' hrequest hinstance' _ =>
      cases hopen'.symm.trans hopen''
      cases hrow : e.rows (.deadline messageID) with
      | none =>
          rw [hrow] at hdeadline
          cases hdeadline
      | some row =>
          have hmine := hunburdened t' o' _ hopen' hrequest messageID hk (by simp [hrow])
          change belongsTo key' instanceID' (e.rows (.deadline messageID)) = true at hmine
          rw [hrow] at hdeadline hmine
          obtain ⟨rfl, rfl⟩ := of_decide_eq_true hdeadline
          obtain ⟨rfl, rfl⟩ := of_decide_eq_true hmine
          exact hne (hconsistent.exclusive _ _ _ _ _ hopen' hopen hinstance' hinstance)

/-- No transactions of process handlers wait for one another in a circle, in any
state in which those that delete the deadlines of an instance hold no others. -/
theorem process_deadlock_free (h : Reaches app FreshProcess start e)
    (hunburdened : Unburdened e) (t : T) : ¬ Relation.TransGen e.WaitsFor t t := by
  obtain ⟨hconsistent, hrows⟩ := process_invariant h
  have hfresh := fresh_invariant h
  have hwaiting : ∀ {a b : T}, e.WaitsFor a b →
      ∃ k o', e.sessions b = some o' ∧ o'.session.locks k = true ∧ Waiting e a k :=
    fun hab => waiting_of_waitsFor hconsistent hrows hfresh hab
  -- Nobody waits for a transaction that holds nothing.
  have hnobody : ∀ {a : T} {o}, e.sessions a = some o → (∀ k, o.session.locks k = false) →
      ∀ x, ¬ e.WaitsFor x a := by
    intro a o hopen hnone x hxa
    obtain ⟨k, o', hopen', hk, -⟩ := hwaiting hxa
    cases hopen.symm.trans hopen'
    rw [hnone] at hk
    cases hk
  refine acyclic_of_border ?_ t
  intro a b hab
  obtain ⟨k, o', hopen', hk, hwaits⟩ := hwaiting hab
  cases hwaits with
  | checkpoint hopen hnone => exact Or.inl (hnobody hopen hnone)
  | instance_ hopen honly =>
      -- Whoever waits for a checkpoint has locked nothing.
      refine Or.inr (Or.inl ?_)
      intro x y hxa hyx
      obtain ⟨k', o'', hopen'', hk', hwaits'⟩ := hwaiting hxa
      cases hopen.symm.trans hopen''
      obtain ⟨key, streamID, rfl⟩ := honly k' hk'
      cases hwaits' with
      | checkpoint hopen hnone => exact hnobody hopen hnone y hyx
  | deletes hopen _ hinstance hdeadline =>
      refine Or.inr (Or.inr ?_)
      exact not_waitsFor_of_deletes hconsistent hrows hfresh hunburdened hab.1 hopen hinstance
        hdeadline hopen' hk

end Runs

/-! ## A circle -/

/-- The instance handles an event of the stream. -/
def consuming (streamID : UInt64) (instanceID : String) (calls : List (Process.ScopeCall Nat)) :
    Request Nat :=
  .consume (uuid 60)
    { streamID := uuid streamID
      cp := 0
      next := 1
      env := some (commandEnvelope 20)
      attempt :=
        { unpacks := true
          routing := .routed instanceID
          behavior := calling calls true } }

/-- A call that schedules a deadline. -/
def deadlineAt (id : UInt64) (t : Time) : Process.ScopeCall Nat :=
  .scheduleDeadline { messageID := uuid id, message := { typeID := uuid 3, data := [] } } t true
    false

/-- A deadline pump visits the deadlines in the order of their times, and its handler
ends the instance of the one that it acquires. -/
def endingVisited : Request Nat :=
  .deadline (uuid 60)
    { finding 31 with visited := [uuid 31, uuid 32, uuid 33, uuid 34], acquiredAt := 10 }
    { unpacks := true
      behavior := calling [.end_] true }

/-- Two instances have two deadlines each. -/
def twoInstances : System (Fin 3) Nat :=
  Pool.serve (program counters)
    [consuming 100 "a" [deadlineAt 32 2, deadlineAt 33 3],
      consuming 101 "b" [deadlineAt 31 1, deadlineAt 34 4]] start

theorem twoInstances_run : Reaches counters FreshProcess start twoInstances := by
  refine Pool.serve_run 0 (fun _ => rfl) ⟨⟨rfl, ?_⟩, ⟨rfl, ?_⟩, True.intro⟩
  · decide
  · decide

theorem interleave_reaches {actions : List (Pool.Action (Fin 3) (Request Nat))}
    (hallowed : Pool.AllAllowed FreshProcess twoInstances.begun
      (actions.filterMap Pool.Action.request)) :
    Reaches counters FreshProcess start
      (twoInstances.interleave (program counters) [0, 1, 2] actions) :=
  twoInstances_run.trans (Pool.interleave_run (by decide) hallowed)

/-- A sink locks the instance `"b"`, a pump skips its deadline and acquires one of the
instance `"a"`, and then the sink ends the instance `"b"`. -/
def waitingSchedule : List (Pool.Action (Fin 3) (Request Nat)) :=
  [.begin 0 (consuming 102 "b" [.end_]), .advance 0, .advance 0, .advance 0,
    .begin 1 endingVisited, .advance 1, .advance 1, .advance 1, .advance 1,
    .advance 0, .advance 0, .advance 0]

/-- The state that they get to. -/
def waiting : System (Fin 3) Nat :=
  twoInstances.interleave (program counters) [0, 1, 2] waitingSchedule

theorem process_deadlock_free_waiting :
    waiting.WaitsFor 0 1 ∧ ¬ Relation.TransGen waiting.WaitsFor 0 0 := by
  have hallowed : Pool.AllAllowed FreshProcess twoInstances.begun
      (waitingSchedule.filterMap Pool.Action.request) :=
    ⟨⟨rfl, by decide⟩, ⟨rfl, by decide⟩, True.intro⟩
  have hsink : ∀ messageID,
      (waiting.sessions 0).map (·.session.locks (.deadline messageID)) = some false :=
    fun _ => rfl
  have hpump : (waiting.sessions 1).bind (·.residual.lockRequest) =
      some (.row (.processInstance (uuid 60) "a")) := rfl
  have hunburdened : Unburdened waiting := by
    intro t o matching hopen hrequest messageID hlocked _
    obtain rfl | rfl | rfl : t = 0 ∨ t = 1 ∨ t = 2 := by omega
    · have hfree := hsink messageID
      rw [hopen, Option.map_some, hlocked] at hfree
      cases hfree
    · rw [hopen, Option.bind_some, hrequest] at hpump
      cases hpump
    · cases (show waiting.sessions 2 = none from rfl).symm.trans hopen
  refine ⟨⟨by decide, _, _, _, .deadline (uuid 31), rfl, rfl, rfl, rfl, rfl, rfl⟩, ?_⟩
  exact process_deadlock_free (interleave_reaches hallowed) hunburdened 0

/-- While a sink has locked the instance `"b"`, the first pump skips its deadline and
acquires one of the instance `"a"`.  Then the sink rolls back, and the second pump
skips the other deadline of the instance `"a"` and acquires one of the instance
`"b"`.  Both handlers end their instances. -/
def skippingSchedule : List (Pool.Action (Fin 3) (Request Nat)) :=
  [.begin 0 (consuming 102 "b" []), .advance 0, .advance 0, .advance 0,
    .begin 1 endingVisited, .advance 1, .advance 1, .advance 1, .advance 1,
    .rollback 0,
    .begin 2 endingVisited, .advance 2, .advance 2, .advance 2, .advance 2, .advance 2,
      .advance 2,
    .advance 1, .advance 1, .advance 1, .advance 1,
    .advance 2, .advance 2, .advance 2, .advance 2]

/-- The state that they get to. -/
def deadlocked : System (Fin 3) Nat :=
  twoInstances.interleave (program counters) [0, 1, 2] skippingSchedule

/-- Each of the pumps waits for the deadline that the other one skipped. -/
theorem pumps_deadlock :
    Reaches counters FreshProcess start deadlocked ∧ deadlocked.WaitsFor 1 2 ∧
      deadlocked.WaitsFor 2 1 ∧ Relation.TransGen deadlocked.WaitsFor 1 1 := by
  have hfirst : deadlocked.WaitsFor 1 2 :=
    ⟨by decide, _, _, _, .deadline (uuid 33), rfl, rfl, rfl, rfl, rfl, rfl⟩
  have hsecond : deadlocked.WaitsFor 2 1 :=
    ⟨by decide, _, _, _, .deadline (uuid 31), rfl, rfl, rfl, rfl, rfl, rfl⟩
  have hallowed : Pool.AllAllowed FreshProcess twoInstances.begun
      (skippingSchedule.filterMap Pool.Action.request) :=
    ⟨⟨rfl, by decide⟩, ⟨rfl, by decide⟩, ⟨rfl, by decide⟩, True.intro⟩
  exact ⟨interleave_reaches hallowed, hfirst, hsecond, .tail (.single hfirst) hsecond⟩

end Runkit.Engine
