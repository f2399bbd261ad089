/-
  Engine/Lifecycle.lean --- engines that start and stop, and calls that wait for them.

  Any number of engines are run on one database.  Before an engine accepts commands it binds
  the database to its application, initializes its handlers and, if it is told to, listens
  for gRPC requests.  Commands may be executed at any time, also before the engine is run and
  after it has stopped; `waitUntilReady` decides which of them go on.

  Of the components that an engine runs, the compactors write to the tables that are written
  at startup.  The others are left out: all that matters here is that one of them may fail at
  any moment, upon which `Run` returns.

  Source: engine.go, internal/application/bind.go, internal/grpcserver/server.go.  What
  `InitializeHandler` and the compactors do is in Projection/Compactor.lean.
-/
import Mathlib.Logic.Relation
import Runkit.Foundation.Run
import Runkit.Projection.Compactor

set_option autoImplicit false

namespace Runkit.Lifecycle

open Runkit.Foundation

/-! ## Binding the database to an application -/

/-- The row of `application.identity`. -/
structure Identity where
  key : UUID
  name : String
  deriving DecidableEq, Repr

/-- What the tables that are written at startup contain. -/
structure Database where
  identity : Option Identity
  /-- The rows of `projection.handlers`. -/
  handlers : ∀ handlerKey, Projection.Compactor.Row handlerKey

/-- The row that the statement in `Bind` leaves and returns. -/
def upsertIdentity (row : Option Identity) (id : Identity) : Identity :=
  match row with
  | none => id
  | some i => { i with name := if i.key = id.key then id.name else i.name }

def Database.bind (db : Database) (id : Identity) : Database :=
  { db with identity := some (upsertIdentity db.identity id) }

/-- The transaction is one that can be committed to `projection.handlers`. -/
structure Database.Commits (db : Database) (record : Projection.Compactor.Transaction) :
    Prop where
  serial : Serial Projection.Compactor.handlersRely Projection.Compactor.program record
  before : record.before = db.handlers

def Database.commit (db : Database) (record : Projection.Compactor.Transaction) : Database :=
  { db with handlers := record.after }

/-- The handler has been initialized. -/
def Database.hasHandler (db : Database) (handlerKey : UUID) : Bool :=
  (db.handlers handlerKey).isSome

/-- The database is bound to the application with the given key. -/
def Database.BoundTo (db : Database) (key : UUID) : Prop :=
  ∃ i, db.identity = some i ∧ i.key = key

/-- What the later database keeps of the earlier one. -/
structure Database.Extends (db later : Database) : Prop where
  bound : ∀ key, db.BoundTo key → later.BoundTo key
  handlers : ∀ handlerKey, db.hasHandler handlerKey = true →
    later.hasHandler handlerKey = true

namespace Database

variable {db : Database} {key : UUID}

theorem Extends.refl : db.Extends db := ⟨fun _ => id, fun _ => id⟩

/-- A database that has been bound stays bound to the same application. -/
theorem bind_extends (i : Identity) : db.Extends (db.bind i) where
  bound := by
    rintro key ⟨i, hrow, hkey⟩
    refine ⟨_, rfl, ?_⟩
    rw [hrow]
    exact hkey
  handlers := fun _ => id

theorem commit_extends {record : Projection.Compactor.Transaction} (h : db.Commits record) :
    db.Extends (db.commit record) where
  bound := fun _ => id
  handlers := by
    intro handlerKey hhas
    refine (Projection.Compactor.rowChange_of_serial h.serial handlerKey).isSome ?_
    rw [h.before]
    exact hhas

theorem BoundTo.unique {key' : UUID} (h : db.BoundTo key) (h' : db.BoundTo key') :
    key = key' := by
  obtain ⟨i, hi, rfl⟩ := h
  obtain ⟨j, hj, rfl⟩ := h'
  cases hi.symm.trans hj
  rfl

end Database

/-! ## Running an engine -/

/-- What an engine is given. -/
structure Config where
  identity : Identity
  projections : List UUID
  /-- The address to listen on for gRPC requests, if it is not empty. -/
  listenAddress : String
  deriving DecidableEq, Repr

/-- Where `Run` is. -/
inductive Phase where
  /-- It has not been called yet, or has not bound the database. -/
  | binding
  | initializing (rest : List UUID)
  /-- The components are running. -/
  | running
  | returned
  deriving DecidableEq, Repr

/-- An engine.  `addr` is the future of the gRPC server, and `listener` what it listens on at
present. -/
structure Engine where
  phase : Phase
  ready : Bool
  stopped : Bool
  listenAddr : Option String
  addr : Option String
  listener : Option String
  deriving DecidableEq, Repr

namespace Engine

def new : Engine where
  phase := .binding
  ready := false
  stopped := false
  listenAddr := none
  addr := none
  listener := none

/-- `Run` returns. -/
def stop (e : Engine) : Engine :=
  { e with phase := .returned, stopped := true, listener := none }

/-- What follows the call of `Bind`. -/
def afterBind (e : Engine) (c : Config) (row : Identity) : Engine :=
  if row.key = c.identity.key then { e with phase := .initializing c.projections } else e.stop

/-- The components have been started. -/
def startComponents (e : Engine) (c : Config) : Engine :=
  { e with
    phase := .running
    ready := if c.listenAddress = "" then true else e.ready }

/-- One step of `Run`, or of the gRPC server that it runs. -/
inductive Step (c : Config) : Database → Engine → Database → Engine → Prop where
  | bind {db : Database} {e : Engine} : e.phase = .binding →
      Step c db e (db.bind c.identity) (e.afterBind c (upsertIdentity db.identity c.identity))
  /-- The statement takes effect, but its result is lost. -/
  | bindLost {db : Database} {e : Engine} : e.phase = .binding →
      Step c db e (db.bind c.identity) e.stop
  | initializeHandler {db : Database} {e : Engine} {handlerKey : UUID} {rest : List UUID}
      {record : Projection.Compactor.Transaction} {now : Time} :
      e.phase = .initializing (handlerKey :: rest) → db.Commits record →
      record.request = .initializeHandler handlerKey now →
      Step c db e (db.commit record) { e with phase := .initializing rest }
  | start {db : Database} {e : Engine} : e.phase = .initializing [] →
      Step c db e db (e.startComponents c)
  /-- The compactor of a projection commits. -/
  | compact {db : Database} {e : Engine} {handlerKey : UUID} {interval : Int}
      {record : Projection.Compactor.Transaction}
      {circumstances : Projection.Compactor.Circumstances} : e.phase = .running →
      handlerKey ∈ c.projections → db.Commits record →
      record.request = .compact handlerKey interval circumstances →
      Step c db e (db.commit record) e
  /-- The gRPC server listens for the first time. -/
  | listen {db : Database} {e : Engine} (addr : String) : e.phase = .running →
      c.listenAddress ≠ "" → e.addr = none →
      Step c db e db { e with addr := some addr, listener := some addr }
  /-- It listens again after it has failed. -/
  | relisten {db : Database} {e : Engine} {addr : String} : e.phase = .running →
      e.addr = some addr → e.listener = none →
      Step c db e db { e with listener := some addr }
  | serveFailed {db : Database} {e : Engine} : e.phase = .running →
      Step c db e db { e with listener := none }
  | storeAddr {db : Database} {e : Engine} {addr : String} : e.phase = .running →
      e.addr = some addr → Step c db e db { e with listenAddr := some addr }
  | setReady {db : Database} {e : Engine} {addr : String} : e.phase = .running →
      e.listenAddr = some addr → Step c db e db { e with ready := true }
  /-- `Run` returns, with or without an error. -/
  | stop {db : Database} {e : Engine} : e.phase ≠ .returned → Step c db e db e.stop

/-- The database has been prepared for the application. -/
structure Prepared (c : Config) (db : Database) : Prop where
  bound : db.BoundTo c.identity.key
  handlers : ∀ handlerKey ∈ c.projections, db.hasHandler handlerKey = true

/-- What `Run` has done to the database so far. -/
def Progress (c : Config) (db : Database) : Phase → Prop
  | .binding => True
  | .initializing rest => db.BoundTo c.identity.key ∧
      ∀ handlerKey ∈ c.projections, handlerKey ∈ rest ∨ db.hasHandler handlerKey = true
  | .running => Prepared c db
  | .returned => True

/-- What holds of an engine, whichever engines use the database besides it. -/
structure Sound (c : Config) (db : Database) (e : Engine) : Prop where
  progress : Progress c db e.phase
  ready : e.ready = true → Prepared c db ∧ (c.listenAddress ≠ "" → e.listenAddr.isSome)
  listenAddr : ∀ addr, e.listenAddr = some addr → e.addr = some addr
  listener : ∀ addr, e.listener = some addr → e.addr = some addr

variable {c : Config} {db db' : Database} {e e' : Engine}

theorem Prepared.mono (h : Prepared c db) (hextends : db.Extends db') : Prepared c db' :=
  ⟨hextends.bound _ h.bound, fun key hkey => hextends.handlers key (h.handlers key hkey)⟩

theorem Sound.new : Sound c db new where
  progress := True.intro
  ready := by
    intro h
    cases h
  listenAddr := by
    intro addr h
    cases h
  listener := by
    intro addr h
    cases h

/-- Other engines do not undo what an engine has done. -/
theorem Sound.mono (h : Sound c db e) (hextends : db.Extends db') : Sound c db' e where
  progress := by
    have hprogress := h.progress
    cases hphase : e.phase with
    | binding | returned => exact True.intro
    | initializing rest =>
        rw [hphase] at hprogress
        exact ⟨hextends.bound _ hprogress.1, fun key hkey =>
          (hprogress.2 key hkey).imp_right (hextends.handlers key)⟩
    | running =>
        rw [hphase] at hprogress
        exact Prepared.mono hprogress hextends
  ready := by
    intro hready
    obtain ⟨hprepared, haddr⟩ := h.ready hready
    exact ⟨hprepared.mono hextends, haddr⟩
  listenAddr := h.listenAddr
  listener := h.listener

theorem Sound.stop (h : Sound c db e) : Sound c db e.stop where
  progress := True.intro
  ready := h.ready
  listenAddr := h.listenAddr
  listener := by
    intro addr haddr
    cases haddr

/-- A step that changes nothing but the phase. -/
theorem Sound.withPhase (h : Sound c db e) {phase : Phase} (hprogress : Progress c db phase) :
    Sound c db { e with phase := phase } :=
  ⟨hprogress, h.ready, h.listenAddr, h.listener⟩

/-- The engine goes on only if the database is bound to its application. -/
theorem Sound.afterBind (h : Sound c db e) :
    Sound c (db.bind c.identity)
      (e.afterBind c (upsertIdentity db.identity c.identity)) := by
  have hsound := h.mono (Database.bind_extends c.identity)
  unfold Engine.afterBind
  split
  · rename_i hkey
    exact hsound.withPhase ⟨⟨_, rfl, hkey⟩, fun key hkey => Or.inl hkey⟩
  · exact hsound.stop

theorem Step.extends (h : Step c db e db' e') : db.Extends db' := by
  cases h with
  | bind _ => exact Database.bind_extends _
  | bindLost _ => exact Database.bind_extends _
  | initializeHandler _ hcommits _ => exact Database.commit_extends hcommits
  | compact _ _ hcommits _ => exact Database.commit_extends hcommits
  | _ => exact .refl

theorem Sound.step (h : Sound c db e) (hstep : Step c db e db' e') : Sound c db' e' := by
  have hsound := h.mono hstep.extends
  have hprogress := h.progress
  cases hstep with
  | bind hphase => exact h.afterBind
  | bindLost hphase => exact hsound.stop
  | @initializeHandler handlerKey rest record now hphase hcommits hrequest =>
      have hbefore := hsound.progress
      rw [hphase] at hbefore
      refine hsound.withPhase ⟨hbefore.1, ?_⟩
      intro key hkey
      obtain hrest | hdone := hbefore.2 key hkey
      · obtain rfl | hrest := List.mem_cons.mp hrest
        · exact Or.inr (Projection.Compactor.isSome_of_initialize hcommits.serial hrequest)
        · exact Or.inl hrest
      · exact Or.inr hdone
  | start hphase =>
      rw [hphase] at hprogress
      have hprepared : Prepared c db :=
        ⟨hprogress.1, fun key hkey => (hprogress.2 key hkey).resolve_left List.not_mem_nil⟩
      refine ⟨hprepared, ?_, h.listenAddr, h.listener⟩
      intro hready
      refine ⟨hprepared, ?_⟩
      intro hlisten
      rw [startComponents, if_neg hlisten] at hready
      exact (h.ready hready).2 hlisten
  | compact _ _ _ _ => exact hsound
  | listen addr hphase hlisten hnone =>
      refine ⟨hprogress, h.ready, ?_, fun _ haddr => haddr⟩
      intro addr' haddr'
      cases hnone.symm.trans (h.listenAddr addr' haddr')
  | relisten hphase haddr hnone =>
      refine ⟨hprogress, h.ready, h.listenAddr, ?_⟩
      intro addr' haddr'
      exact haddr.trans haddr'
  | serveFailed hphase =>
      refine ⟨hprogress, h.ready, h.listenAddr, ?_⟩
      intro addr haddr
      cases haddr
  | storeAddr hphase haddr =>
      refine ⟨hprogress, fun hready => ⟨(h.ready hready).1, fun _ => rfl⟩, ?_, h.listener⟩
      intro addr' haddr'
      exact haddr.trans haddr'
  | setReady hphase haddr =>
      refine ⟨hprogress, fun _ => ⟨?_, fun _ => ?_⟩, h.listenAddr, h.listener⟩
      · rw [hphase] at hprogress
        exact hprogress
      · rw [show ({ e with ready := true } : Engine).listenAddr = e.listenAddr from rfl, haddr]
        rfl
  | stop hphase => exact h.stop

/-- The latches are never reset. -/
theorem Step.latches (h : Step c db e db' e') :
    (e.ready = true → e'.ready = true) ∧ (e.stopped = true → e'.stopped = true) := by
  have hafterBind : ∀ row, (e.ready = true → (e.afterBind c row).ready = true) ∧
      (e.stopped = true → (e.afterBind c row).stopped = true) := by
    intro row
    unfold afterBind
    split
    · exact ⟨id, id⟩
    · exact ⟨id, fun _ => rfl⟩
  cases h with
  | bind _ => exact hafterBind _
  | bindLost _ | stop _ => exact ⟨id, fun _ => rfl⟩
  | start _ =>
      refine ⟨?_, id⟩
      intro hready
      unfold startComponents
      split
      · rfl
      · exact hready
  | setReady _ _ => exact ⟨fun _ => rfl, id⟩
  | _ => exact ⟨id, id⟩

end Engine

/-! ## Calls -/

/-- Where a call of `waitUntilReady` is. -/
inductive CallPhase where
  | waiting
  /-- One of the latches has been set. -/
  | selected
  | accepted
  | failed
  deriving DecidableEq, Repr

/-- A call of `waitUntilReady`, by `ExecuteCommand` or `ListenAddr`. -/
structure Call (N : Type) where
  engine : N
  /-- The engine had already stopped when the call began. -/
  late : Bool
  phase : CallPhase

/-- What follows the `select`. -/
def afterSelect (stopped : Bool) : CallPhase :=
  if stopped then .failed else .accepted

/-- Engines that are run on one database, and the calls that wait for them. -/
structure System (N K : Type) where
  db : Database
  engines : N → Engine
  calls : K → Option (Call N)

namespace System

variable {N K : Type}

def start (db : Database) : System N K where
  db := db
  engines := fun _ => .new
  calls := fun _ => none

inductive Step [DecidableEq N] [DecidableEq K] (config : N → Config) :
    System N K → System N K → Prop where
  | engine {s : System N K} {n : N} {db : Database} {e : Engine} :
      Engine.Step (config n) s.db (s.engines n) db e →
      Step config s { s with db := db, engines := Function.update s.engines n e }
  | call {s : System N K} {k : K} (n : N) : s.calls k = none →
      Step config s
        { s with
          calls := Function.update s.calls k (some ⟨n, (s.engines n).stopped, .waiting⟩) }
  | select {s : System N K} {k : K} {call : Call N} : s.calls k = some call →
      call.phase = .waiting →
      (s.engines call.engine).ready = true ∨ (s.engines call.engine).stopped = true →
      Step config s
        { s with calls := Function.update s.calls k (some { call with phase := .selected }) }
  /-- The context of the caller is done. -/
  | ctxDone {s : System N K} {k : K} {call : Call N} : s.calls k = some call →
      call.phase = .waiting →
      Step config s
        { s with calls := Function.update s.calls k (some { call with phase := .failed }) }
  | check {s : System N K} {k : K} {call : Call N} : s.calls k = some call →
      call.phase = .selected →
      Step config s
        { s with
          calls := Function.update s.calls k
            (some { call with phase := afterSelect (s.engines call.engine).stopped }) }

/-- What holds of a call, given its engine. -/
structure CallSound (e : Engine) (call : Call N) : Prop where
  late : call.late = true → e.stopped = true ∧ call.phase ≠ .accepted
  selected : call.phase = .selected → e.ready = true ∨ e.stopped = true
  accepted : call.phase = .accepted → e.ready = true

structure Invariant (config : N → Config) (s : System N K) : Prop where
  engines : ∀ n, (s.engines n).Sound (config n) s.db
  calls : ∀ k call, s.calls k = some call → CallSound (s.engines call.engine) call

variable {config : N → Config} {s s' : System N K}

theorem CallSound.mono {e e' : Engine} {call : Call N} (h : CallSound e call)
    (hready : e.ready = true → e'.ready = true)
    (hstopped : e.stopped = true → e'.stopped = true) : CallSound e' call where
  late := fun hlate => ⟨hstopped (h.late hlate).1, (h.late hlate).2⟩
  selected := fun hphase => (h.selected hphase).imp hready hstopped
  accepted := fun hphase => hready (h.accepted hphase)

/-- A call that has not been accepted. -/
theorem CallSound.of_phase {e : Engine} {call : Call N} (hphase : call.phase ≠ .accepted)
    (hlate : call.late = true → e.stopped = true)
    (hselected : call.phase = .selected → e.ready = true ∨ e.stopped = true) :
    CallSound e call :=
  ⟨fun h => ⟨hlate h, hphase⟩, hselected, fun h => absurd h hphase⟩

variable [DecidableEq N] [DecidableEq K]

omit [DecidableEq N] in
theorem Invariant.withCall (h : s.Invariant config) {k : K} {call : Call N}
    (hcall : CallSound (s.engines call.engine) call) :
    Invariant config { s with calls := Function.update s.calls k (some call) } where
  engines := h.engines
  calls := by
    intro k' call' hcall'
    obtain ⟨-, hset⟩ | ⟨-, hold⟩ := update_eq_some hcall'
    · cases hset
      exact hcall
    · exact h.calls k' call' hold

omit [DecidableEq K] in
theorem Invariant.engine (h : s.Invariant config) {n : N} {db : Database} {e : Engine}
    (hstep : Engine.Step (config n) s.db (s.engines n) db e) :
    Invariant config { s with db := db, engines := Function.update s.engines n e } where
  engines := by
    intro m
    dsimp only
    by_cases heq : m = n
    · subst heq
      rw [Function.update_self]
      exact (h.engines m).step hstep
    · rw [Function.update_of_ne heq]
      exact (h.engines m).mono hstep.extends
  calls := by
    intro k call hcall
    have hsound := h.calls k call hcall
    dsimp only
    by_cases heq : call.engine = n
    · subst heq
      rw [Function.update_self]
      exact hsound.mono hstep.latches.1 hstep.latches.2
    · rw [Function.update_of_ne heq]
      exact hsound

theorem Invariant.step (h : s.Invariant config) (hstep : Step config s s') :
    s'.Invariant config := by
  cases hstep with
  | engine hengine => exact h.engine hengine
  | call n hnew =>
      refine h.withCall (.of_phase nofun id ?_)
      intro hphase
      cases hphase
  | @select k call hcall hphase hlatch =>
      have hsound := h.calls k call hcall
      exact h.withCall (.of_phase nofun (fun hlate => (hsound.late hlate).1) (fun _ => hlatch))
  | @ctxDone k call hcall hphase =>
      have hsound := h.calls k call hcall
      refine h.withCall (.of_phase nofun (fun hlate => (hsound.late hlate).1) ?_)
      intro hphase
      cases hphase
  | @check k call hcall hphase =>
      have hsound := h.calls k call hcall
      have hlatch := hsound.selected hphase
      -- Whichever latch woke the call up, it goes on only if the engine has not stopped.
      cases hstopped : (s.engines call.engine).stopped with
      | true =>
          refine h.withCall (.of_phase nofun (fun _ => hstopped) ?_)
          intro hphase
          cases hphase
      | false =>
          have hready := hlatch.resolve_right (by rw [hstopped]; decide)
          refine h.withCall ⟨?_, ?_, fun _ => hready⟩
          · intro hlate
            rw [(hsound.late hlate).1] at hstopped
            cases hstopped
          · intro hphase
            cases hphase

theorem reaches_invariant {db : Database}
    (h : Relation.ReflTransGen (Step config) (start db) s) : s.Invariant config := by
  have hpreserves : ∀ u u' : System N K, u.Invariant config → Step config u u' →
      u'.Invariant config := fun _ _ hinv hstep => hinv.step hstep
  refine run_preserves hpreserves h ⟨fun _ => .new, ?_⟩
  intro k call hcall
  cases hcall

/-- The call has been accepted. -/
def Accepted (s : System N K) (k : K) (n : N) : Prop :=
  ∃ call, s.calls k = some call ∧ call.engine = n ∧ call.phase = .accepted

/-- Engines that have accepted calls run the same application, to which the database is
bound.  Their handlers have been initialized, and `ListenAddr` has an address to return, at
which the engine listens if it does.  A call that began after the engine had stopped is not
accepted. -/
theorem accepted_calls_bound {db : Database}
    (h : Relation.ReflTransGen (Step config) (start db) s) :
    (∀ k k' n n', s.Accepted k n → s.Accepted k' n' →
      (config n).identity.key = (config n').identity.key) ∧
    (∀ k n, s.Accepted k n → s.db.BoundTo (config n).identity.key ∧
      (∀ handlerKey ∈ (config n).projections, s.db.hasHandler handlerKey = true) ∧
      ((config n).listenAddress ≠ "" → ∃ addr, (s.engines n).listenAddr = some addr ∧
        ∀ addr', (s.engines n).listener = some addr' → addr' = addr)) ∧
    ∀ k call, s.calls k = some call → call.late = true → call.phase ≠ .accepted := by
  have hinv := reaches_invariant h
  have haccepted : ∀ k n, s.Accepted k n → (s.engines n).ready = true := by
    rintro k n ⟨call, hcall, rfl, hphase⟩
    exact (hinv.calls k call hcall).accepted hphase
  have hbound : ∀ k n, s.Accepted k n → s.db.BoundTo (config n).identity.key := by
    intro k n hk
    exact ((hinv.engines n).ready (haccepted k n hk)).1.bound
  refine ⟨fun k k' n n' hk hk' => (hbound k n hk).unique (hbound k' n' hk'), ?_, ?_⟩
  · intro k n hk
    have hsound := hinv.engines n
    obtain ⟨hprepared, haddr⟩ := hsound.ready (haccepted k n hk)
    refine ⟨hprepared.bound, hprepared.handlers, ?_⟩
    intro hlisten
    obtain ⟨addr, hlistenAddr⟩ := Option.isSome_iff_exists.mp (haddr hlisten)
    refine ⟨addr, hlistenAddr, ?_⟩
    intro addr' hlistener
    cases (hsound.listener addr' hlistener).symm.trans (hsound.listenAddr addr hlistenAddr)
    rfl
  · intro k call hcall hlate
    exact ((hinv.calls k call hcall).late hlate).2

/-- An engine with one projection, which listens for gRPC requests. -/
def listening : Config where
  identity := { key := uuid 90, name := "app" }
  projections := [uuid 80]
  listenAddress := ":0"

/-- The engine has started, and a call has been accepted. -/
theorem accepted_reached : ∃ s : System Unit Unit,
    Relation.ReflTransGen (Step fun _ => listening)
      (start { identity := none, handlers := fun _ => none }) s ∧ s.Accepted () () := by
  obtain ⟨record, hserial, hrequest, hbefore⟩ :=
    Projection.Compactor.exists_initialize (fun _ => none) (uuid 80) 0
  exact ⟨_, Relation.ReflTransGen.refl
    |>.tail (.engine (n := ()) (.bind rfl))
    |>.tail (.engine (n := ()) (.initializeHandler rfl ⟨hserial, hbefore⟩ hrequest))
    |>.tail (.engine (n := ()) (.start rfl))
    |>.tail (.engine (n := ()) (.listen "[::]:50051" rfl (by decide) rfl))
    |>.tail (.engine (n := ()) (.storeAddr rfl rfl))
    |>.tail (.engine (n := ()) (.setReady rfl rfl))
    |>.tail (.call (k := ()) () rfl)
    |>.tail (.select (k := ()) rfl rfl (.inl rfl))
    |>.tail (.check (k := ()) rfl rfl), ⟨_, rfl, rfl, rfl⟩⟩

theorem accepted_calls_bound_listening :
    ∃ s : System Unit Unit, s.Accepted () () ∧ s.db.BoundTo (uuid 90) ∧
      s.db.hasHandler (uuid 80) = true ∧ ∃ addr, (s.engines ()).listenAddr = some addr := by
  obtain ⟨s, hreached, haccepted⟩ := accepted_reached
  obtain ⟨-, hmain, -⟩ := accepted_calls_bound hreached
  obtain ⟨hbound, hhandlers, haddr⟩ := hmain () () haccepted
  obtain ⟨addr, hlistenAddr, -⟩ := haddr (by decide)
  exact ⟨s, haccepted, hbound, hhandlers _ (by decide), addr, hlistenAddr⟩

end System

end Runkit.Lifecycle
