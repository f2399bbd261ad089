/-
  Foundation/Staged.lean --- transactions whose programs are executed in stages.

  `Foundation/Pool.lean` gives each transaction one program.  In practice a
  transaction is a handle that is passed around: one piece of code executes some
  statements, looks at the result, and hands the transaction over to another piece
  of code.  What a transaction of a `Server` will do is known to its client only,
  which is at some stage `C` of its code.

  If each stage has a program that remains to be executed, such that starting,
  finishing and passing on a piece of code do not change what remains, then the
  server is a pool (`Server.pool`).
-/
import Runkit.Foundation.Pool

set_option autoImplicit false

namespace Runkit.Foundation

variable {T R C K : Type} {V : K → Type} {E α β γ : Type}

/-! ## Pieces of a program -/

namespace Tx

theorem bind_pure (p : Tx K V E α) : p.bind .pure = p := by
  induction p with
  | pure a => rfl
  | fail => rfl
  | lock k next ih => exact congrArg (Tx.lock k) (funext ih)
  | tryLock k visible next ih => exact congrArg (Tx.tryLock k visible) (funext ih)
  | peek k next ih => exact congrArg (Tx.peek k) (funext ih)
  | write k row next ih => exact congrArg (Tx.write k row) ih
  | sweep matching update next ih => exact congrArg (Tx.sweep matching update) ih
  | emit e next ih => exact congrArg (Tx.emit e) ih

theorem bind_assoc (p : Tx K V E α) (f : α → Tx K V E β) (g : β → Tx K V E γ) :
    (p.bind f).bind g = p.bind fun a => (f a).bind g := by
  induction p with
  | pure a => rfl
  | fail => rfl
  | lock k next ih => exact congrArg (Tx.lock k) (funext ih)
  | tryLock k visible next ih => exact congrArg (Tx.tryLock k visible) (funext ih)
  | peek k next ih => exact congrArg (Tx.peek k) (funext ih)
  | write k row next ih => exact congrArg (Tx.write k row) ih
  | sweep matching update next ih => exact congrArg (Tx.sweep matching update) ih
  | emit e next ih => exact congrArg (Tx.emit e) ih

instance : LawfulMonad (Tx K V E) :=
  LawfulMonad.mk' _ (fun p => bind_pure p) (fun _ _ => rfl) bind_assoc

end Tx

/-- A statement of a piece of a program is one of the program. -/
theorem Advance.bind [DecidableEq K] {free : K → Prop} {rows : ∀ k, V k} {p q : Tx K V E α}
    {s t : Session K V E} (h : Advance free rows (p, s) (q, t)) (rest : α → Tx K V E β) :
    Advance free rows (p.bind rest, s) (q.bind rest, t) := by
  cases h with
  | lock hfree => exact .lock hfree
  | hit hfree hvisible => exact .hit hfree hvisible
  | miss hskip => exact .miss hskip
  | peek => exact .peek
  | write hlocked => exact .write hlocked
  | sweep hfree => exact .sweep hfree
  | emit => exact .emit

/-! ## Servers -/

/-- An open transaction, as the server and its client know it. -/
structure Client (R C K : Type) (V : K → Type) (E : Type) where
  request : R
  code : C
  session : Session K V E

/-- The open transaction of a pool, given the program that remains at each stage. -/
def Client.asOpen (residual : C → Tx K V E α) (client : Client R C K V E) : Open R K V E α where
  request := client.request
  residual := residual client.code
  session := client.session

/-- The committed rows and the open transactions, with the same records of the past
as in a pool. -/
structure Server (T R C K : Type) (V : K → Type) (E α : Type) where
  rows : ∀ k, V k
  clients : T → Option (Client R C K V E)
  begun : List R
  history : List (Record R K V E α)

namespace Server

def initial (rows : ∀ k, V k) : Server T R C K V E α where
  rows := rows
  clients := fun _ => none
  begun := []
  history := []

/-- No transaction other than `t` holds the lock on `k`. -/
def Free (db : Server T R C K V E α) (t : T) (k : K) : Prop :=
  ∀ t' client, t' ≠ t → db.clients t' = some client → client.session.locks k = false

/-- The pool, given the program that remains at each stage. -/
def pool (residual : C → Tx K V E α) (db : Server T R C K V E α) : Pool T R K V E α where
  rows := db.rows
  sessions := Option.map (Client.asOpen residual) ∘ db.clients
  begun := db.begun
  history := db.history

variable [DecidableEq T]

/-- The server after the transaction `t` has been begun. -/
def begin (db : Server T R C K V E α) (t : T) (r : R) (code : C) : Server T R C K V E α :=
  { db with
    clients := Function.update db.clients t (some ⟨r, code, .start⟩)
    begun := db.begun ++ [r] }

/-- The server after the client of the transaction `t` has gone on. -/
def set (db : Server T R C K V E α) (t : T) (client : Client R C K V E) :
    Server T R C K V E α :=
  { db with clients := Function.update db.clients t (some client) }

/-- The server after the transaction `t` has committed with the result `a`. -/
def commit (db : Server T R C K V E α) (t : T) (client : Client R C K V E) (a : α) :
    Server T R C K V E α where
  rows := client.session.view db.rows
  clients := Function.update db.clients t none
  begun := db.begun
  history := db.history ++
    [⟨client.request, a, client.session.trace, db.rows, client.session.view db.rows⟩]

/-- The server after the transaction `t` has been rolled back. -/
def rollback (db : Server T R C K V E α) (t : T) : Server T R C K V E α :=
  { db with clients := Function.update db.clients t none }

section Simulation

variable {residual : C → Tx K V E α} {prog : R → Tx K V E α} {allow : List R → R → Prop}
  {db : Server T R C K V E α} {t : T} {client : Client R C K V E}

omit [DecidableEq T] in
theorem pool_sessions (h : db.clients t = some client) :
    (db.pool residual).sessions t = some (client.asOpen residual) :=
  congrArg (Option.map (Client.asOpen residual)) h

omit [DecidableEq T] in
theorem pool_idle (h : db.clients t = none) : (db.pool residual).sessions t = none :=
  congrArg (Option.map (Client.asOpen residual)) h

omit [DecidableEq T] in
/-- The same locks are free. -/
theorem pool_free : (db.pool residual).Free t = db.Free t := by
  funext k
  apply propext
  constructor
  · intro h t' client hne hclient
    exact h t' _ hne (pool_sessions hclient)
  · intro h t' o hne ho
    obtain ⟨client, hclient, rfl⟩ := Option.map_eq_some_iff.mp ho
    exact h t' client hne hclient

/-- The client may go on to another stage at which the same remains to be done. -/
theorem pool_relabel {code : C} (hclient : db.clients t = some client)
    (hcode : residual code = residual client.code) :
    (db.set t { client with code := code }).pool residual = db.pool residual := by
  have hsame : (db.pool residual).sessions t =
      some (Client.asOpen residual { client with code := code }) := by
    rw [pool_sessions hclient]
    simp only [Client.asOpen, hcode]
  simp only [set, pool, Function.comp_update, Option.map_some]
  rw [← hsame, pool, Function.update_eq_self]

variable [DecidableEq K]

theorem pool_relabel_reaches {code : C} (hclient : db.clients t = some client)
    (hcode : residual code = residual client.code) :
    Relation.ReflTransGen (Pool.Step prog allow) (db.pool residual)
      ((db.set t { client with code := code }).pool residual) := by
  rw [pool_relabel hclient hcode]

/-- A transaction begins with the whole of its program before it. -/
theorem pool_begin {r : R} {code : C} (hidle : db.clients t = none) (hallowed : allow db.begun r)
    (hcode : residual code = prog r) :
    Pool.Step prog allow (db.pool residual) ((db.begin t r code).pool residual) := by
  have heq : (db.begin t r code).pool residual = (db.pool residual).begin prog t r := by
    simp only [begin, pool, Pool.begin, Function.comp_update, Option.map_some, Client.asOpen,
      hcode]
  rw [heq]
  exact .begin (pool_idle hidle) hallowed

/-- A statement of the piece of code that the client executes. -/
theorem pool_advance {code : C} {s : Session K V E} (hclient : db.clients t = some client)
    (hadvance : Advance (db.Free t) db.rows (residual client.code, client.session)
      (residual code, s)) :
    Pool.Step prog allow (db.pool residual)
      ((db.set t ⟨client.request, code, s⟩).pool residual) := by
  have heq : (db.set t ⟨client.request, code, s⟩).pool residual =
      { db.pool residual with
        sessions := Function.update (db.pool residual).sessions t
          (some ⟨client.request, residual code, s⟩) } := by
    simp only [set, pool, Function.comp_update, Option.map_some, Client.asOpen]
  rw [heq]
  apply Pool.Step.advance (pool_sessions hclient)
  rw [pool_free]
  exact hadvance

theorem pool_commit {a : α} (hclient : db.clients t = some client)
    (hdone : residual client.code = .pure a) :
    Pool.Step prog allow (db.pool residual) ((db.commit t client a).pool residual) := by
  have heq : (db.commit t client a).pool residual =
      (db.pool residual).commit t (client.asOpen residual) a := by
    simp only [commit, pool, Pool.commit, Function.comp_update, Option.map_none, Client.asOpen]
  rw [heq]
  exact .commit (pool_sessions hclient) hdone

theorem pool_rollback (hclient : db.clients t = some client) :
    Pool.Step prog allow (db.pool residual) ((db.rollback t).pool residual) := by
  have heq : (db.rollback t).pool residual =
      { db.pool residual with
        sessions := Function.update (db.pool residual).sessions t none } := by
    simp only [rollback, pool, Function.comp_update, Option.map_none]
  rw [heq]
  exact .rollback (pool_sessions hclient)

/-- Rolling back has no effect on a transaction that has ended before. -/
theorem pool_rollback_reaches (t : T) :
    Relation.ReflTransGen (Pool.Step prog allow) (db.pool residual)
      ((db.rollback t).pool residual) := by
  cases hclient : db.clients t with
  | none =>
      have hsame : db.rollback t = db := by
        rw [rollback, ← hclient, Function.update_eq_self]
      rw [hsame]
  | some client => exact .single (pool_rollback hclient)

end Simulation

end Server

end Runkit.Foundation
