/-
  Foundation/Locking.lean --- which locks a transaction program asks for, which it
  holds, and which transactions wait for which.

      Asks Ψ p            from the text of `p` alone, every request for locks that
                          it makes satisfies `Ψ`
      Requests Φ p s      whenever a run of `p` from `s` is about to request locks,
                          `Φ` holds of the request and of the session at that
                          moment

  A transaction holds no locks but those that it requested (`Visits.granted`), so
  who may wait for whom follows from the requests of each program.
-/
import Runkit.Foundation.Pool
import Runkit.Foundation.Program

set_option autoImplicit false

namespace Runkit.Foundation

variable {T R K : Type} {V : K → Type} {E ε α β : Type}

/-! ## Requests for locks -/

/-- A statement that takes locks. -/
inductive LockRequest (K : Type) (V : K → Type) where
  /-- Wait for the lock on a row. -/
  | row (k : K)
  /-- Take the lock on a row, unless it is not visible or another transaction has
  locked it. -/
  | skipLocked (k : K) (visible : V k → Bool)
  /-- Wait for the locks on all rows that match. -/
  | rows (matching : ∀ k, V k → Bool)

/-- The locks that the request takes, if the rows are as in `view`. -/
def LockRequest.Covers (view : ∀ k, V k) : LockRequest K V → K → Prop
  | .row k', k => k = k'
  | .skipLocked k' visible, k => k = k' ∧ visible (view k') = true
  | .rows matching, k => matching k (view k) = true

/-- The request waits for locks that are held by others. -/
def LockRequest.waits : LockRequest K V → Bool
  | .row _ => true
  | .skipLocked _ _ => false
  | .rows _ => true

namespace Tx

/-- The request for locks that the program is about to make. -/
def lockRequest : Tx K V E α → Option (LockRequest K V)
  | .lock k _ => some (.row k)
  | .tryLock k visible _ => some (.skipLocked k visible)
  | .sweep matching _ _ => some (.rows matching)
  | _ => none

/-! ## From the text of a program -/

/-- Every request for locks that the program can make satisfies `Ψ`. -/
def Asks (Ψ : LockRequest K V → Prop) : Tx K V E α → Prop
  | .pure _ => True
  | .fail => True
  | .lock k next => Ψ (.row k) ∧ ∀ row, Asks Ψ (next row)
  | .tryLock k visible next => Ψ (.skipLocked k visible) ∧ ∀ row, Asks Ψ (next row)
  | .peek _ next => ∀ row, Asks Ψ (next row)
  | .write _ _ next => Asks Ψ next
  | .sweep matching _ next => Ψ (.rows matching) ∧ Asks Ψ next
  | .emit _ next => Asks Ψ next

section Asks

variable {Ψ : LockRequest K V → Prop}

theorem Asks.bind {p : Tx K V E α} {rest : α → Tx K V E β}
    (hp : Asks Ψ p) (hrest : ∀ a, Asks Ψ (rest a)) : Asks Ψ (p.bind rest) := by
  induction p with
  | pure a => exact hrest a
  | fail => exact True.intro
  | lock k next ih => exact ⟨hp.1, fun row => ih row (hp.2 row)⟩
  | tryLock k visible next ih => exact ⟨hp.1, fun row => ih row (hp.2 row)⟩
  | peek k next ih => exact fun row => ih row (hp row)
  | write k row next ih => exact ih hp
  | sweep matching update next ih => exact ⟨hp.1, ih hp.2⟩
  | emit e next ih => exact ih hp

theorem Asks.mono {Ψ' : LockRequest K V → Prop} {p : Tx K V E α} (hp : Asks Ψ p)
    (hΨ : ∀ w, Ψ w → Ψ' w) : Asks Ψ' p := by
  induction p with
  | pure a => exact True.intro
  | fail => exact True.intro
  | lock k next ih => exact ⟨hΨ _ hp.1, fun row => ih row (hp.2 row)⟩
  | tryLock k visible next ih => exact ⟨hΨ _ hp.1, fun row => ih row (hp.2 row)⟩
  | peek k next ih => exact fun row => ih row (hp row)
  | write k row next ih => exact ih hp
  | sweep matching update next ih => exact ⟨hΨ _ hp.1, ih hp.2⟩
  | emit e next ih => exact ih hp

theorem Asks.except_bind {p : Program K V E ε α} {rest : α → Program K V E ε β}
    (hp : Asks Ψ p.run) (hrest : ∀ a, Asks Ψ (rest a).run) : Asks Ψ (p >>= rest).run := by
  apply Asks.bind hp
  intro a
  cases a with
  | ok a => exact hrest a
  | error e => exact True.intro

@[simp] theorem asks_ok {a : α} : Asks Ψ (Pure.pure a : Program K V E ε α).run := True.intro

@[simp] theorem asks_throw {e : ε} : Asks Ψ (throw e : Program K V E ε α).run := True.intro

@[simp] theorem asks_abort : Asks Ψ (Program.abort : Program K V E ε α).run := True.intro

theorem asks_lock {k : K} (hk : Ψ (.row k)) :
    Asks Ψ (Program.lock k : Program K V E ε _).run :=
  ⟨hk, fun _ => True.intro⟩

theorem asks_tryLock {k : K} {visible : V k → Bool} (hk : Ψ (.skipLocked k visible)) :
    Asks Ψ (Program.tryLock k visible : Program K V E ε _).run :=
  ⟨hk, fun _ => True.intro⟩

@[simp] theorem asks_write {k : K} {row : V k} :
    Asks Ψ (Program.write k row : Program K V E ε _).run :=
  True.intro

theorem asks_sweep {matching : ∀ k, V k → Bool} {update : ∀ k, V k → V k}
    (hmatching : Ψ (.rows matching)) :
    Asks Ψ (Program.sweep matching update : Program K V E ε _).run :=
  ⟨hmatching, True.intro⟩

@[simp] theorem asks_emit {e : E} : Asks Ψ (Program.emit e : Program K V E ε _).run :=
  True.intro

theorem Asks.lockRequest {p : Tx K V E α} (hp : Asks Ψ p)
    {w : LockRequest K V} (hw : p.lockRequest = some w) : Ψ w := by
  cases p with
  | lock k next =>
      cases hw
      exact hp.1
  | tryLock k visible next =>
      cases hw
      exact hp.1
  | sweep matching update next =>
      cases hw
      exact hp.1
  | _ => cases hw

end Asks

variable [DecidableEq K] {rely : Rely K V} {rows : ∀ k, V k}

/-- What is left of a program asks for nothing that the program does not. -/
theorem Step.asks {Ψ : LockRequest K V → Prop} {c c' : Tx K V E α × Session K V E}
    (h : Step rely rows c c') (hc : Asks Ψ c.1) : Asks Ψ c'.1 := by
  cases h with
  | lock => exact hc.2 _
  | hit _ => exact hc.2 _
  | miss => exact hc.2 _
  | peek _ _ => exact hc _
  | write _ => exact hc
  | sweep _ _ => exact hc.2
  | emit => exact hc

/-! ## At the moment of the request -/

section Requests

variable {Φ : LockRequest K V → Session K V E → Prop}

/-- Whenever a run of the program is about to request locks, `Φ` holds of the
request and of the session at that moment. -/
def Requests (rely : Rely K V) (rows : ∀ k, V k) (Φ : LockRequest K V → Session K V E → Prop)
    (p : Tx K V E α) (s : Session K V E) : Prop :=
  ∀ q t w, Visits rely rows p s q t → q.lockRequest = some w → Φ w t

/-- Locks are never released, so `Φ` may depend on those that are held already. -/
theorem Requests.of_asks {Ψ : LockRequest K V → Prop} {p : Tx K V E α} {s : Session K V E}
    (hp : Asks Ψ p)
    (hΨ : ∀ w t, Ψ w → (∀ k, s.locks k = true → t.locks k = true) → Φ w t) :
    Requests rely rows Φ p s := by
  intro q t w hvisits hw
  have hstep : ∀ c c' : Tx K V E α × Session K V E, Asks Ψ c.1 → Step rely rows c c' →
      Asks Ψ c'.1 := fun _ _ hc hstep => hstep.asks hc
  have hq : Asks Ψ q := run_preserves hstep hvisits hp
  exact hΨ w t (hq.lockRequest hw) hvisits.locks_mono

theorem Requests.bind {p : Tx K V E α} {rest : α → Tx K V E β} {s : Session K V E}
    (hp : Requests rely rows Φ p s)
    (hrest : ∀ a t, Runs rely rows p s a t → Requests rely rows Φ (rest a) t) :
    Requests rely rows Φ (p.bind rest) s := by
  intro q t w hvisits hw
  obtain ⟨p', rfl, hfirst⟩ | ⟨a, u, hruns, hvisits⟩ := visits_bind hvisits
  · cases p' with
    | pure a => exact hrest a t hfirst _ t w .refl hw
    | lock k next => exact hp _ t w hfirst hw
    | tryLock k visible next => exact hp _ t w hfirst hw
    | sweep matching update next => exact hp _ t w hfirst hw
    | _ => cases hw
  · exact hrest a u hruns q t w hvisits hw

theorem Requests.except_bind {p : Program K V E ε α} {rest : α → Program K V E ε β}
    {s : Session K V E} (hp : Requests rely rows Φ p.run s)
    (hrest : ∀ a t, Runs rely rows p.run s (.ok a) t → Requests rely rows Φ (rest a).run t) :
    Requests rely rows Φ (p >>= rest).run s := by
  apply Requests.bind hp
  intro a t hruns
  cases a with
  | ok a => exact hrest a t hruns
  | error e => exact .of_asks (Ψ := fun _ => False) True.intro (fun _ _ hfalse => hfalse.elim)

theorem Requests.lock_bind {k : K} {rest : V k → Program K V E ε β} {s : Session K V E}
    (hk : Φ (.row k) s)
    (hrest : Requests rely rows Φ (rest (s.view rows k)).run (s.acquire k)) :
    Requests rely rows Φ (Program.lock k >>= rest).run s := by
  intro q t w hvisits hw
  obtain heq | ⟨c, hstep, hvisits⟩ := Relation.ReflTransGen.cases_head hvisits
  · cases heq
    cases hw
    exact hk
  · cases hstep
    exact hrest q t w hvisits hw

/-- A program that asks for no locks. -/
theorem Requests.of_none {p : Tx K V E α} {s : Session K V E} (hp : Asks (fun _ => False) p) :
    Requests rely rows Φ p s :=
  .of_asks hp fun _ _ hfalse _ => hfalse.elim

/-- A transaction holds no locks but those that its program has requested. -/
theorem Visits.granted {P : K → Prop} {p q : Tx K V E α} {s t : Session K V E}
    (h : Visits rely rows p s q t) (hs : s.Disciplined) (hp : Requests rely rows Φ p s)
    (hΦ : ∀ w u k, u.Disciplined → Φ w u → w.Covers (u.view rows) k → u.locks k = true ∨ P k)
    {k : K} (hk : t.locks k = true) : s.locks k = true ∨ P k := by
  unfold Visits at h
  generalize hfinish : (q, t) = finish at h
  induction h generalizing q t with
  | refl =>
      cases hfinish
      exact Or.inl hk
  | @tail mid last hvisits hlast ih =>
      subst hfinish
      obtain ⟨m, u⟩ := mid
      have hold : u.locks k = true → s.locks k = true ∨ P k := fun hu => ih hu rfl
      have hnew : ∀ w, m.lockRequest = some w → w.Covers (u.view rows) k →
          s.locks k = true ∨ P k := by
        intro w hw hcovers
        have hdisciplined : u.Disciplined := Visits.disciplined hvisits hs
        obtain hheld | hP := hΦ w u k hdisciplined (hp m u w hvisits hw) hcovers
        · exact hold hheld
        · exact Or.inr hP
      cases hlast with
      | lock =>
          obtain rfl | hk := (Session.acquire_locks _ _ k).mp hk
          · exact hnew _ rfl rfl
          · exact hold hk
      | hit hvisible =>
          obtain rfl | hk := (Session.acquire_locks _ _ k).mp hk
          · exact hnew _ rfl ⟨rfl, hvisible⟩
          · exact hold hk
      | @sweep matching update next _ seen hseen hexact =>
          obtain hheld | hmatch := Bool.or_eq_true_iff.mp hk
          · exact hold hheld
          · refine hnew _ rfl ?_
            change matching k (u.view rows k) = true
            rwa [Session.view, ← hexact k hk]
      | miss => exact hold hk
      | peek _ _ => exact hold hk
      | write _ => exact hold hk
      | emit => exact hold hk

end Requests

end Tx

/-! ## Waiting -/

/-- One transaction waits for another: it is about to request a lock that the other
one holds. -/
def Pool.WaitsFor (p : Pool T R K V E α) (t t' : T) : Prop :=
  t' ≠ t ∧ ∃ o o' w k, p.sessions t = some o ∧ p.sessions t' = some o' ∧
    o.residual.lockRequest = some w ∧ w.waits = true ∧ w.Covers (o.session.view p.rows) k ∧
    o'.session.locks k = true

/-- A relation has no cycle if each of its edges starts at most one step after where
a path can start, or ends where a path must end. -/
theorem acyclic_of_border {σ : Type} {W : σ → σ → Prop}
    (hborder : ∀ a b, W a b →
      (∀ x, ¬ W x a) ∨ (∀ x y, W x a → ¬ W y x) ∨ ∀ y, ¬ W b y) (a : σ) :
    ¬ Relation.TransGen W a a := by
  intro hcycle
  obtain ⟨b, hab, hba⟩ := Relation.TransGen.head'_iff.mp hcycle
  obtain ⟨x, hax, hxa⟩ := Relation.TransGen.tail'_iff.mp hcycle
  obtain hfirst | hsecond | hlast := hborder a b hab
  · exact hfirst x hxa
  · -- Going round, something comes before `x` too.
    obtain ⟨y, -, hyx⟩ := Relation.TransGen.tail'_iff.mp (Relation.TransGen.head' hxa hax)
    exact hsecond x y hxa hyx
  · obtain ⟨y, hby, -⟩ := Relation.TransGen.head'_iff.mp (Relation.TransGen.tail' hba hab)
    exact hlast y hby

end Runkit.Foundation
