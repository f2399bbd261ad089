/-
  Foundation/Serve.lean --- executing transactions one after another.

  `Tx.exec` executes a program while no other transaction is open, and
  `Pool.serve` executes a list of requests, rolling back those that fail.  Both
  are computable, and what they compute is a run of the pool (`Pool.serve_run`).
  `Pool.interleave` executes the statements of several transactions in a given
  order.
-/
import Runkit.Foundation.Pool
import Runkit.Foundation.Program

set_option autoImplicit false

namespace Runkit.Foundation

variable {T R K : Type} {V : K → Type} {E α : Type} [DecidableEq K]

/-- Execute a program on the committed `rows`, while no other transaction is
open.  The result is `none` if the transaction can only be rolled back. -/
def Tx.exec (rows : ∀ k, V k) : Tx K V E α → Session K V E → Option (α × Session K V E)
  | .pure a, s => some (a, s)
  | .fail, _ => none
  | .lock k next, s => Tx.exec rows (next (s.view rows k)) (s.acquire k)
  | .tryLock k visible next, s =>
      if visible (s.view rows k) then
        Tx.exec rows (next (some (s.view rows k))) (s.acquire k)
      else
        Tx.exec rows (next none) s
  | .peek k next, s => Tx.exec rows (next (s.view rows k)) s
  | .write k row next, s => if s.locks k then Tx.exec rows next (s.put k row) else none
  | .sweep matching update next, s => Tx.exec rows next (s.sweep rows matching update)
  | .emit e next, s => Tx.exec rows next (s.note e)

theorem Tx.exec_tryLock_bind {ε β : Type} {rows : ∀ k, V k} {k : K} {visible : V k → Bool}
    {rest : Option (V k) → Program K V E ε β} {s : Session K V E} :
    Tx.exec rows (Program.tryLock k visible >>= rest).run s =
      if visible (s.view rows k) then
        Tx.exec rows (rest (some (s.view rows k))).run (s.acquire k)
      else
        Tx.exec rows (rest none).run s :=
  rfl

theorem Tx.exec_advances {rows : ∀ k, V k} {free : K → Prop} (hfree : ∀ k, free k)
    {p : Tx K V E α} {s t : Session K V E} {a : α} (h : Tx.exec rows p s = some (a, t)) :
    Relation.ReflTransGen (Advance free rows) (p, s) (.pure a, t) := by
  induction p generalizing s with
  | pure b =>
      cases h
      exact .refl
  | fail => cases h
  | lock k next ih => exact .head (.lock (hfree k)) (ih _ h)
  | tryLock k visible next ih =>
      unfold Tx.exec at h
      split at h
      · rename_i hvisible
        exact .head (.hit (hfree k) hvisible) (ih _ h)
      · rename_i hvisible
        exact .head (.miss fun hboth => hvisible hboth.2) (ih _ h)
  | peek k next ih => exact .head .peek (ih _ h)
  | write k row next ih =>
      unfold Tx.exec at h
      split at h
      · rename_i hlocked
        exact .head (.write hlocked) (ih h)
      · cases h
  | sweep matching update next ih => exact .head (.sweep fun k _ => hfree k) (ih h)
  | emit e next ih => exact .head .emit (ih h)

namespace Pool

/-- The pool after a request has been executed while no other transaction is
open. -/
def serveOne (prog : R → Tx K V E α) (p : Pool T R K V E α) (r : R) : Pool T R K V E α :=
  match Tx.exec p.rows (prog r) .start with
  | none => { p with begun := p.begun ++ [r] }
  | some (a, s) =>
      { rows := s.view p.rows
        sessions := p.sessions
        begun := p.begun ++ [r]
        history := p.history ++ [⟨r, a, s.trace, p.rows, s.view p.rows⟩] }

/-- The pool after a list of requests has been executed one after another. -/
def serve (prog : R → Tx K V E α) : List R → Pool T R K V E α → Pool T R K V E α
  | [], p => p
  | r :: rest, p => serve prog rest (serveOne prog p r)

/-- Each of the requests may be begun after those before it. -/
def AllAllowed (allow : List R → R → Prop) : List R → List R → Prop
  | _, [] => True
  | begun, r :: rest => allow begun r ∧ AllAllowed allow (begun ++ [r]) rest

variable [DecidableEq T] {prog : R → Tx K V E α} {allow : List R → R → Prop}

omit [DecidableEq K] in
theorem begun_rollback {p : Pool T R K V E α} {t : T} {o : Open R K V E α} {begun : List R}
    (hidle : p.sessions t = none) :
    ({ p with
        sessions := Function.update (Function.update p.sessions t (some o)) t none
        begun := begun } : Pool T R K V E α) = { p with begun := begun } := by
  rw [Function.update_idem, ← hidle, Function.update_eq_self]

/-- A program that is executed alone takes the steps of the pool. -/
theorem run_session {p : Pool T R K V E α} {t : T} {r : R} {begun : List R}
    (hidle : ∀ t', p.sessions t' = none) {q q' : Tx K V E α} {s s' : Session K V E}
    (h : Relation.ReflTransGen (Advance (fun _ => True) p.rows) (q, s) (q', s')) :
    Relation.ReflTransGen (Step prog allow)
      { p with sessions := Function.update p.sessions t (some ⟨r, q, s⟩), begun := begun }
      { p with sessions := Function.update p.sessions t (some ⟨r, q', s'⟩), begun := begun } := by
  generalize hstart : (q, s) = start at h
  generalize hfinish : (q', s') = finish at h
  induction h generalizing q' s' with
  | refl =>
      obtain ⟨rfl, rfl⟩ := Prod.mk.inj (hstart.trans hfinish.symm)
      exact .refl
  | @tail mid last _ hlast ih =>
      subst hfinish
      obtain ⟨m, u⟩ := mid
      refine .tail (ih rfl) ?_
      have hfree : ∀ k, Pool.Free
          { p with sessions := Function.update p.sessions t (some ⟨r, m, u⟩), begun := begun }
          t k := by
        intro k t' o hne ho
        obtain ⟨heq, -⟩ | ⟨-, hold⟩ := update_eq_some ho
        · exact absurd heq hne
        · rw [hidle t'] at hold
          cases hold
      have hadvance : Advance (Pool.Free
          { p with sessions := Function.update p.sessions t (some ⟨r, m, u⟩), begun := begun } t)
          p.rows (m, u) (q', s') := by
        cases hlast with
        | lock _ => exact .lock (hfree _)
        | hit _ hvisible => exact .hit (hfree _) hvisible
        | miss hskip => exact .miss fun hboth => hskip ⟨True.intro, hboth.2⟩
        | peek => exact .peek
        | write hlocked => exact .write hlocked
        | sweep _ => exact .sweep fun k _ => hfree k
        | emit => exact .emit
      have hopen : Function.update p.sessions t (some ⟨r, m, u⟩) t = some ⟨r, m, u⟩ := by simp
      have hstep : Step prog allow
          { p with sessions := Function.update p.sessions t (some ⟨r, m, u⟩), begun := begun } _ :=
        .advance hopen hadvance
      simpa using hstep

/-- A request that has been begun while no other transaction is open gets to where
it can commit. -/
theorem begin_run {t : T} {p : Pool T R K V E α} {r : R} {a : α} {s : Session K V E}
    (hidle : ∀ t', p.sessions t' = none) (hexec : Tx.exec p.rows (prog r) .start = some (a, s)) :
    ∃ p' o, Relation.ReflTransGen (Step prog allow) (p.begin prog t r) p' ∧
      p'.sessions t = some o ∧ o.residual = .pure a ∧ p'.commit t o a = serveOne prog p r := by
  have hadvances := Tx.exec_advances (fun _ => True.intro) hexec
  have hsessions : Function.update (Function.update p.sessions t (some ⟨r, .pure a, s⟩)) t
      none = p.sessions := by
    rw [Function.update_idem, ← hidle t, Function.update_eq_self]
  refine ⟨_, ⟨r, .pure a, s⟩, run_session hidle hadvances, by simp, rfl, ?_⟩
  rw [Pool.commit, hsessions, serveOne, hexec]

theorem serveOne_run (t : T) {p : Pool T R K V E α} {r : R}
    (hidle : ∀ t', p.sessions t' = none) (hallowed : allow p.begun r) :
    Relation.ReflTransGen (Step prog allow) p (serveOne prog p r) := by
  have hbegin : Step prog allow p (p.begin prog t r) := .begin (hidle t) hallowed
  cases hexec : Tx.exec p.rows (prog r) .start with
  | none =>
      have hrollback : Step prog allow (p.begin prog t r) _ :=
        .rollback (t := t) (o := ⟨r, prog r, .start⟩) (by simp)
      rw [Pool.begin, begun_rollback (hidle t)] at hrollback
      rw [serveOne, hexec]
      exact .tail (.single hbegin) hrollback
  | some done =>
      obtain ⟨p', o, hrun, hopen, hdone, hcommit⟩ := begin_run (t := t) hidle hexec
      rw [← hcommit]
      exact .tail (.trans (.single hbegin) hrun) (.commit hopen hdone)

omit [DecidableEq T] in
theorem serveOne_sessions (p : Pool T R K V E α) (r : R) :
    (serveOne prog p r).sessions = p.sessions := by
  unfold serveOne
  split <;> rfl

omit [DecidableEq T] in
theorem serveOne_begun (p : Pool T R K V E α) (r : R) :
    (serveOne prog p r).begun = p.begun ++ [r] := by
  unfold serveOne
  split <;> rfl

/-- Executing requests one after another is a run of the pool. -/
theorem serve_run (t : T) {p : Pool T R K V E α} {rs : List R}
    (hidle : ∀ t', p.sessions t' = none) (hallowed : AllAllowed allow p.begun rs) :
    Relation.ReflTransGen (Step prog allow) p (serve prog rs p) := by
  induction rs generalizing p with
  | nil => exact .refl
  | cons r rest ih =>
      have hone : Relation.ReflTransGen (Step prog allow) p (serveOne prog p r) :=
        serveOne_run t hidle hallowed.1
      refine hone.trans (ih ?_ ?_)
      · intro t'
        rw [serveOne_sessions]
        exact hidle t'
      · rw [serveOne_begun]
        exact hallowed.2

end Pool

/-! ## Leaving a transaction open -/

/-- Execute one statement of a program while no other transaction is open. -/
def Tx.stepAlone (rows : ∀ k, V k) : Tx K V E α × Session K V E → Tx K V E α × Session K V E
  | (.pure a, s) => (.pure a, s)
  | (.fail, s) => (.fail, s)
  | (.lock k next, s) => (next (s.view rows k), s.acquire k)
  | (.tryLock k visible next, s) =>
      if visible (s.view rows k) then (next (some (s.view rows k)), s.acquire k)
      else (next none, s)
  | (.peek k next, s) => (next (s.view rows k), s)
  | (.write k row next, s) => if s.locks k then (next, s.put k row) else (.write k row next, s)
  | (.sweep matching update next, s) => (next, s.sweep rows matching update)
  | (.emit e next, s) => (next, s.note e)

/-- Execute a number of statements. -/
def Tx.stepsAlone (rows : ∀ k, V k) :
    Nat → Tx K V E α × Session K V E → Tx K V E α × Session K V E
  | 0, c => c
  | n + 1, c => Tx.stepsAlone rows n (Tx.stepAlone rows c)

theorem Tx.stepAlone_advances (rows : ∀ k, V k) (c : Tx K V E α × Session K V E) :
    Relation.ReflTransGen (Advance (fun _ => True) rows) c (Tx.stepAlone rows c) := by
  obtain ⟨p, s⟩ := c
  cases p with
  | pure a => exact .refl
  | fail => exact .refl
  | lock k next => exact .single (.lock True.intro)
  | tryLock k visible next =>
      rw [Tx.stepAlone]
      split
      · rename_i hvisible
        exact .single (.hit True.intro hvisible)
      · rename_i hvisible
        exact .single (.miss fun hboth => hvisible hboth.2)
  | peek k next => exact .single .peek
  | write k row next =>
      rw [Tx.stepAlone]
      split
      · rename_i hlocked
        exact .single (.write hlocked)
      · exact .refl
  | sweep matching update next => exact .single (.sweep fun _ _ => True.intro)
  | emit e next => exact .single .emit

theorem Tx.stepsAlone_advances (rows : ∀ k, V k) (n : Nat) (c : Tx K V E α × Session K V E) :
    Relation.ReflTransGen (Advance (fun _ => True) rows) c (Tx.stepsAlone rows n c) := by
  induction n generalizing c with
  | zero => exact .refl
  | succ n ih => exact (Tx.stepAlone_advances rows c).trans (ih _)

namespace Pool

variable [DecidableEq T] {prog : R → Tx K V E α} {allow : List R → R → Prop}

/-- The pool after a request has been begun and `n` statements of its program have
been executed. -/
def leaveOpen (prog : R → Tx K V E α) (t : T) (r : R) (n : Nat) (p : Pool T R K V E α) :
    Pool T R K V E α :=
  let c := Tx.stepsAlone p.rows n (prog r, .start)
  { p with
    sessions := Function.update p.sessions t (some ⟨r, c.1, c.2⟩)
    begun := p.begun ++ [r] }

theorem leaveOpen_run (t : T) {p : Pool T R K V E α} {r : R} {n : Nat}
    (hidle : ∀ t', p.sessions t' = none) (hallowed : allow p.begun r) :
    Relation.ReflTransGen (Step prog allow) p (leaveOpen prog t r n p) := by
  have hbegin : Step prog allow p _ := .begin (hidle t) hallowed
  exact .trans (.single hbegin) (run_session hidle (Tx.stepsAlone_advances p.rows n _))

/-! ## Interleaving -/

/-- A step of a pool, other than a commit. -/
inductive Action (T R : Type) where
  | begin (t : T) (r : R)
  /-- Execute the next statement of a transaction. -/
  | advance (t : T)
  | rollback (t : T)

/-- The request that is begun by an action. -/
def Action.request : Action T R → Option R
  | .begin _ r => some r
  | _ => none

/-- None of the transactions `ts` other than `t` holds the lock on `k`. -/
def isFree (p : Pool T R K V E α) (ts : List T) (t : T) (k : K) : Bool :=
  ts.all fun t' => decide (t' = t) || (match p.sessions t' with
    | none => true
    | some o => !o.session.locks k)

/-- Execute the next statement of a transaction among the transactions `ts`.  The
result is `none` if it has to wait, or if whether it has to can not be computed. -/
def next (p : Pool T R K V E α) (ts : List T) (t : T) (o : Open R K V E α) :
    Option (Tx K V E α × Session K V E) :=
  match o.residual with
  | .pure _ => none
  | .fail => none
  | .lock k next =>
      if p.isFree ts t k then some (next (o.session.view p.rows k), o.session.acquire k) else none
  | .tryLock k visible next =>
      if p.isFree ts t k && visible (o.session.view p.rows k) then
        some (next (some (o.session.view p.rows k)), o.session.acquire k)
      else
        some (next none, o.session)
  | .peek k next => some (next (o.session.view p.rows k), o.session)
  | .write k row next => if o.session.locks k then some (next, o.session.put k row) else none
  | .sweep _ _ _ => none
  | .emit e next => some (next, o.session.note e)

/-- The pool after an action, if it is possible. -/
def act (prog : R → Tx K V E α) (ts : List T) (p : Pool T R K V E α) :
    Action T R → Option (Pool T R K V E α)
  | .begin t r =>
      match p.sessions t with
      | none => some (p.begin prog t r)
      | some _ => none
  | .advance t =>
      match p.sessions t with
      | none => none
      | some o => (p.next ts t o).map fun c =>
          { p with sessions := Function.update p.sessions t (some ⟨o.request, c.1, c.2⟩) }
  | .rollback t =>
      match p.sessions t with
      | none => none
      | some _ => some { p with sessions := Function.update p.sessions t none }

/-- The pool after as many of the actions as are possible one after another. -/
def interleave (prog : R → Tx K V E α) (ts : List T) :
    List (Action T R) → Pool T R K V E α → Pool T R K V E α
  | [], p => p
  | action :: rest, p =>
      match p.act prog ts action with
      | none => p
      | some p' => interleave prog ts rest p'

omit [DecidableEq K] in
theorem free_of_isFree {p : Pool T R K V E α} {ts : List T} {t : T} {k : K}
    (hts : ∀ t, t ∈ ts) (h : p.isFree ts t k = true) : p.Free t k := by
  intro t' o hne hopen
  have hall := List.all_eq_true.mp h t' (hts t')
  simpa [hopen, hne] using hall

omit [DecidableEq K] in
theorem isFree_of_free {p : Pool T R K V E α} {ts : List T} {t : T} {k : K}
    (h : p.Free t k) : p.isFree ts t k = true := by
  refine List.all_eq_true.mpr ?_
  intro t' _
  by_cases hsame : t' = t
  · simp [hsame]
  · cases hopen : p.sessions t' with
    | none => simp
    | some o => simp [h t' o hsame hopen]

theorem next_advances {p : Pool T R K V E α} {ts : List T} {t : T} {o : Open R K V E α}
    {c : Tx K V E α × Session K V E} (hts : ∀ t, t ∈ ts) (h : p.next ts t o = some c) :
    Advance (p.Free t) p.rows (o.residual, o.session) c := by
  unfold next at h
  split at h
  · cases h
  · cases h
  · rename_i hresidual
    rw [hresidual]
    split at h
    · rename_i hfree
      cases h
      exact .lock (free_of_isFree hts hfree)
    · cases h
  · rename_i hresidual
    rw [hresidual]
    split at h
    · rename_i hboth
      obtain ⟨hfree, hvisible⟩ := Bool.and_eq_true_iff.mp hboth
      cases h
      exact .hit (free_of_isFree hts hfree) hvisible
    · rename_i hboth
      cases h
      refine .miss ?_
      intro hskip
      exact hboth (by rw [isFree_of_free hskip.1, hskip.2]; rfl)
  · rename_i hresidual
    rw [hresidual]
    cases h
    exact .peek
  · rename_i hresidual
    rw [hresidual]
    split at h
    · rename_i hlocked
      cases h
      exact .write hlocked
    · cases h
  · cases h
  · rename_i hresidual
    rw [hresidual]
    cases h
    exact .emit

theorem act_step {p p' : Pool T R K V E α} {ts : List T} {action : Action T R}
    (hts : ∀ t, t ∈ ts) (hallowed : ∀ r, action.request = some r → allow p.begun r)
    (h : p.act prog ts action = some p') : Step prog allow p p' := by
  cases action with
  | begin t r =>
      simp only [act] at h
      split at h
      · rename_i hidle
        cases h
        exact .begin hidle (hallowed r rfl)
      · cases h
  | advance t =>
      simp only [act] at h
      split at h
      · cases h
      · rename_i o hopen
        obtain ⟨c, hnext, rfl⟩ := Option.map_eq_some_iff.mp h
        exact .advance hopen (next_advances hts hnext)
  | rollback t =>
      simp only [act] at h
      split at h
      · cases h
      · rename_i o hopen
        cases h
        exact .rollback hopen

theorem act_begun {p p' : Pool T R K V E α} {ts : List T} {action : Action T R}
    (h : p.act prog ts action = some p') :
    p'.begun = p.begun ++ action.request.toList := by
  cases action with
  | begin t r =>
      simp only [act] at h
      split at h
      · cases h
        rfl
      · cases h
  | advance t =>
      simp only [act] at h
      split at h
      · cases h
      · obtain ⟨c, -, rfl⟩ := Option.map_eq_some_iff.mp h
        exact (List.append_nil _).symm
  | rollback t =>
      simp only [act] at h
      split at h
      · cases h
      · cases h
        exact (List.append_nil _).symm

/-- Interleaving the statements of transactions is a run of the pool. -/
theorem interleave_run {p : Pool T R K V E α} {ts : List T} {actions : List (Action T R)}
    (hts : ∀ t, t ∈ ts) (hallowed : AllAllowed allow p.begun (actions.filterMap Action.request)) :
    Relation.ReflTransGen (Step prog allow) p (interleave prog ts actions p) := by
  induction actions generalizing p with
  | nil => exact .refl
  | cons action rest ih =>
      unfold interleave
      split
      · exact .refl
      · rename_i p' hact
        have hbegun := act_begun hact
        cases hrequest : action.request with
        | none =>
            rw [List.filterMap_cons_none hrequest] at hallowed
            rw [hrequest, Option.toList_none, List.append_nil] at hbegun
            refine .head (act_step hts (by simp [hrequest]) hact) (ih ?_)
            rwa [hbegun]
        | some r =>
            rw [List.filterMap_cons_some hrequest] at hallowed
            rw [hrequest, Option.toList_some] at hbegun
            refine .head (act_step hts ?_ hact) (ih ?_)
            · intro r' hr'
              cases hrequest.symm.trans hr'
              exact hallowed.1
            · rw [hbegun]
              exact hallowed.2

end Pool

end Runkit.Foundation
