/-
  Foundation/Pool.lean --- transactions that run at the same time.

  A pool holds the committed rows and any number of open transactions.  At each
  step one transaction executes one statement, commits, or rolls back; a
  transaction that needs a lock held by another one cannot step until the
  other one ends.

  The point of the file is `Pool.Step.consistent`.  Whatever an open
  transaction has done so far is a serial run of its program on the rows that
  are committed *now*, even though other transactions committed in between.
  Hence the rows that a transaction commits are those of a serial run
  (`Serial`), and an invariant of serial runs is an invariant of every
  interleaving (`Pool.run_invariant`).  This is the usual argument for
  two-phase locking, except that rows read without a lock are accounted for by
  `Rely` rather than forbidden.
-/
import Runkit.Foundation.Run
import Runkit.Foundation.Transaction

set_option autoImplicit false

namespace Runkit.Foundation

variable {T R K : Type} {V : K → Type} {E α : Type}

/-- An open transaction: what it was asked to do, what remains of its program,
and its session. -/
structure Open (R K : Type) (V : K → Type) (E α : Type) where
  request : R
  residual : Tx K V E α
  session : Session K V E

/-- A committed transaction, with the rows as they were just before and just
after it committed. -/
structure Record (R K : Type) (V : K → Type) (E α : Type) where
  request : R
  result : α
  trace : List E
  before : ∀ k, V k
  after : ∀ k, V k

/-- The committed rows, the open transactions, and two records of the past: the
requests that were ever begun and the transactions that were ever committed,
oldest first. -/
structure Pool (T R K : Type) (V : K → Type) (E α : Type) where
  rows : ∀ k, V k
  sessions : T → Option (Open R K V E α)
  begun : List R
  history : List (Record R K V E α)

namespace Pool

/-- A pool in which nothing has happened yet. -/
def initial (rows : ∀ k, V k) : Pool T R K V E α where
  rows := rows
  sessions := fun _ => none
  begun := []
  history := []

/-- No transaction other than `t` holds the lock on `k`. -/
def Free (p : Pool T R K V E α) (t : T) (k : K) : Prop :=
  ∀ t' o, t' ≠ t → p.sessions t' = some o → o.session.locks k = false

end Pool

variable [DecidableEq K]

/-- One statement of an open transaction.  `free k` says that no other
transaction holds the lock on `k`. -/
inductive Advance (free : K → Prop) (rows : ∀ k, V k) :
    Tx K V E α × Session K V E → Tx K V E α × Session K V E → Prop where
  | lock {k : K} {next : V k → Tx K V E α} {s : Session K V E} (hfree : free k) :
      Advance free rows (.lock k next, s) (next (s.view rows k), s.acquire k)
  | hit {k : K} {visible : V k → Bool} {next : Option (V k) → Tx K V E α}
      {s : Session K V E} (hfree : free k) (hvisible : visible (s.view rows k) = true) :
      Advance free rows (.tryLock k visible next, s) (next (some (s.view rows k)), s.acquire k)
  | miss {k : K} {visible : V k → Bool} {next : Option (V k) → Tx K V E α}
      {s : Session K V E} (hskip : ¬ (free k ∧ visible (s.view rows k) = true)) :
      Advance free rows (.tryLock k visible next, s) (next none, s)
  | peek {k : K} {next : V k → Tx K V E α} {s : Session K V E} :
      Advance free rows (.peek k next, s) (next (s.view rows k), s)
  | write {k : K} {row : V k} {next : Tx K V E α} {s : Session K V E}
      (hlocked : s.locks k = true) :
      Advance free rows (.write k row next, s) (next, s.put k row)
  | sweep {matching : ∀ k, V k → Bool} {update : ∀ k, V k → V k} {next : Tx K V E α}
      {s : Session K V E} (hfree : ∀ k, matching k (s.view rows k) = true → free k) :
      Advance free rows (.sweep matching update next, s) (next, s.sweep rows matching update)
  | emit {e : E} {next : Tx K V E α} {s : Session K V E} :
      Advance free rows (.emit e next, s) (next, s.note e)

/-- A statement executed among other transactions is a statement executed
alone on the rows committed at that moment. -/
theorem Advance.step {free : K → Prop} {rows : ∀ k, V k} (rely : Rely K V)
    {c c' : Tx K V E α × Session K V E} (h : Advance free rows c c') :
    Tx.Step rely rows c c' := by
  cases h with
  | lock _ => exact .lock
  | hit _ hvisible => exact .hit hvisible
  | miss _ => exact .miss
  | peek => exact .peek (rely.refl _ _ _) (fun _ => rfl)
  | write hlocked => exact .write hlocked
  | sweep _ => exact .sweep (fun k => rely.refl _ _ _) (fun _ _ => rfl)
  | emit => exact .emit

/-- A statement only takes locks that are free. -/
theorem Advance.locks_free {free : K → Prop} {rows : ∀ k, V k}
    {c c' : Tx K V E α × Session K V E} (h : Advance free rows c c') (k : K)
    (hk : c'.2.locks k = true) : c.2.locks k = true ∨ free k := by
  cases h with
  | lock hfree =>
      rcases (Session.acquire_locks _ _ k).mp hk with rfl | hk
      · exact Or.inr hfree
      · exact Or.inl hk
  | hit hfree _ =>
      rcases (Session.acquire_locks _ _ k).mp hk with rfl | hk
      · exact Or.inr hfree
      · exact Or.inl hk
  | @sweep matching update next s hfree =>
      by_cases hmatch : matching k (s.view rows k) = true
      · exact Or.inr (hfree k hmatch)
      · exact Or.inl (by simpa [Session.sweep, hmatch] using hk)
  | _ => exact Or.inl hk

variable [DecidableEq T]

/-- The pool after the transaction `t` has been begun. -/
def Pool.begin (prog : R → Tx K V E α) (p : Pool T R K V E α) (t : T) (r : R) :
    Pool T R K V E α :=
  { p with
    sessions := Function.update p.sessions t (some ⟨r, prog r, .start⟩)
    begun := p.begun ++ [r] }

/-- The pool after the transaction `t` has committed with the result `a`. -/
def Pool.commit (p : Pool T R K V E α) (t : T) (o : Open R K V E α) (a : α) :
    Pool T R K V E α where
  rows := o.session.view p.rows
  sessions := Function.update p.sessions t none
  begun := p.begun
  history := p.history ++ [⟨o.request, a, o.session.trace, p.rows, o.session.view p.rows⟩]

section Updates

variable {prog : R → Tx K V E α} {p : Pool T R K V E α} {t : T} {r : R} {o : Open R K V E α}
  {a : α}

omit [DecidableEq K] in
@[simp] theorem Pool.begin_sessions :
    (p.begin prog t r).sessions =
      Function.update p.sessions t (some ⟨r, prog r, .start⟩) := rfl

omit [DecidableEq K] in
@[simp] theorem Pool.begin_begun : (p.begin prog t r).begun = p.begun ++ [r] := rfl

omit [DecidableEq K] in
@[simp] theorem Pool.commit_sessions :
    (p.commit t o a).sessions = Function.update p.sessions t none := rfl

omit [DecidableEq K] in
@[simp] theorem Pool.commit_history :
    (p.commit t o a).history =
      p.history ++ [⟨o.request, a, o.session.trace, p.rows, o.session.view p.rows⟩] := rfl

end Updates

/-- One step of a pool.  `prog` gives the program of each request, and `allow`
restricts which requests may be begun after those already begun. -/
inductive Pool.Step (prog : R → Tx K V E α) (allow : List R → R → Prop) :
    Pool T R K V E α → Pool T R K V E α → Prop where
  | begin {p : Pool T R K V E α} {t : T} {r : R}
      (hidle : p.sessions t = none) (hallowed : allow p.begun r) :
      Step prog allow p (p.begin prog t r)
  | advance {p : Pool T R K V E α} {t : T} {o : Open R K V E α}
      {q : Tx K V E α} {s : Session K V E}
      (hopen : p.sessions t = some o)
      (hadvance : Advance (p.Free t) p.rows (o.residual, o.session) (q, s)) :
      Step prog allow p
        { p with sessions := Function.update p.sessions t (some ⟨o.request, q, s⟩) }
  | commit {p : Pool T R K V E α} {t : T} {o : Open R K V E α} {a : α}
      (hopen : p.sessions t = some o) (hdone : o.residual = .pure a) :
      Step prog allow p (p.commit t o a)
  | rollback {p : Pool T R K V E α} {t : T} {o : Open R K V E α}
      (hopen : p.sessions t = some o) :
      Step prog allow p { p with sessions := Function.update p.sessions t none }

/-- The transaction committed what a serial run of its program commits. -/
def Serial (rely : Rely K V) (prog : R → Tx K V E α) (record : Record R K V E α) : Prop :=
  ∃ s, Tx.Runs rely record.before (prog record.request) .start record.result s ∧
    record.trace = s.trace ∧ record.after = s.view record.before

/-- Every program changes rows only as others rely on: a transaction that holds
none of the locks it takes may see the change. -/
def Respects (rely : Rely K V) (prog : R → Tx K V E α) : Prop :=
  ∀ r rows a s, Tx.Runs rely rows (prog r) .start a s →
    ∀ locks : K → Bool, (∀ k, locks k = true → s.locks k = false) →
      ∀ k, rely.allows locks k (rows k) (s.view rows k)

/-- The open transactions hold disjoint locks, and what each has done is a
serial run on the committed rows. -/
structure Pool.Consistent (rely : Rely K V) (prog : R → Tx K V E α)
    (p : Pool T R K V E α) : Prop where
  requested : ∀ t o, p.sessions t = some o → o.request ∈ p.begun
  exclusive : ∀ t t' o o' k, p.sessions t = some o → p.sessions t' = some o' →
    o.session.locks k = true → o'.session.locks k = true → t = t'
  visits : ∀ t o, p.sessions t = some o →
    Tx.Visits rely p.rows (prog o.request) .start o.residual o.session

section Serializability

variable {rely : Rely K V} {prog : R → Tx K V E α} {allow : List R → R → Prop}

omit [DecidableEq T] in
theorem Pool.Consistent.initial (rows : ∀ k, V k) :
    (Pool.initial rows : Pool T R K V E α).Consistent rely prog where
  requested := by intro t o h; cases h
  exclusive := by intro t t' o o' k h; cases h
  visits := by intro t o h; cases h

omit [DecidableEq T] in
/-- A session changes no row that another transaction has locked. -/
theorem Pool.Consistent.view_of_other {p : Pool T R K V E α} (hp : p.Consistent rely prog)
    {t t' : T} {o o' : Open R K V E α} (ht : p.sessions t = some o)
    (ht' : p.sessions t' = some o') (hne : t' ≠ t) {k : K}
    (hk : o'.session.locks k = true) : o.session.view p.rows k = p.rows k := by
  have hfree : o.session.locks k ≠ true := fun h => hne (hp.exclusive _ _ _ _ k ht' ht hk h)
  exact ((hp.visits t o ht).disciplined Session.start_disciplined).view_of_unlocked _ hfree

theorem Pool.Consistent.begin {p : Pool T R K V E α} (hp : p.Consistent rely prog)
    (t : T) (r : R) :
    (p.begin prog t r).Consistent rely prog := by
  refine ⟨?_, ?_, ?_⟩
  · intro t₁ o₁ h₁
    rcases update_eq_some h₁ with ⟨-, hnew⟩ | ⟨-, hold⟩
    · cases hnew
      simp
    · exact List.mem_append_left _ (hp.requested t₁ o₁ hold)
  · intro t₁ t₂ o₁ o₂ k h₁ h₂ hk₁ hk₂
    -- The new session holds no locks, so only old sessions are in question.
    rcases update_eq_some h₁ with ⟨-, hnew⟩ | ⟨-, hold₁⟩
    · cases hnew
      simp at hk₁
    · rcases update_eq_some h₂ with ⟨-, hnew⟩ | ⟨-, hold₂⟩
      · cases hnew
        simp at hk₂
      · exact hp.exclusive _ _ _ _ k hold₁ hold₂ hk₁ hk₂
  · intro t₁ o₁ h₁
    rcases update_eq_some h₁ with ⟨-, hnew⟩ | ⟨-, hold⟩
    · cases hnew
      exact .refl
    · exact hp.visits t₁ o₁ hold

theorem Pool.Consistent.advance {p : Pool T R K V E α} (hp : p.Consistent rely prog)
    {t : T} {o : Open R K V E α} {q : Tx K V E α} {s : Session K V E}
    (hopen : p.sessions t = some o)
    (hadvance : Advance (p.Free t) p.rows (o.residual, o.session) (q, s)) :
    Pool.Consistent rely prog
      { p with sessions := Function.update p.sessions t (some ⟨o.request, q, s⟩) } := by
  have hdisjoint : ∀ t' o', t' ≠ t → p.sessions t' = some o' → ∀ k,
      s.locks k = true → o'.session.locks k ≠ true := by
    intro t' o' hne ho' k hk hk'
    rcases hadvance.locks_free k hk with hheld | hfree
    · exact hne (hp.exclusive _ _ _ _ k ho' hopen hk' hheld)
    · simp [hfree t' o' hne ho'] at hk'
  refine ⟨?_, ?_, ?_⟩
  · intro t₁ o₁ h₁
    rcases update_eq_some h₁ with ⟨-, hnew⟩ | ⟨-, hold⟩
    · cases hnew
      exact hp.requested t o hopen
    · exact hp.requested t₁ o₁ hold
  · intro t₁ t₂ o₁ o₂ k h₁ h₂ hk₁ hk₂
    rcases update_eq_some h₁ with ⟨he₁, hnew₁⟩ | ⟨hne₁, hold₁⟩
    · rcases update_eq_some h₂ with ⟨he₂, _⟩ | ⟨hne₂, hold₂⟩
      · rw [he₁, he₂]
      · cases hnew₁
        exact absurd hk₂ (hdisjoint t₂ o₂ hne₂ hold₂ k hk₁)
    · rcases update_eq_some h₂ with ⟨_, hnew₂⟩ | ⟨_, hold₂⟩
      · cases hnew₂
        exact absurd hk₁ (hdisjoint t₁ o₁ hne₁ hold₁ k hk₂)
      · exact hp.exclusive _ _ _ _ k hold₁ hold₂ hk₁ hk₂
  · intro t₁ o₁ h₁
    rcases update_eq_some h₁ with ⟨-, hnew⟩ | ⟨-, hold⟩
    · cases hnew
      exact (hp.visits t o hopen).tail (hadvance.step rely)
    · exact hp.visits t₁ o₁ hold

omit [DecidableEq T] in
theorem Pool.Consistent.runs {p : Pool T R K V E α} (hp : p.Consistent rely prog)
    {t : T} {o : Open R K V E α} {a : α} (hopen : p.sessions t = some o)
    (hdone : o.residual = .pure a) :
    Tx.Runs rely p.rows (prog o.request) .start a o.session := by
  have hvisits := hp.visits t o hopen
  rwa [hdone] at hvisits

/-- Committing changes the rows below the other open transactions; they stay
serial runs because their locks are disjoint from those of the transaction
that commits. -/
theorem Pool.Consistent.commit (hrespects : Respects rely prog) {p : Pool T R K V E α}
    (hp : p.Consistent rely prog) {t : T} {o : Open R K V E α} {a : α}
    (hopen : p.sessions t = some o) (hdone : o.residual = .pure a) :
    (p.commit t o a).Consistent rely prog := by
  have hruns := hp.runs hopen hdone
  refine ⟨?_, ?_, ?_⟩
  · intro t₁ o₁ h₁
    rcases update_eq_some h₁ with ⟨-, hnew⟩ | ⟨-, hold⟩
    · cases hnew
    · exact hp.requested t₁ o₁ hold
  · intro t₁ t₂ o₁ o₂ k h₁ h₂ hk₁ hk₂
    rcases update_eq_some h₁ with ⟨-, hnew⟩ | ⟨-, hold₁⟩
    · cases hnew
    · rcases update_eq_some h₂ with ⟨-, hnew⟩ | ⟨-, hold₂⟩
      · cases hnew
      · exact hp.exclusive _ _ _ _ k hold₁ hold₂ hk₁ hk₂
  · intro t₁ o₁ h₁
    rcases update_eq_some h₁ with ⟨-, hnew⟩ | ⟨hne, hold⟩
    · cases hnew
    · refine (hp.visits t₁ o₁ hold).stable ?_ ?_
      · intro k hk
        exact hp.view_of_other hopen hold hne hk
      · refine hrespects _ _ _ _ hruns _ ?_
        intro k hk
        by_contra h
        exact hne (hp.exclusive _ _ _ _ k hold hopen hk (by simpa using h))

theorem Pool.Consistent.rollback {p : Pool T R K V E α} (hp : p.Consistent rely prog) (t : T) :
    Pool.Consistent rely prog { p with sessions := Function.update p.sessions t none } := by
  have hold : ∀ t₁ o₁, Function.update p.sessions t none t₁ = some o₁ →
      p.sessions t₁ = some o₁ := by
    intro t₁ o₁ h₁
    rcases update_eq_some h₁ with ⟨-, hnew⟩ | ⟨-, hold⟩
    · cases hnew
    · exact hold
  exact ⟨fun t₁ o₁ h₁ => hp.requested t₁ o₁ (hold t₁ o₁ h₁),
    fun t₁ t₂ o₁ o₂ k h₁ h₂ =>
      hp.exclusive t₁ t₂ o₁ o₂ k (hold t₁ o₁ h₁) (hold t₂ o₂ h₂),
    fun t₁ o₁ h₁ => hp.visits t₁ o₁ (hold t₁ o₁ h₁)⟩

theorem Pool.Step.consistent (hrespects : Respects rely prog) {p p' : Pool T R K V E α}
    (hp : p.Consistent rely prog) (hstep : Pool.Step prog allow p p') :
    p'.Consistent rely prog := by
  cases hstep with
  | @begin t r hidle hallowed => exact hp.begin t r
  | advance hopen hadvance => exact hp.advance hopen hadvance
  | commit hopen hdone => exact hp.commit hrespects hopen hdone
  | @rollback t o hopen => exact hp.rollback t

/-- An invariant that every begun request and every serial transaction keeps
holds of every interleaving. -/
theorem Pool.Step.invariant
    {inv : List R → (∀ k, V k) → List (Record R K V E α) → Prop}
    (hbegin : ∀ begun rows history r,
      inv begun rows history → allow begun r → inv (begun ++ [r]) rows history)
    (hserial : ∀ begun history record, inv begun record.before history →
      record.request ∈ begun → Serial rely prog record →
        inv begun record.after (history ++ [record]))
    {p p' : Pool T R K V E α} (hp : p.Consistent rely prog)
    (hinv : inv p.begun p.rows p.history) (hstep : Pool.Step prog allow p p') :
    inv p'.begun p'.rows p'.history := by
  cases hstep with
  | begin hidle hallowed => exact hbegin _ _ _ _ hinv hallowed
  | advance hopen hadvance => exact hinv
  | @commit t o a hopen hdone =>
      exact hserial p.begun p.history ⟨o.request, a, o.session.trace, p.rows, _⟩ hinv
        (hp.requested t o hopen) ⟨o.session, hp.runs hopen hdone, rfl, rfl⟩
  | rollback hopen => exact hinv

theorem Pool.run_invariant (hrespects : Respects rely prog)
    (inv : List R → (∀ k, V k) → List (Record R K V E α) → Prop)
    (hbegin : ∀ begun rows history r,
      inv begun rows history → allow begun r → inv (begun ++ [r]) rows history)
    (hserial : ∀ begun history record, inv begun record.before history →
      record.request ∈ begun → Serial rely prog record →
        inv begun record.after (history ++ [record]))
    {p p' : Pool T R K V E α} (hrun : Relation.ReflTransGen (Pool.Step prog allow) p p')
    (hp : p.Consistent rely prog) (hinv : inv p.begun p.rows p.history) :
    p'.Consistent rely prog ∧ inv p'.begun p'.rows p'.history := by
  have hpreserves : ∀ s s' : Pool T R K V E α,
      (s.Consistent rely prog ∧ inv s.begun s.rows s.history) → Pool.Step prog allow s s' →
        s'.Consistent rely prog ∧ inv s'.begun s'.rows s'.history := by
    intro s s' hs hstep
    obtain ⟨hconsistent, hinv⟩ := hs
    exact ⟨hstep.consistent hrespects hconsistent,
      hstep.invariant hbegin hserial hconsistent hinv⟩
  exact run_preserves hpreserves hrun ⟨hp, hinv⟩

/-- Every transaction that has been committed did what a serial run does. -/
theorem Pool.history_serial (hrespects : Respects rely prog) {p p' : Pool T R K V E α}
    (hrun : Relation.ReflTransGen (Pool.Step prog allow) p p') (hp : p.Consistent rely prog)
    (hserial : ∀ record ∈ p.history, Serial rely prog record) :
    ∀ record ∈ p'.history, Serial rely prog record := by
  refine (Pool.run_invariant hrespects
    (fun _ _ history => ∀ record ∈ history, Serial rely prog record) ?_ ?_ hrun hp hserial).2
  · intro begun rows history r hinv _
    exact hinv
  · intro begun history record hinv _ hrecord other hother
    obtain hother | hother := List.mem_append.mp hother
    · exact hinv other hother
    · rw [List.mem_singleton.mp hother]
      exact hrecord

end Serializability

end Runkit.Foundation
