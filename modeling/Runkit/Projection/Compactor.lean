/-
  Projection/Compactor.lean --- compacting projections, on one node at a time.

  Every node has a compactor for each projection.  They agree on when to compact by way of a
  row for the handler, which holds the time of the last compaction.  A compactor that finds
  the row locked leaves the projection to the one that holds the lock.

  The row is the only one that these transactions touch, and they always lock it.  That a
  transaction is rolled back, because `Compact` returned an error or for any other reason, is
  a step of the pool.

  Source: internal/projection/compactor.go, internal/projection/initialize.go,
  internal/schema/ddl/20-projection.
-/
import Runkit.Foundation.Attempts
import Runkit.Foundation.Observation
import Runkit.Foundation.Pool
import Runkit.Foundation.Serve
import Runkit.Message

set_option autoImplicit false

namespace Runkit.Projection.Compactor

open Runkit.Foundation

/-! ## Transactions -/

/-- The row of each handler in `projection.handlers`, as its `last_compacted_at`. -/
abbrev Row (_ : UUID) : Type := Option Time

/-- What a compactor meets: the time at which it looks for the row, whether `Compact` returns
without an error, and the time at which it updates the row. -/
structure Circumstances where
  acquiredAt : Time
  compacts : Bool
  finishedAt : Time
  deriving DecidableEq, Repr

inductive Outcome where
  | initialized
  /-- The row is locked, or the last compaction is too recent. -/
  | skipped
  | compacted
  deriving DecidableEq, Repr

/-- A transaction on `projection.handlers`.  It emits the key of each handler whose `Compact`
method is called. -/
abbrev HandlersTx := Tx UUID Row UUID Outcome

/-- `InitializeHandler`. -/
def initializeHandler (handlerKey : UUID) (now : Time) : HandlersTx :=
  .lock handlerKey fun
    | some _ => .pure .initialized
    | none => .write handlerKey (some now) (.pure .initialized)

/-- `clock_timestamp() - last_compacted_at >= $2`. -/
def isDue (interval : Int) (now : Time) : Option Time → Bool
  | some lastCompactedAt => now - lastCompactedAt ≥ interval
  | none => false

/-- `Compactor.tryCompact`. -/
def tryCompact (handlerKey : UUID) (interval : Int) (c : Circumstances) : HandlersTx :=
  .tryLock handlerKey (isDue interval c.acquiredAt) fun
    | none => .pure .skipped
    | some _ =>
        .emit handlerKey
          (if c.compacts then .write handlerKey (some c.finishedAt) (.pure .compacted)
          else .fail)

inductive Request where
  | initializeHandler (handlerKey : UUID) (now : Time)
  | compact (handlerKey : UUID) (interval : Int) (c : Circumstances)
  deriving DecidableEq, Repr

def program : Request → HandlersTx
  | .initializeHandler handlerKey now => initializeHandler handlerKey now
  | .compact handlerKey interval c => tryCompact handlerKey interval c

/-- Nothing is read without a lock, so that there is nothing to rely on. -/
def handlersRely : Rely UUID Row where
  allows := fun _ _ _ _ => True
  refl := fun _ _ _ => True.intro
  trans := fun _ _ _ _ _ _ _ => True.intro
  anti := fun _ _ _ _ _ _ _ => True.intro

theorem program_respects : Respects handlersRely program :=
  fun _ _ _ _ _ _ _ _ => True.intro

section Runs

variable {rows : ∀ key, Row key} {s : Session UUID Row UUID} {o : Outcome}
  {handlerKey : UUID} {now : Time} {interval : Int} {c : Circumstances}

theorem initializeHandler_runs
    (h : Tx.Runs handlersRely rows (initializeHandler handlerKey now) .start o s) :
    o = .initialized ∧ s.view rows =
      Function.update rows handlerKey (some ((rows handlerKey).getD now)) := by
  rw [initializeHandler, Tx.runs_lock, Session.start_view] at h
  cases hrow : rows handlerKey with
  | some last =>
      rw [hrow] at h
      obtain ⟨rfl, rfl⟩ := Tx.runs_pure.mp h
      refine ⟨rfl, ?_⟩
      rw [Session.acquire_view, Option.getD_some, ← hrow, Function.update_eq_self]
      rfl
  | none =>
      rw [hrow] at h
      obtain ⟨-, hrest⟩ := Tx.runs_write.mp h
      obtain ⟨rfl, rfl⟩ := Tx.runs_pure.mp hrest
      refine ⟨rfl, ?_⟩
      rw [Session.put_view, Session.acquire_view]
      rfl

theorem tryCompact_runs
    (h : Tx.Runs handlersRely rows (tryCompact handlerKey interval c) .start o s) :
    (o = .skipped ∧ s.view rows = rows) ∨
    (o = .compacted ∧ ∃ last, rows handlerKey = some last ∧ interval ≤ c.acquiredAt - last ∧
      s.view rows = Function.update rows handlerKey (some c.finishedAt)) := by
  rw [tryCompact, Tx.runs_tryLock, Session.start_view] at h
  obtain ⟨hdue, hrest⟩ | hskipped := h
  · right
    rw [Tx.runs_emit] at hrest
    split at hrest
    · obtain ⟨-, hrest⟩ := Tx.runs_write.mp hrest
      obtain ⟨rfl, rfl⟩ := Tx.runs_pure.mp hrest
      refine ⟨rfl, ?_⟩
      cases hrow : rows handlerKey with
      | none =>
          rw [hrow] at hdue
          cases hdue
      | some last =>
          rw [hrow] at hdue
          refine ⟨last, rfl, of_decide_eq_true hdue, ?_⟩
          rw [Session.put_view, Session.note_view, Session.acquire_view]
          rfl
    · exact absurd hrest (by simp)
  · obtain ⟨rfl, rfl⟩ := Tx.runs_pure.mp hskipped
    exact Or.inl ⟨rfl, rfl⟩

end Runs

/-! ## Compactions -/

/-- A committed compaction, with the time of the one before it as it found it in the row. -/
structure Compaction where
  interval : Int
  acquiredAt : Time
  finishedAt : Time
  found : Time
  deriving DecidableEq, Repr

abbrev Transaction := Record Request UUID Row UUID Outcome

/-- The compaction of the handler's projection that the transaction is. -/
def compactionIn (handlerKey : UUID) (record : Transaction) : Option Compaction :=
  match record.request, record.result, record.before handlerKey with
  | .compact key interval c, .compacted, some found =>
      if key = handlerKey then some ⟨interval, c.acquiredAt, c.finishedAt, found⟩ else none
  | _, _, _ => none

def compactions (handlerKey : UUID) (history : List Transaction) : List Compaction :=
  history.filterMap (compactionIn handlerKey)

/-- A compaction leaves the time at which it has finished. -/
def compacting : Policy Time Compaction where
  fresh _ := True
  found a := a.found
  leaves a last := last = a.finishedAt

/-- What a committed transaction does to the row of a handler. -/
inductive RowChange (handlerKey : UUID) (record : Transaction) : Prop where
  | kept (hnone : compactionIn handlerKey record = none)
      (hrow : record.after handlerKey = record.before handlerKey)
  | added (now : Time) (hnone : compactionIn handlerKey record = none)
      (hbefore : record.before handlerKey = none) (hafter : record.after handlerKey = some now)
  | compacted (a : Compaction) (hsome : compactionIn handlerKey record = some a)
      (hbefore : record.before handlerKey = some a.found)
      (hafter : record.after handlerKey = some a.finishedAt)
      (hdue : a.found + a.interval ≤ a.acquiredAt)

theorem rowChange_of_initialize {record : Transaction} {key : UUID} {now : Time}
    (hrequest : record.request = .initializeHandler key now)
    (hafter : record.after =
      Function.update record.before key (some ((record.before key).getD now)))
    (handlerKey : UUID) : RowChange handlerKey record := by
  have hnone : compactionIn handlerKey record = none := by
    rw [compactionIn, hrequest]
  by_cases hkey : handlerKey = key
  · subst hkey
    have hrow : record.after handlerKey = some ((record.before handlerKey).getD now) := by
      rw [hafter, Function.update_self]
    cases hbefore : record.before handlerKey with
    | none => exact .added now hnone hbefore (by rw [hrow, hbefore, Option.getD_none])
    | some last => exact .kept hnone (by rw [hrow, hbefore, Option.getD_some])
  · exact .kept hnone (by rw [hafter, Function.update_of_ne hkey])

theorem rowChange_of_compact {record : Transaction} {key : UUID} {interval : Int}
    {c : Circumstances} {last : Time} (hrequest : record.request = .compact key interval c)
    (hresult : record.result = .compacted) (hlast : record.before key = some last)
    (hdue : interval ≤ c.acquiredAt - last)
    (hafter : record.after = Function.update record.before key (some c.finishedAt))
    (handlerKey : UUID) : RowChange handlerKey record := by
  by_cases hkey : handlerKey = key
  · subst hkey
    refine .compacted ⟨interval, c.acquiredAt, c.finishedAt, last⟩ ?_ hlast ?_ ?_
    · rw [compactionIn, hrequest, hresult, hlast]
      exact if_pos rfl
    · rw [hafter, Function.update_self]
    · exact add_comm interval last ▸ add_le_of_le_sub_right hdue
  · refine .kept ?_ (by rw [hafter, Function.update_of_ne hkey])
    rw [compactionIn, hrequest, hresult]
    cases record.before handlerKey with
    | none => rfl
    | some found => exact if_neg (Ne.symm hkey)

theorem rowChange_of_serial {record : Transaction}
    (h : Serial handlersRely program record) (handlerKey : UUID) :
    RowChange handlerKey record := by
  obtain ⟨s, hruns, -, hafter⟩ := h
  cases hrequest : record.request with
  | initializeHandler key now =>
      rw [hrequest] at hruns
      obtain ⟨-, hview⟩ := initializeHandler_runs hruns
      exact rowChange_of_initialize hrequest (hafter.trans hview) handlerKey
  | compact key interval c =>
      rw [hrequest] at hruns
      obtain ⟨hresult, hview⟩ | ⟨hresult, last, hlast, hdue, hview⟩ := tryCompact_runs hruns
      · refine .kept ?_ (by rw [hafter, hview])
        rw [compactionIn, hrequest, hresult]
      · exact rowChange_of_compact hrequest hresult hlast hdue (hafter.trans hview) handlerKey

/-- A handler that has a row keeps one. -/
theorem RowChange.isSome {record : Transaction} {handlerKey : UUID}
    (h : RowChange handlerKey record) (hbefore : (record.before handlerKey).isSome = true) :
    (record.after handlerKey).isSome = true := by
  cases h with
  | kept _ hrow => rwa [hrow]
  | added _ _ hnone _ =>
      rw [hnone] at hbefore
      cases hbefore
  | compacted _ _ _ hafter _ => rw [hafter, Option.isSome_some]

/-- A handler has a row once it has been initialized. -/
theorem isSome_of_initialize {record : Transaction} {handlerKey : UUID} {now : Time}
    (h : Serial handlersRely program record)
    (hrequest : record.request = .initializeHandler handlerKey now) :
    (record.after handlerKey).isSome = true := by
  obtain ⟨s, hruns, -, hafter⟩ := h
  rw [hrequest] at hruns
  rw [hafter, (initializeHandler_runs hruns).2, Function.update_self, Option.isSome_some]

/-- `InitializeHandler` can be executed on any rows. -/
theorem exists_initialize (rows : ∀ key, Row key) (handlerKey : UUID) (now : Time) :
    ∃ record : Transaction, Serial handlersRely program record ∧
      record.request = .initializeHandler handlerKey now ∧ record.before = rows := by
  have hruns : ∃ s, Tx.Runs handlersRely rows (initializeHandler handlerKey now) .start
      .initialized s := by
    rw [initializeHandler]
    simp only [Tx.runs_lock, Session.start_view]
    cases rows handlerKey with
    | some last => exact ⟨_, Tx.runs_pure.mpr ⟨rfl, rfl⟩⟩
    | none =>
        exact ⟨_, Tx.runs_write.mpr
          ⟨Session.acquire_locks_self _ _, Tx.runs_pure.mpr ⟨rfl, rfl⟩⟩⟩
  obtain ⟨s, hruns⟩ := hruns
  exact ⟨⟨.initializeHandler handlerKey now, .initialized, s.trace, rows, s.view rows⟩,
    ⟨s, hruns, rfl, rfl⟩, rfl, rfl⟩

/-! ## Whole runs -/

/-- The row of each handler agrees with the compactions of its projection. -/
structure Invariant (rows : ∀ key, Row key) (history : List Transaction) : Prop where
  tracks : ∀ key, compacting.Tracks (compactions key history) (rows key)
  absent : ∀ key, rows key = none → compactions key history = []
  due : ∀ key, ∀ a ∈ compactions key history, a.found + a.interval ≤ a.acquiredAt

theorem Invariant.commit {history : List Transaction} {record : Transaction}
    (h : Invariant record.before history) (hchange : ∀ key, RowChange key record) :
    Invariant record.after (history ++ [record]) := by
  have hconcat : ∀ key, compactions key (history ++ [record]) =
      compactions key history ++ (compactionIn key record).toList := by
    intro key
    rw [compactions, List.filterMap_append]
    cases hcompaction : compactionIn key record <;> simp [compactions, hcompaction]
  constructor
  case tracks =>
    intro key
    rw [hconcat]
    cases hchange key with
    | kept hnone hrow =>
        rw [hnone, hrow]
        simpa using h.tracks key
    | added now hnone hbefore hafter =>
        rw [hnone, hafter, h.absent key hbefore]
        exact ⟨.nil, by simp, fun _ _ _ => True.intro, by simp⟩
    | compacted a hsome hbefore hafter hdue =>
        have htracks := h.tracks key
        rw [hbefore] at htracks
        rw [hsome, hafter]
        refine Policy.Tracks.concat (a := a) htracks ?_
        intro last hlast
        exact (Option.some.inj hlast).symm
  case absent =>
    intro key hnone
    rw [hconcat]
    cases hchange key with
    | kept hcompaction hrow =>
        rw [hcompaction, h.absent key (hrow ▸ hnone)]
        rfl
    | added now _ _ hafter | compacted a _ _ hafter _ =>
        rw [hnone] at hafter
        cases hafter
  case due =>
    intro key a ha
    rw [hconcat] at ha
    obtain hold | hnew := List.mem_append.mp ha
    · exact h.due key a hold
    · cases hchange key with
      | kept hnone _ | added _ hnone _ _ =>
          rw [hnone] at hnew
          cases hnew
      | compacted b hsome _ _ hdue =>
          rw [hsome] at hnew
          obtain rfl := List.mem_singleton.mp hnew
          exact hdue

section Reachable

variable {T : Type} [DecidableEq T] {allow : List Request → Request → Prop}
  {p : Pool T Request UUID Row UUID Outcome}

/-- No handler has been initialized yet. -/
def start : Pool T Request UUID Row UUID Outcome := .initial fun _ => none

theorem reaches_invariant (h : Relation.ReflTransGen (Pool.Step program allow) start p) :
    p.Consistent handlersRely program ∧ Invariant p.rows p.history := by
  refine Pool.run_invariant program_respects (fun _ => Invariant) ?_ ?_ h (.initial _) ?_
  · intro begun rows history r hinv _
    exact hinv
  · intro begun history record hinv _ hserial
    exact hinv.commit (rowChange_of_serial hserial)
  · exact ⟨fun _ => .absent, fun _ _ => rfl, fun _ a ha => absurd ha List.not_mem_nil⟩

/-- `Compact` is called by a transaction that has locked the row. -/
theorem program_notes (rows : ∀ key, Row key) (r : Request) :
    Tx.Notes handlersRely rows (fun key s => s.locks key = true) (program r) .start := by
  cases r with
  | initializeHandler handlerKey now =>
      refine .of_emits (P := fun _ => False) ?_ (by simp)
      intro row
      cases row with
      | none => exact True.intro
      | some last => exact True.intro
  | compact handlerKey interval c =>
      intro key next t hvisits
      obtain heq | ⟨_, hstep, hvisits⟩ := Relation.ReflTransGen.cases_head hvisits
      · cases heq
      · cases hstep with
        | miss => exact absurd (Tx.Visits.emits (P := fun _ => False) hvisits True.intro).1 id
        | hit hvisible =>
            obtain heq | ⟨_, hstep, hvisits⟩ := Relation.ReflTransGen.cases_head hvisits
            · cases heq
              exact Session.acquire_locks_self _ _
            · cases hstep
              have hemits : Tx.Emits (fun _ => False)
                  (if c.compacts then .write handlerKey (some c.finishedAt) (.pure .compacted)
                  else .fail : HandlersTx) := by
                split <;> exact True.intro
              exact absurd (Tx.Visits.emits hvisits hemits).1 id

/-- The method is called by one transaction at a time.  Each compaction begins no earlier than
`Interval` after the one before it has finished, whichever nodes make them, and failed ones
leave no trace. -/
theorem compactions_spaced (h : Relation.ReflTransGen (Pool.Step program allow) start p)
    (handlerKey : UUID) :
    (∀ t t' o o', p.sessions t = some o → p.sessions t' = some o' →
      handlerKey ∈ o.session.trace → handlerKey ∈ o'.session.trace → t = t') ∧
    (∀ i a b, (compactions handlerKey p.history)[i]? = some a →
      (compactions handlerKey p.history)[i + 1]? = some b →
      a.finishedAt + b.interval ≤ b.acquiredAt) ∧
    ∀ a ∈ (compactions handlerKey p.history).getLast?,
      p.rows handlerKey = some a.finishedAt := by
  obtain ⟨hconsistent, hinv⟩ := reaches_invariant h
  have htracks := hinv.tracks handlerKey
  have hlocked : ∀ t o, p.sessions t = some o → handlerKey ∈ o.session.trace →
      o.session.locks handlerKey = true := by
    intro t o ht
    exact (hconsistent.visits t o ht).noted (program_notes p.rows o.request)
      (fun _ _ _ hlocks hmono => hmono _ hlocks) (by simp) handlerKey
  refine ⟨?_, ?_, ?_⟩
  · intro t t' o o' ht ht' ho ho'
    exact hconsistent.exclusive t t' o o' handlerKey ht ht' (hlocked t o ht ho)
      (hlocked t' o' ht' ho')
  · intro i a b ha hb
    obtain ⟨hi, rfl⟩ := List.getElem?_eq_some_iff.mp ha
    obtain ⟨hi', rfl⟩ := List.getElem?_eq_some_iff.mp hb
    have hfound := List.isChain_iff_getElem.mp htracks.chain i hi'
    have hdue := hinv.due handlerKey _ (List.getElem_mem hi')
    exact hfound ▸ hdue
  · intro a ha
    cases hrow : p.rows handlerKey with
    | none =>
        rw [hinv.absent handlerKey hrow] at ha
        cases ha
    | some last => exact congrArg some (htracks.last last hrow a ha)

end Reachable

/-- A compaction is attempted at the given time, with an interval of 10. -/
def compactAt (now : Time) : Request :=
  .compact (uuid 80) 10 { acquiredAt := now, compacts := true, finishedAt := now + 2 }

/-- The second of three attempts is made too early. -/
def compactedTwice : Pool Unit Request UUID Row UUID Outcome :=
  Pool.serve program
    [.initializeHandler (uuid 80) 0, compactAt 10, compactAt 15, compactAt 23] start

theorem compactions_spaced_twice :
    ∃ a b, compactions (uuid 80) compactedTwice.history = [a, b] ∧
      a.finishedAt + b.interval ≤ b.acquiredAt ∧
      compactedTwice.rows (uuid 80) = some b.finishedAt := by
  have hreached : Relation.ReflTransGen (Pool.Step program fun _ _ => True) start
      compactedTwice :=
    Pool.serve_run () (fun _ => rfl) ⟨True.intro, True.intro, True.intro, True.intro, True.intro⟩
  obtain ⟨-, hspaced, hlast⟩ := compactions_spaced hreached (uuid 80)
  have hcompactions : ∃ a b, compactions (uuid 80) compactedTwice.history = [a, b] :=
    ⟨_, _, rfl⟩
  obtain ⟨a, b, hcompactions⟩ := hcompactions
  rw [hcompactions] at hspaced hlast
  exact ⟨a, b, hcompactions, hspaced 0 a b rfl rfl, hlast b rfl⟩

end Runkit.Projection.Compactor
