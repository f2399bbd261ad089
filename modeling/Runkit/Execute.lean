/-
  Execute.lean --- waiting for the events that a command causes.

  `Engine.ExecuteCommand` can be given observers of events.  It then polls the event
  store for events with the command's correlation ID and passes them to the
  observers, until one of them is satisfied.

  `waitForEvents` passes its map of offsets to `pollForEvents` by value.  What
  `pollForEvents` stores in the map is lost, so every poll begins with an empty map.

  Source: execute.go.
-/
import Runkit.Foundation.Run
import Runkit.Schema.Tables

set_option autoImplicit false

namespace Runkit.Execute

open Runkit.Foundation Runkit.Schema

/-! ## Polling -/

/-- The offsets at which polling continues, by stream. -/
abbrev NextOffsets := UUID → Option Nat

/-- What `waitForEvents` is called with.  Observers are numbered. -/
structure Query where
  correlationID : UUID
  eventTypes : Finset UUID
  observers : Nat

/-- Whether the event is one that the observers are waiting for. -/
def Query.matches (q : Query) (row : EventRow) : Bool :=
  decide (row.correlationID = q.correlationID) && decide (row.messageTypeID ∈ q.eventTypes)

/-- The condition of the query in `pollForEvents`. -/
def Query.selects (q : Query) (next : NextOffsets) (row : EventRow) : Bool :=
  decide ((next row.streamID).getD 0 ≤ row.streamOffset) && q.matches row

/-- `rows` is a possible result of the query in `pollForEvents`.  Events with the
same offset, which are on different streams, come in any order. -/
def Query.Page (q : Query) (next : NextOffsets) (store rows : List EventRow) : Prop :=
  ∃ sorted : List EventRow, sorted.Perm (store.filter (q.selects next)) ∧
    (sorted.Pairwise fun a b => a.streamOffset ≤ b.streamOffset) ∧ rows = sorted.take 100

/-- What an observer, or a poll, returns. -/
inductive Verdict where
  | unsatisfied
  | satisfied
  | failed
  deriving DecidableEq, Repr

/-- What is not decided by the engine while it polls. -/
structure PollAttempt where
  queryFails : Bool
  /-- The number of rows after which reading more of them fails, if it does. -/
  failsAfter : Option Nat
  /-- The event can be scanned and unpacked. -/
  unpacks : EventRow → Bool
  /-- What each observer returns. -/
  answer : Nat → EventRow → Verdict

/-- A call of an observer. -/
structure Call where
  observer : Nat
  row : EventRow
  deriving DecidableEq, Repr

/-- The loop over the observers in `pollForEvents`. -/
def observe (a : PollAttempt) (row : EventRow) : List Nat → List Call × Verdict
  | [] => ([], .unsatisfied)
  | i :: rest =>
      match a.answer i row with
      | .unsatisfied => ((⟨i, row⟩ :: (observe a row rest).1), (observe a row rest).2)
      | v => ([⟨i, row⟩], v)

/-- The loop over the rows in `pollForEvents`, which ends with the verdict `last`. -/
def observeRows (q : Query) (a : PollAttempt) (last : Verdict) :
    NextOffsets → List EventRow → List Call × Verdict × NextOffsets
  | next, [] => ([], last, next)
  | next, row :: rest =>
      if a.unpacks row then
        match observe a row (List.range q.observers) with
        | (calls, .unsatisfied) =>
            let next := Function.update next row.streamID (some (row.streamOffset + 1))
            (calls ++ (observeRows q a last next rest).1, (observeRows q a last next rest).2)
        | (calls, v) => (calls, v, next)
      else
        ([], .failed, next)

/-- `pollForEvents`, given the rows that the query returns: the calls of observers
that it makes, what it returns, and its own copy of the map. -/
def pollForEvents (q : Query) (a : PollAttempt) (next : NextOffsets) (rows : List EventRow) :
    List Call × Verdict × NextOffsets :=
  if a.queryFails then
    ([], .failed, next)
  else
    match a.failsAfter with
    | none => observeRows q a .unsatisfied next rows
    | some n => observeRows q a .failed next (rows.take n)

/-! ## Waiting -/

/-- The event store, and a call of `waitForEvents` with its map and the calls of
observers that it has made. -/
structure Wait where
  store : List EventRow
  nextOffsets : NextOffsets
  calls : List Call
  returned : Option Verdict

/-- The offsets of each stream are increasing. -/
def StreamOrdered (rows : List EventRow) : Prop :=
  rows.Pairwise fun a b => a.streamID = b.streamID → a.streamOffset < b.streamOffset

/-- The verdict with which `waitForEvents` returns after a poll, if it does. -/
def Verdict.ends : Verdict → Option Verdict
  | .unsatisfied => none
  | v => some v

namespace Wait

/-- `waitForEvents` has just been called, and no events have been recorded. -/
def start : Wait where
  store := []
  nextOffsets := fun _ => none
  calls := []
  returned := none

/-- The state after a poll.  The map is passed by value, so it does not change. -/
def afterPoll (s : Wait) (q : Query) (a : PollAttempt) (rows : List EventRow) : Wait :=
  let (calls, verdict, _) := pollForEvents q a s.nextOffsets rows
  { s with calls := s.calls ++ calls, returned := verdict.ends }

/-- One step.  `allow` restricts the states in which a poll may begin. -/
inductive Step (q : Query) (allow : Wait → Prop) : Wait → Wait → Prop where
  /-- Events are appended to streams. -/
  | append {s : Wait} {rows : List EventRow} (hordered : StreamOrdered (s.store ++ rows)) :
      Step q allow s { s with store := s.store ++ rows }
  | poll {s : Wait} {a : PollAttempt} {rows : List EventRow} (hwaiting : s.returned = none)
      (hallowed : allow s) (hpage : q.Page s.nextOffsets s.store rows) :
      Step q allow s (s.afterPoll q a rows)
  /-- The context expires. -/
  | expire {s : Wait} (hwaiting : s.returned = none) :
      Step q allow s { s with returned := some .failed }

/-- Any number of steps. -/
def Reaches (q : Query) (allow : Wait → Prop) : Wait → Wait → Prop :=
  Relation.ReflTransGen (Step q allow)

/-- A number of polls, after each of which `waitForEvents` goes on waiting. -/
inductive Polls (q : Query) (allow : Wait → Prop) : Nat → Wait → Wait → Prop where
  | refl {s : Wait} : Polls q allow 0 s s
  | poll {n : Nat} {s t : Wait} {a : PollAttempt} {rows : List EventRow}
      (hpolls : Polls q allow n s t) (hwaiting : t.returned = none) (hallowed : allow t)
      (hpage : q.Page t.nextOffsets t.store rows)
      (hgoesOn : (t.afterPoll q a rows).returned = none) :
      Polls q allow (n + 1) s (t.afterPoll q a rows)

end Wait

/-- The events that an observer has been called with. -/
def observedBy (i : Nat) (calls : List Call) : List EventRow :=
  calls.filterMap fun call => if call.observer = i then some call.row else none

/-- Whether all observers have been called with the event. -/
def Wait.observed (s : Wait) (q : Query) (row : EventRow) : Prop :=
  ∀ i, i < q.observers → row ∈ observedBy i s.calls

instance (s : Wait) (q : Query) (row : EventRow) : Decidable (s.observed q row) :=
  inferInstanceAs (Decidable (∀ i, i < q.observers → row ∈ observedBy i s.calls))

/-- The events in the store that the observers are waiting for and have not been
called with. -/
def Wait.unobserved (s : Wait) (q : Query) : List EventRow :=
  s.store.filter fun row => q.matches row && !decide (s.observed q row)

/-- What is expected of `waitForEvents`: it calls each observer at most once for any
event; the events of one stream are observed in offset order; and if `N` events are
unobserved, polling `N / 100` times, rounded up, is enough to observe them. -/
structure ObservesEvents (q : Query) (allow : Wait → Prop) (s : Wait) : Prop where
  once : ∀ i, (observedBy i s.calls).Nodup
  ordered : ∀ i, StreamOrdered (observedBy i s.calls)
  complete : ∀ n t, s.Polls q allow n t → (s.unobserved q).length ≤ n * 100 →
    ∀ row ∈ t.store, q.matches row = true → t.observed q row

/-! ## One poll -/

section Poll

variable {q : Query} {a : PollAttempt} {next : NextOffsets} {store rows : List EventRow}
  {row : EventRow} {i : Nat}

theorem observedBy_append (calls calls' : List Call) :
    observedBy i (calls ++ calls') = observedBy i calls ++ observedBy i calls' :=
  List.filterMap_append ..

/-- Only the given observers are called. -/
theorem observedBy_observe_of_notMem {is : List Nat} (h : i ∉ is) :
    observedBy i (observe a row is).1 = [] := by
  induction is with
  | nil => rfl
  | cons j rest ih =>
      rw [List.mem_cons, not_or] at h
      obtain ⟨hne, hrest⟩ := h
      rw [observe]
      split
      · simp [observedBy, Ne.symm hne] at ih ⊢
        exact ih hrest
      · simp [observedBy, Ne.symm hne]

/-- An observer is called with an event at most once, and exactly once unless the
loop stops early. -/
theorem observedBy_observe {is : List Nat} (hdistinct : is.Nodup) :
    (observedBy i (observe a row is).1).Sublist [row] ∧
      (i ∈ is → (observe a row is).2 = .unsatisfied →
        observedBy i (observe a row is).1 = [row]) := by
  induction is with
  | nil => exact ⟨List.nil_sublist _, fun h => absurd h (List.not_mem_nil)⟩
  | cons j rest ih =>
      obtain ⟨hnew, hrest⟩ := List.nodup_cons.mp hdistinct
      obtain ⟨hsublist, hall⟩ := ih hrest
      rw [observe]
      by_cases hj : j = i
      · subst hj
        have hnone : observedBy j (observe a row rest).1 = [] := observedBy_observe_of_notMem hnew
        split
        · have hone : observedBy j (⟨j, row⟩ :: (observe a row rest).1) = [row] := by
            rw [observedBy, List.filterMap_cons, if_pos rfl]
            exact congrArg (row :: ·) hnone
          rw [hone]
          exact ⟨List.Sublist.refl _, fun _ _ => rfl⟩
        · exact ⟨by simp [observedBy], fun _ _ => by simp [observedBy]⟩
      · split
        · have hskip : observedBy i (⟨j, row⟩ :: (observe a row rest).1) =
              observedBy i (observe a row rest).1 := by
            rw [observedBy, List.filterMap_cons, if_neg hj]
            rfl
          rw [hskip]
          refine ⟨hsublist, ?_⟩
          intro hmem hverdict
          exact hall (List.mem_of_ne_of_mem (Ne.symm hj) hmem) hverdict
        · rename_i hanswer
          refine ⟨by simp [observedBy, hj], ?_⟩
          intro _ hverdict
          exact absurd hverdict hanswer

/-- An observer is called with the rows in their order, each at most once, and with
all of them unless the loop stops early. -/
theorem observedBy_observeRows (last : Verdict) :
    (observedBy i (observeRows q a last next rows).1).Sublist rows ∧
      (i < q.observers → (observeRows q a last next rows).2.1 = .unsatisfied →
        observedBy i (observeRows q a last next rows).1 = rows) := by
  induction rows generalizing next with
  | nil => exact ⟨List.Sublist.refl _, fun _ _ => rfl⟩
  | cons row rest ih =>
      rw [observeRows]
      split
      swap
      · exact ⟨List.nil_sublist _, fun _ h => by cases h⟩
      obtain ⟨hsublist, hall⟩ :=
        @observedBy_observe a row i (List.range q.observers) List.nodup_range
      split
      · rename_i calls hobserve
        obtain ⟨hrest, hrestAll⟩ :=
          @ih (Function.update next row.streamID (some (row.streamOffset + 1)))
        rw [hobserve] at hsublist hall
        dsimp only
        rw [observedBy_append]
        refine ⟨hsublist.append hrest, ?_⟩
        intro hi hverdict
        rw [hall (List.mem_range.mpr hi) rfl, hrestAll hi hverdict]
        rfl
      · rename_i calls v hne hobserve
        rw [hobserve] at hsublist
        refine ⟨hsublist.trans (List.singleton_sublist.mpr List.mem_cons_self), ?_⟩
        intro _ hverdict
        exact (hne hverdict).elim

/-- A loop that ends unsatisfied has come to its end. -/
theorem last_eq_of_observeRows {last : Verdict}
    (h : (observeRows q a last next rows).2.1 = .unsatisfied) : last = .unsatisfied := by
  induction rows generalizing next with
  | nil => exact h
  | cons row rest ih =>
      rw [observeRows] at h
      split at h
      · split at h
        · exact ih h
        · rename_i hne hobserve
          exact (hne h).elim
      · cases h

/-- The calls that a poll makes of an observer. -/
theorem observedBy_pollForEvents :
    (observedBy i (pollForEvents q a next rows).1).Sublist rows ∧
      (i < q.observers → (pollForEvents q a next rows).2.1 = .unsatisfied →
        observedBy i (pollForEvents q a next rows).1 = rows) := by
  unfold pollForEvents
  split
  · exact ⟨List.nil_sublist _, fun _ h => by cases h⟩
  split
  · exact observedBy_observeRows .unsatisfied
  · rename_i n hfails
    obtain ⟨hsublist, -⟩ := @observedBy_observeRows q a next (rows.take n) i .failed
    refine ⟨hsublist.trans (List.take_sublist n rows), ?_⟩
    intro _ hverdict
    cases last_eq_of_observeRows hverdict

/-- The rows of a page come from the store, the rows of each stream in offset order. -/
theorem Query.Page.ordered (h : q.Page next store rows) (hstore : StreamOrdered store) :
    StreamOrdered rows := by
  obtain ⟨sorted, hperm, hsorted, rfl⟩ := h
  -- Being at different offsets is symmetric, so it survives the sorting.
  have hapart : store.Pairwise fun a b =>
      a.streamID = b.streamID → a.streamOffset ≠ b.streamOffset := by
    refine hstore.imp ?_
    intro a b hlt hstream
    exact Nat.ne_of_lt (hlt hstream)
  have hsortedApart : sorted.Pairwise fun a b =>
      a.streamID = b.streamID → a.streamOffset ≠ b.streamOffset := by
    refine (hperm.pairwise_iff ?_).mpr (hapart.sublist List.filter_sublist)
    intro a b h hstream
    exact Ne.symm (h hstream.symm)
  refine List.Pairwise.sublist (List.take_sublist 100 sorted) ?_
  refine (hsorted.and hsortedApart).imp ?_
  intro a b h hstream
  exact Nat.lt_of_le_of_ne h.1 (h.2 hstream)

/-- If a page is large enough, it holds everything that the query selects. -/
theorem Query.Page.complete (h : q.Page next store rows)
    (hsize : (store.filter (q.selects next)).length ≤ 100) (hrow : row ∈ store)
    (hselects : q.selects next row = true) : row ∈ rows := by
  obtain ⟨sorted, hperm, -, rfl⟩ := h
  rw [List.take_of_length_le (by rw [hperm.length_eq]; exact hsize)]
  exact hperm.mem_iff.mpr (List.mem_filter.mpr ⟨hrow, hselects⟩)

end Poll

/-! ## Whole calls -/

/-- A poll may begin if none of the polls before it has called an observer, and at
most 100 of the events that the observers are waiting for have been recorded. -/
def FirstPage (q : Query) (s : Wait) : Prop :=
  s.calls = [] ∧ (s.store.filter q.matches).length ≤ 100

/-- What holds during a call in which every poll is as `FirstPage` says. -/
structure FirstPageInvariant (s : Wait) : Prop where
  store : StreamOrdered s.store
  nextOffsets : s.nextOffsets = fun _ => none
  calls : ∀ i, StreamOrdered (observedBy i s.calls)

section Runs

variable {q : Query} {s t : Wait} {a : PollAttempt} {rows : List EventRow}

/-- Every poll begins with an empty map, so it selects everything. -/
theorem selects_empty : q.selects (fun _ => none) = q.matches := by
  funext row
  simp [Query.selects]

/-- What an observer has been called with after the first page. -/
theorem observedBy_afterPoll (hcalls : s.calls = []) (i : Nat) :
    observedBy i (s.afterPoll q a rows).calls =
      observedBy i (pollForEvents q a s.nextOffsets rows).1 := by
  rw [Wait.afterPoll, hcalls]
  rfl

theorem FirstPageInvariant.step (hinv : FirstPageInvariant s)
    (hstep : Wait.Step q (FirstPage q) s t) : FirstPageInvariant t := by
  cases hstep with
  | append hordered => exact ⟨hordered, hinv.nextOffsets, hinv.calls⟩
  | poll hwaiting hallowed hpage =>
      refine ⟨hinv.store, hinv.nextOffsets, ?_⟩
      intro i
      rw [observedBy_afterPoll hallowed.1]
      exact (hpage.ordered hinv.store).sublist observedBy_pollForEvents.1
  | expire hwaiting => exact ⟨hinv.store, hinv.nextOffsets, hinv.calls⟩

theorem FirstPageInvariant.run (hinv : FirstPageInvariant s)
    (hrun : Wait.Reaches q (FirstPage q) s t) : FirstPageInvariant t := by
  refine run_preserves ?_ hrun hinv
  intro s₁ s₂ hinv₁ hstep
  exact hinv₁.step hstep

theorem FirstPageInvariant.start : FirstPageInvariant Wait.start :=
  ⟨List.Pairwise.nil, rfl, fun _ => List.Pairwise.nil⟩

theorem StreamOrdered.nodup (h : StreamOrdered rows) : rows.Nodup := by
  refine h.imp ?_
  rintro a b hlt rfl
  exact Nat.lt_irrefl _ (hlt rfl)

/-- Polls change neither the store nor the map. -/
theorem polls_frame {allow : Wait → Prop} {n : Nat} (h : s.Polls q allow n t) :
    t.store = s.store ∧ t.nextOffsets = s.nextOffsets := by
  induction h with
  | refl => exact ⟨rfl, rfl⟩
  | poll _ _ _ _ _ ih => exact ih

/-- A poll of the first page that is not the last one has called all observers with
all events that they are waiting for. -/
theorem observed_afterPoll (hmap : s.nextOffsets = fun _ => none) (hfirst : FirstPage q s)
    (hpage : q.Page s.nextOffsets s.store rows)
    (hgoesOn : (s.afterPoll q a rows).returned = none) {row : EventRow} (hrow : row ∈ s.store)
    (hmatches : q.matches row = true) : (s.afterPoll q a rows).observed q row := by
  have hverdict : (pollForEvents q a s.nextOffsets rows).2.1 = .unsatisfied := by
    change Verdict.ends (pollForEvents q a s.nextOffsets rows).2.1 = none at hgoesOn
    generalize (pollForEvents q a s.nextOffsets rows).2.1 = v at hgoesOn
    cases v with
    | unsatisfied => rfl
    | satisfied => cases hgoesOn
    | failed => cases hgoesOn
  intro i hi
  rw [observedBy_afterPoll hfirst.1, observedBy_pollForEvents.2 hi hverdict]
  rw [hmap] at hpage
  refine hpage.complete ?_ hrow ?_
  · rw [selects_empty]
    exact hfirst.2
  · rw [selects_empty]
    exact hmatches

end Runs

/-- In every state that `waitForEvents` reaches by polls of which each begins before
any observer has been called and while at most 100 of the events that the
observers are waiting for have been recorded, it has done what is expected of it. -/
theorem first_page_observes_events {q : Query} {s : Wait}
    (h : Wait.Reaches q (FirstPage q) Wait.start s) : ObservesEvents q (FirstPage q) s := by
  have hinv := FirstPageInvariant.start.run h
  refine ⟨fun i => (hinv.calls i).nodup, hinv.calls, ?_⟩
  intro n t hpolls hcount row hrow hmatches
  cases hpolls with
  | refl =>
      -- Without a poll, nothing can be left to observe.
      by_contra hnot
      have hmem : row ∈ s.unobserved q :=
        List.mem_filter.mpr ⟨hrow, by simp [hmatches, hnot]⟩
      rw [Nat.zero_mul, Nat.le_zero, List.length_eq_zero_iff] at hcount
      rw [hcount] at hmem
      cases hmem
  | poll hpolls hwaiting hallowed hpage hgoesOn =>
      obtain ⟨-, hmap⟩ := polls_frame hpolls
      exact observed_afterPoll (hmap.trans hinv.nextOffsets) hallowed hpage hgoesOn hrow hmatches

/-! ## Events are observed again -/

/-- An event with the correlation ID 10. -/
def recordedEvent : EventRow where
  messageID := uuid 20
  correlationID := uuid 10
  messageTypeID := uuid 2
  envelope :=
    { header :=
        { correlationID := uuid 10
          causationID := uuid 10
          handlerKey := uuid 50
          instanceID := "a" }
      body :=
        { messageID := uuid 20
          message := { typeID := uuid 2, data := [] }
          position := some { streamID := uuid 100, offset := 0 } } }
  streamID := uuid 100
  streamOffset := 0
  aggregate := none

/-- A single observer of such events. -/
def oneObserver : Query where
  correlationID := uuid 10
  eventTypes := {uuid 2}
  observers := 1

/-- A poll in which nothing fails and the observer is not satisfied. -/
def unsatisfying : PollAttempt where
  queryFails := false
  failsAfter := none
  unpacks := fun _ => true
  answer := fun _ _ => .unsatisfied

/-- The event has been recorded. -/
def recordedOne : Wait := { Wait.start with store := [recordedEvent] }

/-- It has been polled for once. -/
def polledOnce : Wait := recordedOne.afterPoll oneObserver unsatisfying [recordedEvent]

/-- It has been polled for twice. -/
def polledTwice : Wait := polledOnce.afterPoll oneObserver unsatisfying [recordedEvent]

theorem recordedEvent_page :
    oneObserver.Page (fun _ => none) [recordedEvent] [recordedEvent] :=
  ⟨[recordedEvent], List.Perm.refl _, List.pairwise_singleton _ _, rfl⟩

theorem recordedOne_reached (allow : Wait → Prop) :
    Wait.Reaches oneObserver allow Wait.start recordedOne :=
  .single (.append (List.pairwise_singleton _ _))

/-- The event that follows it on the same stream. -/
def nextEvent : EventRow :=
  { recordedEvent with
    messageID := uuid 21
    envelope :=
      { recordedEvent.envelope with
        body :=
          { recordedEvent.envelope.body with
            messageID := uuid 21
            position := some { streamID := uuid 100, offset := 1 } } }
    streamOffset := 1 }

/-- A poll has found nothing, and both events have been recorded since. -/
def recordedBoth : Wait :=
  { Wait.start.afterPoll oneObserver unsatisfying [] with store := [recordedEvent, nextEvent] }

/-- They have been polled for once. -/
def polledBoth : Wait :=
  recordedBoth.afterPoll oneObserver unsatisfying [recordedEvent, nextEvent]

/-- A poll that finds nothing does not keep a later one from passing on both events. -/
theorem first_page_observes_events_once :
    observedBy 0 polledBoth.calls = [recordedEvent, nextEvent] ∧
      ObservesEvents oneObserver (FirstPage oneObserver) polledBoth := by
  have hempty : Wait.Step oneObserver (FirstPage oneObserver) Wait.start
      (Wait.start.afterPoll oneObserver unsatisfying []) :=
    .poll rfl ⟨rfl, Nat.zero_le _⟩ ⟨[], .refl _, .nil, rfl⟩
  have happend : Wait.Step oneObserver (FirstPage oneObserver)
      (Wait.start.afterPoll oneObserver unsatisfying []) recordedBoth :=
    @Wait.Step.append _ _ _ [recordedEvent, nextEvent]
      (List.pairwise_pair.mpr fun _ => Nat.zero_lt_one)
  have hpoll : Wait.Step oneObserver (FirstPage oneObserver) recordedBoth polledBoth :=
    .poll rfl ⟨rfl, by decide⟩
      ⟨_, .refl _, List.pairwise_pair.mpr (Nat.zero_le _), rfl⟩
  exact ⟨rfl, first_page_observes_events (.tail (.tail (.single hempty) happend) hpoll)⟩

/-- The second of two polls calls the observer with the same event again. -/
theorem event_observed_twice :
    Wait.Reaches oneObserver (fun _ => True) Wait.start polledTwice ∧
      observedBy 0 polledTwice.calls = [recordedEvent, recordedEvent] ∧
      ¬ ObservesEvents oneObserver (fun _ => True) polledTwice := by
  have honce : Wait.Step oneObserver (fun _ => True) recordedOne polledOnce :=
    .poll rfl True.intro recordedEvent_page
  have htwice : Wait.Step oneObserver (fun _ => True) polledOnce polledTwice :=
    .poll rfl True.intro recordedEvent_page
  refine ⟨.tail (.tail (recordedOne_reached _) honce) htwice, rfl, ?_⟩
  intro h
  have hnodup := h.once 0
  exact absurd hnodup (by decide)

end Runkit.Execute
