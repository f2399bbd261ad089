/-
  EventStream/Reconcile.lean --- which streams a node consumes.

  Source: internal/eventstream/consumer.go, and internal/supervisor/supervisor.go.

  `Consumer.Run` calls `reconcile` with the stream IDs and the membership that it has
  observed, one call after another.  A stream consumer is a goroutine in which the supervisor
  makes attempts to consume a stream.  The stop function of a stream cancels its goroutine
  and waits for its latch; `reconcile` runs the stop functions in goroutines of their own.
  All of these goroutines interleave.

  The stream consumers that run are accounted for by the map of stop functions, by the stop
  functions that have not returned, and by the one that has just been started.  Nothing is
  started before every stop function has returned.

  The delay between attempts, and what an attempt does, are left out: an attempt may return
  any error at any time.  `Catalog.Consume` only returns with an error.
-/
import Mathlib.Data.Finmap
import Mathlib.Logic.Relation
import Runkit.Cluster.Membership
import Runkit.Foundation.Run

set_option autoImplicit false

namespace Runkit.EventStream

open Runkit.Foundation Runkit.Cluster

/-! ## The supervisor -/

/-- An error that the function returns which the supervisor runs. -/
inductive FnError where
  /-- Created by `Fatal`. -/
  | fatal
  /-- Any other.  It is persistent if it is created by `Persistent`. -/
  | failed (persistent : Bool)
  deriving DecidableEq, Repr

/-- An error that `supervisor.Run` returns. -/
inductive RunError where
  | canceled
  | fatal
  deriving DecidableEq, Repr

/-- Where a stream consumer is. -/
inductive StreamConsumerPhase where
  /-- In an attempt. -/
  | calling
  /-- Waiting to make another attempt. -/
  | delaying
  /-- `supervisor.Run` has returned. -/
  | returning (err : Option RunError)
  /-- The latch has been set. -/
  | stopped (err : Option RunError)
  deriving DecidableEq, Repr

/-- What `supervisor.Run` does once the function has returned, given whether the context is
done. -/
def afterFn (ctxDone : Bool) (err : Option FnError) : StreamConsumerPhase :=
  if ctxDone = true ∨ err = none then
    .returning (if ctxDone then some .canceled else none)
  else if err = some .fatal then
    .returning (some .fatal)
  else
    .delaying

/-- A goroutine that `startStreamConsumer` has started. -/
structure StreamConsumer where
  streamID : UUID
  /-- Its context has been canceled, by its stop function. -/
  canceled : Bool
  phase : StreamConsumerPhase
  deriving DecidableEq, Repr

/-- A reference to a stream consumer. -/
abbrev ConsumerRef := Nat

namespace StreamConsumer

/-- The latch has not been set. -/
def Running (k : StreamConsumer) : Prop := ∀ err, k.phase ≠ .stopped err

/-- It has failed fatally. -/
def Failed (k : StreamConsumer) : Prop :=
  k.phase = .returning (some .fatal) ∨ k.phase = .stopped (some .fatal)

/-- One step of a stream consumer, given whether the context of `reconcile` is done. -/
inductive Step (ctxDone : Bool) : StreamConsumer → StreamConsumer → Prop where
  | fnReturn {k : StreamConsumer} {err : FnError} (hphase : k.phase = .calling) :
      Step ctxDone k { k with phase := afterFn (ctxDone || k.canceled) (some err) }
  | delayOver {k : StreamConsumer} (hphase : k.phase = .delaying) :
      Step ctxDone k { k with phase := .calling }
  | delayCanceled {k : StreamConsumer} (hphase : k.phase = .delaying)
      (hdone : (ctxDone || k.canceled) = true) :
      Step ctxDone k { k with phase := .returning (some .canceled) }
  | stop {k : StreamConsumer} {err : Option RunError} (hphase : k.phase = .returning err) :
      Step ctxDone k { k with phase := .stopped err }

end StreamConsumer

/-! ## Calls of `reconcile` -/

section

variable (hash : Bytes → UInt64) (less : UUID → UUID → Bool) (workload : UUID → UUID)

/-- The streams that `reconcile` finds the node to be responsible for. -/
def responsible (streamIDs : Finset UUID) (membership : Option Membership) : Finset UUID :=
  streamIDs.filter fun streamID =>
    Membership.localNodeIsResponsibleFor hash less membership (workload streamID) = true

end

/-- A call of `reconcile`, with the stream consumers that there were when it began. -/
structure ReconcileCall where
  streamIDs : Finset UUID
  membership : Option Membership
  before : ConsumerRef → Option StreamConsumer

/-- Where `reconcile` is.  The lists are of the streams that a loop has not yet come to. -/
inductive ReconcilePhase where
  /-- It has not been called. -/
  | initial
  | stopping (call : ReconcileCall) (rest : List UUID)
  /-- In `stopping.Wait`. -/
  | waiting (call : ReconcileCall)
  | starting (call : ReconcileCall) (rest : List UUID)
  /-- In `startStreamConsumer`, about to set the stop function. -/
  | setting (call : ReconcileCall) (streamID : UUID) (i : ConsumerRef) (rest : List UUID)
  | returned (call : ReconcileCall)

/-- The call that `reconcile` is in, or the last one. -/
def ReconcilePhase.call : ReconcilePhase → Option ReconcileCall
  | .initial => none
  | .stopping call _ => some call
  | .waiting call => some call
  | .starting call _ => some call
  | .setting call _ _ _ => some call
  | .returned call => some call

/-- Whether `reconcile` is not being executed. -/
def ReconcilePhase.idle : ReconcilePhase → Prop
  | .initial => True
  | .returned _ => True
  | _ => False

/-- Where a call of a stop function is. -/
inductive StopPhase where
  | canceling
  /-- In `stopped.Wait`. -/
  | waiting
  deriving DecidableEq, Repr

/-- `Consumer`, with the stream consumers that it has started. -/
structure Reconciler where
  /-- The stream consumer that the stop function of a stream stops. -/
  stopStreamConsumer : Finmap fun _ : UUID => ConsumerRef
  consumers : ConsumerRef → Option StreamConsumer
  /-- The calls of stop functions that have not returned. -/
  stops : List (ConsumerRef × StopPhase)
  phase : ReconcilePhase
  /-- The context of `reconcile` is done. -/
  ctxDone : Bool

namespace Reconciler

/-- A consumer that has not been run. -/
def start : Reconciler where
  stopStreamConsumer := ∅
  consumers := fun _ => none
  stops := []
  phase := .initial
  ctxDone := false

def setConsumer (st : Reconciler) (i : ConsumerRef) (k : StreamConsumer) : Reconciler :=
  { st with consumers := Function.update st.consumers i (some k) }

/-- One step of any of the goroutines. -/
inductive Step (hash : Bytes → UInt64) (less : UUID → UUID → Bool) (workload : UUID → UUID) :
    Reconciler → Reconciler → Prop where
  /-- `reconcile` is called. -/
  | reconcile {st : Reconciler} {streamIDs : Finset UUID} {membership : Option Membership}
      {order : List UUID} (hphase : st.phase.idle)
      (horder : ∀ streamID, streamID ∈ order ↔ streamID ∈ st.stopStreamConsumer) :
      Step hash less workload st
        { st with
          phase := .stopping
            { streamIDs := streamIDs, membership := membership, before := st.consumers } order }
  | keep {st : Reconciler} {call : ReconcileCall} {streamID : UUID} {rest : List UUID}
      (hphase : st.phase = .stopping call (streamID :: rest))
      (hresponsible : streamID ∈ responsible hash less workload call.streamIDs call.membership) :
      Step hash less workload st { st with phase := .stopping call rest }
  /-- `stopping.Go(stop)`, and the stop function is deleted. -/
  | go {st : Reconciler} {call : ReconcileCall} {streamID : UUID} {rest : List UUID}
      {i : ConsumerRef} (hphase : st.phase = .stopping call (streamID :: rest))
      (hresponsible : streamID ∉ responsible hash less workload call.streamIDs call.membership)
      (hstop : st.stopStreamConsumer.lookup streamID = some i) :
      Step hash less workload st
        { st with
          stopStreamConsumer := st.stopStreamConsumer.erase streamID
          stops := (i, .canceling) :: st.stops
          phase := .stopping call rest }
  | wait {st : Reconciler} {call : ReconcileCall} (hphase : st.phase = .stopping call []) :
      Step hash less workload st { st with phase := .waiting call }
  /-- Every stop function has returned. -/
  | waited {st : Reconciler} {call : ReconcileCall} {order : List UUID}
      (hphase : st.phase = .waiting call) (hstops : st.stops = [])
      (horder : ∀ streamID, streamID ∈ order ↔
        streamID ∈ responsible hash less workload call.streamIDs call.membership) :
      Step hash less workload st { st with phase := .starting call order }
  | skip {st : Reconciler} {call : ReconcileCall} {streamID : UUID} {rest : List UUID}
      (hphase : st.phase = .starting call (streamID :: rest))
      (hhas : streamID ∈ st.stopStreamConsumer) :
      Step hash less workload st { st with phase := .starting call rest }
  /-- `startStreamConsumer` starts a goroutine. -/
  | startStreamConsumer {st : Reconciler} {call : ReconcileCall} {streamID : UUID}
      {rest : List UUID} {i : ConsumerRef}
      (hphase : st.phase = .starting call (streamID :: rest))
      (hhas : streamID ∉ st.stopStreamConsumer) (hfresh : st.consumers i = none) :
      Step hash less workload st
        { st.setConsumer i { streamID := streamID, canceled := false, phase := .calling } with
          phase := .setting call streamID i rest }
  | set {st : Reconciler} {call : ReconcileCall} {streamID : UUID} {rest : List UUID}
      {i : ConsumerRef} (hphase : st.phase = .setting call streamID i rest) :
      Step hash less workload st
        { st with
          stopStreamConsumer := st.stopStreamConsumer.insert streamID i
          phase := .starting call rest }
  | returns {st : Reconciler} {call : ReconcileCall} (hphase : st.phase = .starting call []) :
      Step hash less workload st { st with phase := .returned call }
  /-- A stop function cancels the context. -/
  | cancel {st : Reconciler} {i : ConsumerRef} {k : StreamConsumer}
      {before after : List (ConsumerRef × StopPhase)}
      (hstops : st.stops = before ++ (i, .canceling) :: after)
      (hconsumer : st.consumers i = some k) :
      Step hash less workload st
        { st.setConsumer i { k with canceled := true } with
          stops := before ++ (i, .waiting) :: after }
  /-- A stop function returns. -/
  | stopped {st : Reconciler} {i : ConsumerRef} {k : StreamConsumer} {err : Option RunError}
      {before after : List (ConsumerRef × StopPhase)}
      (hstops : st.stops = before ++ (i, .waiting) :: after) (hconsumer : st.consumers i = some k)
      (hphase : k.phase = .stopped err) :
      Step hash less workload st { st with stops := before ++ after }
  | consumer {st : Reconciler} {i : ConsumerRef} {k k' : StreamConsumer}
      (hconsumer : st.consumers i = some k) (hstep : StreamConsumer.Step st.ctxDone k k') :
      Step hash less workload st (st.setConsumer i k')
  /-- The context is canceled, from outside or because a stream consumer has failed. -/
  | cancelContext {st : Reconciler} : Step hash less workload st { st with ctxDone := true }

/-- The state is reached after any number of steps. -/
def Reached (hash : Bytes → UInt64) (less : UUID → UUID → Bool) (workload : UUID → UUID)
    (st : Reconciler) : Prop :=
  Relation.ReflTransGen (Step hash less workload) start st

/-! ## Which stream consumers there are -/

end Reconciler

/-- The stream consumer that has been started, but has no stop function yet. -/
def ReconcilePhase.starts : ReconcilePhase → Option (UUID × ConsumerRef)
  | .setting _ streamID i _ => some (streamID, i)
  | _ => none

theorem ReconcilePhase.starts_of_idle {phase : ReconcilePhase} (h : phase.idle) :
    phase.starts = none := by
  cases phase with
  | initial => rfl
  | returned call => rfl
  | stopping call rest => exact h.elim
  | waiting call => exact h.elim
  | starting call rest => exact h.elim
  | setting call streamID i rest => exact h.elim

namespace StreamConsumer

theorem Step.running {ctxDone : Bool} {k k' : StreamConsumer} (h : Step ctxDone k k') :
    k.Running := by
  intro err hstopped
  cases h with
  | fnReturn hphase => cases hphase.symm.trans hstopped
  | delayOver hphase => cases hphase.symm.trans hstopped
  | delayCanceled hphase _ => cases hphase.symm.trans hstopped
  | stop hphase => cases hphase.symm.trans hstopped

/-- What a step of a stream consumer does.  It returns only if it has been canceled or has
failed. -/
theorem Step.spec {ctxDone : Bool} {k k' : StreamConsumer} (h : Step ctxDone k k') :
    k'.streamID = k.streamID ∧ k'.canceled = k.canceled ∧ (k'.Running → k.Running) ∧
      (k.Failed → k'.Failed) := by
  have hrunning := h.running
  cases h with
  | fnReturn hphase =>
      refine ⟨rfl, rfl, fun _ => hrunning, ?_⟩
      rintro (hfailed | hfailed) <;> cases hphase.symm.trans hfailed
  | delayOver hphase =>
      refine ⟨rfl, rfl, fun _ => hrunning, ?_⟩
      rintro (hfailed | hfailed) <;> cases hphase.symm.trans hfailed
  | delayCanceled hphase _ =>
      refine ⟨rfl, rfl, fun _ => hrunning, ?_⟩
      rintro (hfailed | hfailed) <;> cases hphase.symm.trans hfailed
  | stop hphase =>
      refine ⟨rfl, rfl, fun _ => hrunning, ?_⟩
      rintro (hfailed | hfailed)
      · cases hphase.symm.trans hfailed
        exact Or.inr rfl
      · cases hphase.symm.trans hfailed

/-- It is in the loop of `supervisor.Run`. -/
def Supervised (k : StreamConsumer) : Prop := k.phase = .calling ∨ k.phase = .delaying

theorem Supervised.running {k : StreamConsumer} (h : k.Supervised) : k.Running := by
  intro err hstopped
  rcases h with hphase | hphase <;> cases hphase.symm.trans hstopped

/-- It leaves the loop only if it has been canceled or has failed. -/
theorem Step.ended {ctxDone : Bool} {k k' : StreamConsumer} (h : Step ctxDone k k')
    (hk : k.Supervised ∨ k.canceled = true ∨ ctxDone = true ∨ k.Failed) :
    k'.Supervised ∨ k'.canceled = true ∨ ctxDone = true ∨ k'.Failed := by
  obtain ⟨-, hcanceled, -, hfailed⟩ := h.spec
  rcases hk with hsupervised | hk | hk | hk
  · cases h with
    | @fnReturn err hphase =>
        cases hdone : (ctxDone || k.canceled) with
        | true =>
            rw [Bool.or_eq_true] at hdone
            exact Or.inr (hdone.symm.imp_right Or.inl)
        | false =>
            cases err with
            | fatal => exact Or.inr (Or.inr (Or.inr (Or.inl rfl)))
            | failed persistent => exact Or.inl (Or.inr rfl)
    | delayOver _ => exact Or.inl (Or.inl rfl)
    | delayCanceled _ hdone =>
        rw [Bool.or_eq_true] at hdone
        exact Or.inr (hdone.symm.imp_right Or.inl)
    | stop hphase =>
        rcases hsupervised with hcalling | hdelaying
        · cases hphase.symm.trans hcalling
        · cases hphase.symm.trans hdelaying
  · exact Or.inr (Or.inl (hcanceled.trans hk))
  · exact Or.inr (Or.inr (Or.inl hk))
  · exact Or.inr (Or.inr (Or.inr (hfailed hk)))

end StreamConsumer

namespace Reconciler

/-- The stream consumer is the one of the stream, and is not to be stopped. -/
def Owns (st : Reconciler) (streamID : UUID) (i : ConsumerRef) : Prop :=
  st.stopStreamConsumer.lookup streamID = some i ∨ st.phase.starts = some (streamID, i)

/-- Every stream consumer that runs is accounted for. -/
structure Tracked (st : Reconciler) : Prop where
  owned : ∀ streamID i, st.Owns streamID i →
    ∃ k, st.consumers i = some k ∧ k.streamID = streamID ∧ k.canceled = false
  stops : ∀ i stop, (i, stop) ∈ st.stops → ∀ streamID, ¬ st.Owns streamID i
  accounted : ∀ i k, st.consumers i = some k → k.Running →
    st.Owns k.streamID i ∨ ∃ stop, (i, stop) ∈ st.stops
  single : ∀ i j k k', st.consumers i = some k → st.consumers j = some k' → k.Running →
    k'.Running → k.streamID = k'.streamID → i = j
  ended : ∀ i k, st.consumers i = some k →
    k.Supervised ∨ k.canceled = true ∨ st.ctxDone = true ∨ k.Failed

section

variable {st st' : Reconciler} {i : ConsumerRef} {k k' : StreamConsumer}

theorem Tracked.congr (h : st.Tracked)
    (howns : ∀ streamID i, st'.Owns streamID i ↔ st.Owns streamID i)
    (hconsumers : st'.consumers = st.consumers)
    (hstops : ∀ i, (∃ stop, (i, stop) ∈ st'.stops) ↔ ∃ stop, (i, stop) ∈ st.stops)
    (hctx : st.ctxDone = true → st'.ctxDone = true) : st'.Tracked := by
  refine ⟨?_, ?_, ?_, ?_, ?_⟩
  · intro streamID i hown
    rw [hconsumers]
    exact h.owned streamID i ((howns streamID i).mp hown)
  · intro i stop hstop streamID hown
    obtain ⟨stop', hstop'⟩ := (hstops i).mp ⟨stop, hstop⟩
    exact h.stops i stop' hstop' streamID ((howns streamID i).mp hown)
  · intro i k hconsumer hrunning
    rw [hconsumers] at hconsumer
    rw [hstops, howns]
    exact h.accounted i k hconsumer hrunning
  · rw [hconsumers]
    exact h.single
  · intro i k hconsumer
    rw [hconsumers] at hconsumer
    exact (h.ended i k hconsumer).imp_right (Or.imp_right (Or.imp_left hctx))

/-- `reconcile` goes on, without starting a stream consumer. -/
theorem Tracked.setPhase (h : st.Tracked) {phase : ReconcilePhase}
    (hstarts : phase.starts = st.phase.starts) : Tracked { st with phase := phase } := by
  refine h.congr ?_ rfl (fun _ => Iff.rfl) id
  intro streamID i
  rw [Owns, Owns, hstarts]

/-- The stop function of a stream consumer that has been started is set. -/
theorem owns_insert {call : ReconcileCall} {streamID streamID' : UUID} {rest : List UUID}
    {j : ConsumerRef} (hphase : st.phase = .setting call streamID i rest)
    (hhas : streamID ∉ st.stopStreamConsumer) :
    Owns { st with
      stopStreamConsumer := st.stopStreamConsumer.insert streamID i
      phase := .starting call rest } streamID' j ↔ st.Owns streamID' j := by
  have hnone := Finmap.lookup_eq_none.mpr hhas
  simp only [Owns, hphase, ReconcilePhase.starts]
  by_cases heq : streamID' = streamID
  · subst heq
    simp [hnone]
  · simp [Finmap.lookup_insert_of_ne _ heq, Ne.symm heq]

/-- A stream consumer goes on, or is canceled. -/
theorem Tracked.setConsumer (h : st.Tracked) (hconsumer : st.consumers i = some k)
    (hstream : k'.streamID = k.streamID) (hrunning : k'.Running → k.Running)
    (hcanceled : k'.canceled = k.canceled ∨ ∀ streamID, ¬ st.Owns streamID i)
    (hended : k'.Supervised ∨ k'.canceled = true ∨ st.ctxDone = true ∨ k'.Failed) :
    (st.setConsumer i k').Tracked := by
  -- Every stream consumer was there before, for the same stream, and ran if it runs now.
  have hwas : ∀ j l, (st.setConsumer i k').consumers j = some l →
      ∃ l', st.consumers j = some l' ∧ l.streamID = l'.streamID ∧ (l.Running → l'.Running) := by
    intro j l hj
    rcases update_eq_some hj with ⟨rfl, hl⟩ | ⟨-, hj⟩
    · cases hl
      exact ⟨k, hconsumer, hstream, hrunning⟩
    · exact ⟨l, hj, rfl, id⟩
  refine ⟨?_, h.stops, ?_, ?_, ?_⟩
  · intro streamID j hown
    obtain ⟨l, hj, hl, hopen⟩ := h.owned streamID j hown
    by_cases heq : j = i
    · subst heq
      cases hconsumer.symm.trans hj
      refine ⟨k', Function.update_self .., hstream.trans hl, ?_⟩
      rcases hcanceled with hcanceled | hunowned
      · exact hcanceled.trans hopen
      · exact absurd hown (hunowned streamID)
    · exact ⟨l, (Function.update_of_ne heq ..).trans hj, hl, hopen⟩
  · intro j l hj hl
    obtain ⟨l', hj', hstream', hrunning'⟩ := hwas j l hj
    rw [hstream']
    exact h.accounted j l' hj' (hrunning' hl)
  · intro j m l l' hj hm hl hl' hsame
    obtain ⟨k₁, hj', hstream₁, hrunning₁⟩ := hwas j l hj
    obtain ⟨k₂, hm', hstream₂, hrunning₂⟩ := hwas m l' hm
    exact h.single j m k₁ k₂ hj' hm' (hrunning₁ hl) (hrunning₂ hl')
      (hstream₁.symm.trans (hsame.trans hstream₂))
  · intro j l hj
    rcases update_eq_some hj with ⟨-, hl⟩ | ⟨-, hj⟩
    · cases hl
      exact hended
    · exact h.ended j l hj

/-- A stop function is called. -/
theorem Tracked.go (h : st.Tracked) {streamID : UUID} {phase : ReconcilePhase}
    (hstop : st.stopStreamConsumer.lookup streamID = some i) (hstarts : st.phase.starts = none)
    (hstarts' : phase.starts = none) :
    Tracked
      { st with
        stopStreamConsumer := st.stopStreamConsumer.erase streamID
        stops := (i, .canceling) :: st.stops
        phase := phase } := by
  have howns : ∀ streamID' j,
      Owns { st with
        stopStreamConsumer := st.stopStreamConsumer.erase streamID
        stops := (i, .canceling) :: st.stops
        phase := phase } streamID' j ↔ streamID' ≠ streamID ∧ st.Owns streamID' j := by
    intro streamID' j
    simp only [Owns, hstarts, hstarts', reduceCtorEq, or_false]
    by_cases heq : streamID' = streamID
    · subst heq
      simp
    · simp [Finmap.lookup_erase_ne heq, heq]
  obtain ⟨k, hconsumer, hstream, -⟩ := h.owned streamID i (Or.inl hstop)
  refine ⟨?_, ?_, ?_, h.single, h.ended⟩
  · intro streamID' j hown
    exact h.owned streamID' j ((howns streamID' j).mp hown).2
  · intro j stop hmem streamID' hown
    obtain ⟨hne, hown⟩ := (howns streamID' j).mp hown
    rcases List.mem_cons.mp hmem with heq | hmem
    · cases heq
      obtain ⟨k', hconsumer', hstream', -⟩ := h.owned streamID' i hown
      cases hconsumer.symm.trans hconsumer'
      exact hne (hstream'.symm.trans hstream)
    · exact h.stops j stop hmem streamID' hown
  · intro j l hj hrunning
    rw [howns]
    rcases h.accounted j l hj hrunning with hown | ⟨stop, hmem⟩
    · by_cases heq : l.streamID = streamID
      · -- It is the stream consumer that is being stopped.
        have hsame : j = i := by
          obtain hlookup | hstart := hown
          · rw [heq] at hlookup
            exact Option.some.inj (hlookup.symm.trans hstop)
          · rw [hstarts] at hstart
            cases hstart
        exact Or.inr ⟨.canceling, hsame ▸ List.mem_cons_self⟩
      · exact Or.inl ⟨heq, hown⟩
    · exact Or.inr ⟨stop, List.mem_cons_of_mem _ hmem⟩

/-- A stop function has returned. -/
theorem Tracked.stopped (h : st.Tracked) {err : Option RunError} {stop : StopPhase}
    {before after : List (ConsumerRef × StopPhase)}
    (hstops : st.stops = before ++ (i, stop) :: after) (hconsumer : st.consumers i = some k)
    (hphase : k.phase = .stopped err) : Tracked { st with stops := before ++ after } := by
  refine ⟨h.owned, ?_, ?_, h.single, h.ended⟩
  · intro j stop' hmem
    refine h.stops j stop' ?_
    rw [hstops]
    simp only [List.mem_append, List.mem_cons] at hmem ⊢
    exact hmem.imp_right Or.inr
  · intro j l hj hrunning
    refine (h.accounted j l hj hrunning).imp_right ?_
    rintro ⟨stop', hmem⟩
    rw [hstops] at hmem
    simp only [List.mem_append, List.mem_cons, Prod.mk.injEq] at hmem
    rcases hmem with hmem | ⟨hij, -⟩ | hmem
    · exact ⟨stop', List.mem_append_left _ hmem⟩
    · subst hij
      cases hconsumer.symm.trans hj
      exact absurd hphase (hrunning err)
    · exact ⟨stop', List.mem_append_right _ hmem⟩

/-- A stream consumer is started, for a stream that has none. -/
theorem Tracked.startStreamConsumer (h : st.Tracked) {call : ReconcileCall} {streamID : UUID}
    {rest : List UUID} (hfresh : st.consumers i = none) (hstarts : st.phase.starts = none)
    (hhas : streamID ∉ st.stopStreamConsumer) (hstops : st.stops = []) :
    Tracked
      { st.setConsumer i { streamID := streamID, canceled := false, phase := .calling } with
        phase := .setting call streamID i rest } := by
  have hnone : ∀ j k, st.consumers j = some k → k.Running → k.streamID ≠ streamID := by
    intro j k hj hrunning heq
    rcases h.accounted j k hj hrunning with hown | ⟨stop, hmem⟩
    · rcases hown with hlookup | hstart
      · exact hhas (heq ▸ Finmap.mem_iff.mpr ⟨j, hlookup⟩)
      · rw [hstarts] at hstart
        cases hstart
    · rw [hstops] at hmem
      cases hmem
  have howns : ∀ streamID' j,
      Owns { st.setConsumer i { streamID := streamID, canceled := false, phase := .calling } with
        phase := .setting call streamID i rest } streamID' j ↔
      st.Owns streamID' j ∨ (streamID' = streamID ∧ j = i) := by
    intro streamID' j
    constructor
    · rintro (hlookup | hstart)
      · exact Or.inl (Or.inl hlookup)
      · cases hstart
        exact Or.inr ⟨rfl, rfl⟩
    · rintro ((hlookup | hstart) | ⟨rfl, rfl⟩)
      · exact Or.inl hlookup
      · rw [hstarts] at hstart
        cases hstart
      · exact Or.inr rfl
  refine ⟨?_, ?_, ?_, ?_, ?_⟩
  · intro streamID' j hown
    rcases (howns streamID' j).mp hown with hown | ⟨rfl, rfl⟩
    · obtain ⟨k, hj, hk⟩ := h.owned streamID' j hown
      have hne : j ≠ i := by
        intro heq
        subst heq
        cases hfresh.symm.trans hj
      exact ⟨k, (Function.update_of_ne hne ..).trans hj, hk⟩
    · exact ⟨_, Function.update_self .., rfl, rfl⟩
  · intro j stop hmem
    change (j, stop) ∈ st.stops at hmem
    rw [hstops] at hmem
    cases hmem
  · intro j l hj hrunning
    rw [howns]
    rcases update_eq_some hj with ⟨rfl, hl⟩ | ⟨-, hj⟩
    · cases hl
      exact Or.inl (Or.inr ⟨rfl, rfl⟩)
    · exact (h.accounted j l hj hrunning).imp_left Or.inl
  · intro j m l l' hj hm hl hl' hsame
    rcases update_eq_some hj with ⟨hji, hl₁⟩ | ⟨-, hj⟩
    · rcases update_eq_some hm with ⟨hmi, -⟩ | ⟨-, hm⟩
      · exact hji.trans hmi.symm
      · cases hl₁
        exact absurd hsame.symm (hnone m l' hm hl')
    · rcases update_eq_some hm with ⟨-, hl₂⟩ | ⟨-, hm⟩
      · cases hl₂
        exact absurd hsame (hnone j l hj hl)
      · exact h.single j m l l' hj hm hl hl' hsame
  · intro j l hj
    rcases update_eq_some hj with ⟨-, hl⟩ | ⟨-, hj⟩
    · cases hl
      exact Or.inl (Or.inl rfl)
    · exact h.ended j l hj

end

/-! ## Where a call of `reconcile` is -/

section

variable {hash : Bytes → UInt64} {less : UUID → UUID → Bool} {workload : UUID → UUID}
  {st st' : Reconciler} {call : ReconcileCall}

/-- The streams that the node is responsible for in a call. -/
abbrev targets (hash : Bytes → UInt64) (less : UUID → UUID → Bool) (workload : UUID → UUID)
    (call : ReconcileCall) : Finset UUID :=
  responsible hash less workload call.streamIDs call.membership

/-- The stream consumers that there were are kept, for the streams that the node is still
responsible for. -/
def Kept (targets : Finset UUID) (before : ConsumerRef → Option StreamConsumer)
    (stops : Finmap fun _ : UUID => ConsumerRef) : Prop :=
  ∀ i k, before i = some k → k.Running → k.streamID ∈ targets → stops.lookup k.streamID = some i

/-- The streams that have a stop function, and those that remain to be started, are the ones
that the node is responsible for. -/
structure Remains (targets : Finset UUID) (remaining : List UUID)
    (stops : Finmap fun _ : UUID => ConsumerRef) : Prop where
  has : ∀ streamID ∈ stops, streamID ∈ targets
  rest : ∀ streamID ∈ remaining, streamID ∈ targets
  all : ∀ streamID ∈ targets, streamID ∈ stops ∨ streamID ∈ remaining

/-- What has been done in a call, and what remains. -/
def Staged (hash : Bytes → UInt64) (less : UUID → UUID → Bool) (workload : UUID → UUID)
    (st : Reconciler) : Prop :=
  match st.phase with
  | .initial => st.stops = []
  | .stopping call rest =>
      Kept (targets hash less workload call) call.before st.stopStreamConsumer ∧
        ∀ streamID ∈ st.stopStreamConsumer,
          streamID ∈ targets hash less workload call ∨ streamID ∈ rest
  | .waiting call =>
      Kept (targets hash less workload call) call.before st.stopStreamConsumer ∧
        ∀ streamID ∈ st.stopStreamConsumer, streamID ∈ targets hash less workload call
  | .starting call rest =>
      Kept (targets hash less workload call) call.before st.stopStreamConsumer ∧
        Remains (targets hash less workload call) rest st.stopStreamConsumer ∧ st.stops = []
  | .setting call streamID _ rest =>
      Kept (targets hash less workload call) call.before st.stopStreamConsumer ∧
        Remains (targets hash less workload call) (streamID :: rest) st.stopStreamConsumer ∧
        st.stops = [] ∧ streamID ∉ st.stopStreamConsumer
  | .returned call =>
      Kept (targets hash less workload call) call.before st.stopStreamConsumer ∧
        Remains (targets hash less workload call) [] st.stopStreamConsumer ∧ st.stops = []

theorem Staged.stops_eq_nil (h : st.Staged hash less workload) (hidle : st.phase.idle) :
    st.stops = [] := by
  rw [Staged] at h
  cases hphase : st.phase <;> rw [hphase] at h hidle
  case initial => exact h
  case returned => exact h.2.2
  all_goals exact hidle.elim

theorem Staged.kept (h : st.Staged hash less workload) (hcall : st.phase.call = some call) :
    Kept (targets hash less workload call) call.before st.stopStreamConsumer := by
  rw [Staged] at h
  cases hphase : st.phase <;> rw [hphase] at h hcall <;> cases hcall
  all_goals exact h.1

/-- What the other goroutines do is of no concern to a call. -/
theorem Staged.congr (h : st.Staged hash less workload) (hphase : st'.phase = st.phase)
    (hmap : st'.stopStreamConsumer = st.stopStreamConsumer)
    (hstops : st.stops = [] → st'.stops = []) : st'.Staged hash less workload := by
  rw [Staged] at h ⊢
  rw [hphase, hmap]
  cases hcase : st.phase <;> rw [hcase] at h
  case initial => exact hstops h
  case stopping => exact h
  case waiting => exact h
  case starting => exact ⟨h.1, h.2.1, hstops h.2.2⟩
  case setting => exact ⟨h.1, h.2.1, hstops h.2.2.1, h.2.2.2⟩
  case returned => exact ⟨h.1, h.2.1, hstops h.2.2⟩

/-- A call begins with every stream consumer that runs in the map. -/
theorem Tracked.lookup_of_idle (h : st.Tracked) (hstaged : st.Staged hash less workload)
    (hidle : st.phase.idle) {i : ConsumerRef} {k : StreamConsumer}
    (hconsumer : st.consumers i = some k) (hrunning : k.Running) :
    st.stopStreamConsumer.lookup k.streamID = some i := by
  rcases h.accounted i k hconsumer hrunning with (hlookup | hstart) | ⟨stop, hmem⟩
  · exact hlookup
  · rw [ReconcilePhase.starts_of_idle hidle] at hstart
    cases hstart
  · rw [hstaged.stops_eq_nil hidle] at hmem
    cases hmem

theorem Kept.erase {targets : Finset UUID} {before : ConsumerRef → Option StreamConsumer}
    {stops : Finmap fun _ : UUID => ConsumerRef} {streamID : UUID} (h : Kept targets before stops)
    (hnot : streamID ∉ targets) : Kept targets before (stops.erase streamID) := by
  intro i k hbefore hrunning htarget
  have hne : k.streamID ≠ streamID := by
    intro heq
    exact hnot (heq ▸ htarget)
  rw [Finmap.lookup_erase_ne hne]
  exact h i k hbefore hrunning htarget

theorem Kept.insert {targets : Finset UUID} {before : ConsumerRef → Option StreamConsumer}
    {stops : Finmap fun _ : UUID => ConsumerRef} {streamID : UUID} {j : ConsumerRef}
    (h : Kept targets before stops) (hnot : streamID ∉ stops) :
    Kept targets before (stops.insert streamID j) := by
  intro i k hbefore hrunning htarget
  have hlookup := h i k hbefore hrunning htarget
  have hne : k.streamID ≠ streamID := by
    intro heq
    exact hnot (heq ▸ Finmap.mem_iff.mpr ⟨i, hlookup⟩)
  rw [Finmap.lookup_insert_of_ne _ hne]
  exact hlookup

/-- The loop has come to a stream that has a stop function. -/
theorem Remains.tail {targets : Finset UUID} {streamID : UUID} {rest : List UUID}
    {stops : Finmap fun _ : UUID => ConsumerRef} (h : Remains targets (streamID :: rest) stops)
    (hhas : streamID ∈ stops) : Remains targets rest stops := by
  refine ⟨h.has, fun streamID' hmem => h.rest streamID' (List.mem_cons_of_mem _ hmem), ?_⟩
  intro streamID' htarget
  rcases h.all streamID' htarget with hmem | hrest
  · exact Or.inl hmem
  · rcases List.mem_cons.mp hrest with heq | hrest
    · exact Or.inl (heq ▸ hhas)
    · exact Or.inr hrest

theorem Remains.insert {targets : Finset UUID} {streamID : UUID} {rest : List UUID}
    {stops : Finmap fun _ : UUID => ConsumerRef} {i : ConsumerRef}
    (h : Remains targets (streamID :: rest) stops) :
    Remains targets rest (stops.insert streamID i) := by
  have hinserted : Remains targets (streamID :: rest) (stops.insert streamID i) := by
    refine ⟨?_, h.rest, ?_⟩
    · intro streamID' hmem
      rcases Finmap.mem_insert.mp hmem with heq | hmem
      · exact heq ▸ h.rest streamID List.mem_cons_self
      · exact h.has streamID' hmem
    · intro streamID' htarget
      exact (h.all streamID' htarget).imp_left fun hmem => Finmap.mem_insert.mpr (Or.inr hmem)
  exact hinserted.tail (Finmap.mem_insert.mpr (Or.inl rfl))

theorem Staged.step (h : st.Staged hash less workload) (htracked : st.Tracked)
    (hstep : Step hash less workload st st') : st'.Staged hash less workload := by
  have hwas := h
  rw [Staged] at h
  cases hstep with
  | reconcile hidle horder =>
      refine ⟨?_, fun streamID hmem => Or.inr ((horder streamID).mpr hmem)⟩
      intro i k hbefore hrunning _
      exact htracked.lookup_of_idle hwas hidle hbefore hrunning
  | keep hphase hresponsible =>
      rw [hphase] at h
      refine ⟨h.1, fun streamID' hmem => ?_⟩
      rcases h.2 streamID' hmem with hin | hrest
      · exact Or.inl hin
      · rcases List.mem_cons.mp hrest with heq | hrest
        · exact Or.inl (heq ▸ hresponsible)
        · exact Or.inr hrest
  | go hphase hresponsible _ =>
      rw [hphase] at h
      refine ⟨h.1.erase hresponsible, fun streamID' hmem => ?_⟩
      obtain ⟨hne, hmem⟩ := Finmap.mem_erase.mp hmem
      exact (h.2 streamID' hmem).imp_right fun hrest => (List.mem_cons.mp hrest).resolve_left hne
  | wait hphase =>
      rw [hphase] at h
      refine ⟨h.1, fun streamID hmem => ?_⟩
      exact (h.2 streamID hmem).resolve_right List.not_mem_nil
  | waited hphase hstops horder =>
      rw [hphase] at h
      exact ⟨h.1, ⟨h.2, fun streamID hmem => (horder streamID).mp hmem,
        fun streamID hmem => Or.inr ((horder streamID).mpr hmem)⟩, hstops⟩
  | skip hphase hhas =>
      rw [hphase] at h
      exact ⟨h.1, h.2.1.tail hhas, h.2.2⟩
  | startStreamConsumer hphase hhas _ =>
      rw [hphase] at h
      exact ⟨h.1, h.2.1, h.2.2, hhas⟩
  | set hphase =>
      rw [hphase] at h
      exact ⟨h.1.insert h.2.2.2, h.2.1.insert, h.2.2.1⟩
  | returns hphase =>
      rw [hphase] at h
      exact h
  | cancel hstops _ =>
      refine hwas.congr rfl rfl fun hnil => ?_
      rw [hnil] at hstops
      exact absurd hstops.symm (List.append_ne_nil_of_right_ne_nil _ (List.cons_ne_nil _ _))
  | stopped hstops _ _ =>
      refine hwas.congr rfl rfl fun hnil => ?_
      rw [hnil] at hstops
      exact absurd hstops.symm (List.append_ne_nil_of_right_ne_nil _ (List.cons_ne_nil _ _))
  | consumer _ _ => exact hwas.congr rfl rfl id
  | cancelContext => exact hwas

/-- A step keeps the account of the stream consumers. -/
theorem Tracked.step (h : st.Tracked) (hstaged : st.Staged hash less workload)
    (hstep : Step hash less workload st st') : st'.Tracked := by
  have hwas := hstaged
  rw [Staged] at hstaged
  cases hstep with
  | reconcile hidle _ => exact h.setPhase (ReconcilePhase.starts_of_idle hidle).symm
  | keep hphase _ => exact h.setPhase (by rw [hphase]; rfl)
  | go hphase _ hstop => exact h.go hstop (by rw [hphase]; rfl) rfl
  | wait hphase => exact h.setPhase (by rw [hphase]; rfl)
  | waited hphase _ _ => exact h.setPhase (by rw [hphase]; rfl)
  | skip hphase _ => exact h.setPhase (by rw [hphase]; rfl)
  | startStreamConsumer hphase hhas hfresh =>
      rw [hphase] at hstaged
      exact h.startStreamConsumer hfresh (by rw [hphase]; rfl) hhas hstaged.2.2
  | set hphase =>
      rw [hphase] at hstaged
      refine h.congr ?_ rfl (fun _ => Iff.rfl) id
      intro streamID' j
      exact owns_insert hphase hstaged.2.2.2
  | returns hphase => exact h.setPhase (by rw [hphase]; rfl)
  | @cancel i k before after hstops hconsumer =>
      have hmem : (i, StopPhase.canceling) ∈ st.stops := by
        rw [hstops]
        exact List.mem_append_right _ List.mem_cons_self
      have hcanceled : (st.setConsumer i { k with canceled := true }).Tracked :=
        h.setConsumer hconsumer rfl id (Or.inr (h.stops i _ hmem)) (Or.inr (Or.inl rfl))
      refine hcanceled.congr (fun _ _ => Iff.rfl) rfl ?_ id
      intro j
      change (∃ stop, (j, stop) ∈ before ++ (i, .waiting) :: after) ↔ ∃ stop, (j, stop) ∈ st.stops
      rw [hstops]
      simp only [List.mem_append, List.mem_cons, Prod.mk.injEq, exists_or, exists_and_left,
        exists_eq, and_true]
  | stopped hstops hconsumer hphase => exact h.stopped hstops hconsumer hphase
  | consumer hconsumer hstep =>
      obtain ⟨hstream, hcanceled, hrunning, -⟩ := hstep.spec
      exact h.setConsumer hconsumer hstream hrunning (Or.inl hcanceled)
        (hstep.ended (h.ended _ _ hconsumer))
  | cancelContext => exact h.congr (fun _ _ => Iff.rfl) rfl (fun _ => Iff.rfl) fun _ => rfl

/-! ## Every run -/

/-- What holds in every state that is reached. -/
structure Invariant (hash : Bytes → UInt64) (less : UUID → UUID → Bool) (workload : UUID → UUID)
    (st : Reconciler) : Prop where
  tracked : st.Tracked
  staged : st.Staged hash less workload

theorem Reached.invariant (h : Reached hash less workload st) :
    st.Invariant hash less workload := by
  have hstart : start.Invariant hash less workload := by
    have hnone : ∀ i k, start.consumers i ≠ some k := fun _ k => (Option.some_ne_none k).symm
    refine ⟨⟨?_, fun _ _ hstop => absurd hstop List.not_mem_nil,
      fun i k hconsumer => absurd hconsumer (hnone i k),
      fun i _ k _ hconsumer => absurd hconsumer (hnone i k),
      fun i k hconsumer => absurd hconsumer (hnone i k)⟩, rfl⟩
    rintro streamID i (hlookup | hstart)
    · rw [start, Finmap.lookup_empty] at hlookup
      cases hlookup
    · cases hstart
  refine run_preserves ?_ h hstart
  intro st₁ st₂ h₁ hstep
  exact ⟨h₁.tracked.step h₁.staged hstep, h₁.staged.step h₁.tracked hstep⟩

/-- The stream has a stream consumer that runs. -/
def Consumed (st : Reconciler) (streamID : UUID) : Prop :=
  ∃ i k, st.consumers i = some k ∧ k.streamID = streamID ∧ k.Running

/-- The context has not been canceled, and no stream consumer has failed fatally. -/
structure Live (st : Reconciler) : Prop where
  ctx : st.ctxDone = false
  consumers : ∀ i k, st.consumers i = some k → ¬ k.Failed

/-- A stream consumer that has a stop function is in the loop of the supervisor. -/
theorem Tracked.supervised (h : st.Tracked) (hlive : st.Live) {streamID : UUID} {i : ConsumerRef}
    (hstop : st.stopStreamConsumer.lookup streamID = some i) :
    ∃ k, st.consumers i = some k ∧ k.streamID = streamID ∧ k.Supervised := by
  obtain ⟨k, hconsumer, hstream, hopen⟩ := h.owned streamID i (Or.inl hstop)
  refine ⟨k, hconsumer, hstream, ?_⟩
  rcases h.ended i k hconsumer with hsupervised | hcanceled | hctx | hfailed
  · exact hsupervised
  · rw [hopen] at hcanceled
    cases hcanceled
  · rw [hlive.ctx] at hctx
    cases hctx
  · exact absurd hfailed (hlive.consumers i k hconsumer)

/-- What `reconcile` sees to. -/
structure Reconciles (hash : Bytes → UInt64) (less : UUID → UUID → Bool)
    (workload : UUID → UUID) (st : Reconciler) : Prop where
  /-- After a call, the streams that are consumed are the given ones that the node is
  responsible for. -/
  consumed : ∀ call, st.phase = .returned call → st.Live → ∀ streamID, st.Consumed streamID ↔
    streamID ∈ call.streamIDs ∧
      Membership.localNodeIsResponsibleFor hash less call.membership (workload streamID) = true
  /-- No stream is consumed twice at once. -/
  single : ∀ i j k k', st.consumers i = some k → st.consumers j = some k' → k.Running →
    k'.Running → k.streamID = k'.streamID → i = j
  /-- A stream that was consumed when a call began, and that the node is responsible for in
  the call, goes on being consumed by the same stream consumer. -/
  kept : ∀ call i k, st.phase.call = some call → st.Live → call.before i = some k → k.Running →
    k.streamID ∈ call.streamIDs →
    Membership.localNodeIsResponsibleFor hash less call.membership (workload k.streamID) = true →
    ∃ k', st.consumers i = some k' ∧ k'.streamID = k.streamID ∧ k'.Supervised

/-- Whatever stream IDs and memberships `reconcile` is called with, and however the stream
consumers interleave with it. -/
theorem reconcile_runs_responsible (hreached : Reached hash less workload st) :
    Reconciles hash less workload st := by
  obtain ⟨htracked, hstaged⟩ := hreached.invariant
  refine ⟨?_, htracked.single, ?_⟩
  · intro call hphase hlive streamID
    have hidle : st.phase.idle := by
      rw [hphase]
      trivial
    have hremains : Remains (targets hash less workload call) [] st.stopStreamConsumer := by
      rw [Staged, hphase] at hstaged
      exact hstaged.2.1
    have htargets : streamID ∈ targets hash less workload call ↔ _ := Finset.mem_filter
    rw [← htargets]
    constructor
    · rintro ⟨i, k, hconsumer, rfl, hrunning⟩
      have hlookup := htracked.lookup_of_idle hstaged hidle hconsumer hrunning
      exact hremains.has _ (Finmap.mem_iff.mpr ⟨i, hlookup⟩)
    · intro htarget
      have hmem := (hremains.all streamID htarget).resolve_right List.not_mem_nil
      obtain ⟨i, hlookup⟩ := Finmap.mem_iff.mp hmem
      obtain ⟨k, hconsumer, hstream, hsupervised⟩ := htracked.supervised hlive hlookup
      exact ⟨i, k, hconsumer, hstream, hsupervised.running⟩
  · intro call i k hcall hlive hbefore hrunning hgiven hresponsible
    have htarget : k.streamID ∈ targets hash less workload call :=
      Finset.mem_filter.mpr ⟨hgiven, hresponsible⟩
    exact htracked.supervised hlive (hstaged.kept hcall i k hbefore hrunning htarget)

end

/-- A membership of one node. -/
def loneMembership : Membership where
  nodeID := uuid 1
  isLive := true
  peers := []
  others := List.not_mem_nil

/-- A stream consumer whose first attempt has failed. -/
def failedOnce : StreamConsumer where
  streamID := uuid 100
  canceled := false
  phase := .delaying

/-- A stream consumer that has been stopped. -/
def leftStream : StreamConsumer where
  streamID := uuid 200
  canceled := true
  phase := .stopped (some .canceled)

/-- A stream consumer in its first attempt. -/
def freshConsumer (streamID : UUID) : StreamConsumer where
  streamID := streamID
  canceled := false
  phase := .calling

/-- A node that is the only one is responsible for every stream. -/
theorem responsible_lone (streamIDs : Finset UUID) :
    responsible (fun _ => 0) (fun _ _ => false) id streamIDs (some loneMembership) =
      streamIDs := by
  simp [responsible, Membership.localNodeIsResponsibleFor, Membership.outranksAll, loneMembership]

/-- The state is reached on such a node. -/
abbrev ReachedAlone (st : Reconciler) : Prop := Reached (fun _ => 0) (fun _ _ => false) id st

/-- `reconcile` has returned. -/
def reconciled (stops : Finmap fun _ : UUID => ConsumerRef)
    (consumers : ConsumerRef → Option StreamConsumer) (call : ReconcileCall) : Reconciler where
  stopStreamConsumer := stops
  consumers := consumers
  stops := []
  phase := .returned call
  ctxDone := false

/-- The stop functions of one stream consumer, and of both. -/
def oneStop : Finmap fun _ : UUID => ConsumerRef := (∅ : Finmap _).insert (uuid 100) 0

def bothStops : Finmap fun _ : UUID => ConsumerRef := oneStop.insert (uuid 200) 1

theorem mem_oneStop (streamID : UUID) : streamID ∈ oneStop ↔ streamID ∈ [uuid 100] := by
  rw [oneStop, Finmap.mem_insert, List.mem_singleton]
  exact ⟨fun h => h.resolve_right Finmap.notMem_empty, Or.inl⟩

theorem mem_bothStops (streamID : UUID) :
    streamID ∈ bothStops ↔ streamID ∈ [uuid 100, uuid 200] := by
  rw [bothStops, Finmap.mem_insert, mem_oneStop]
  simp [or_comm]

/-- Two streams are consumed, and an attempt of the first one fails. -/
theorem failedOnce_reached : ∃ call consumers, ReachedAlone (reconciled bothStops consumers call) ∧
    consumers 0 = some failedOnce ∧ consumers 1 = some (freshConsumer (uuid 200)) ∧
      ∀ i : Nat, 1 < i → consumers i = none := by
  have h : ReachedAlone start := .refl
  have h : ReachedAlone _ := h.tail
    (@Step.reconcile _ _ _ _ {uuid 100, uuid 200} (some loneMembership) [] trivial
      fun streamID => ⟨fun hmem => absurd hmem List.not_mem_nil,
        fun hmem => absurd hmem Finmap.notMem_empty⟩)
  have h : ReachedAlone _ := h.tail (.wait rfl)
  have h : ReachedAlone _ := h.tail (@Step.waited _ _ _ _ _ [uuid 100, uuid 200] rfl rfl
    fun streamID => by rw [responsible_lone]; simp)
  have h : ReachedAlone _ := h.tail
    (@Step.startStreamConsumer _ _ _ _ _ _ _ 0 rfl Finmap.notMem_empty rfl)
  have h : ReachedAlone _ := h.tail (.set rfl)
  have h : ReachedAlone _ := h.tail (@Step.startStreamConsumer _ _ _ _ _ _ _ 1 rfl
    (fun hmem => absurd ((mem_oneStop _).mp hmem) (by decide)) rfl)
  have h : ReachedAlone _ := h.tail (.set rfl)
  have h : ReachedAlone _ := h.tail (.returns rfl)
  have h : ReachedAlone _ := h.tail
    (@Step.consumer _ _ _ _ 0 _ _ rfl (@StreamConsumer.Step.fnReturn _ _ (.failed false) rfl))
  refine ⟨_, _, h, rfl, rfl, ?_⟩
  intro i hi
  have h0 : i ≠ 0 := by omega
  have h1 : i ≠ 1 := by omega
  exact (Function.update_of_ne h0 ..).trans
    ((Function.update_of_ne h1 ..).trans (Function.update_of_ne h0 ..))

/-- The second stream leaves. -/
theorem leftStream_reached : ∃ call consumers,
    ReachedAlone (reconciled (bothStops.erase (uuid 200)) consumers call) ∧
      consumers 0 = some failedOnce ∧ consumers 1 = some leftStream ∧
      ∀ i : Nat, 1 < i → consumers i = none := by
  obtain ⟨before, consumers, h, hfirst, hsecond, hothers⟩ := failedOnce_reached
  have hlookup : bothStops.lookup (uuid 200) = some 1 := Finmap.lookup_insert _
  have hkept : uuid 100 ∈ bothStops.erase (uuid 200) :=
    Finmap.mem_erase.mpr ⟨by decide, (mem_bothStops _).mpr (by decide)⟩
  have h : ReachedAlone _ := h.tail
    (@Step.reconcile _ _ _ _ {uuid 100} (some loneMembership) [uuid 100, uuid 200] trivial
      fun streamID => (mem_bothStops streamID).symm)
  have h : ReachedAlone _ := h.tail
    (.keep rfl (by rw [responsible_lone]; exact Finset.mem_singleton_self _))
  have h : ReachedAlone _ := h.tail
    (.go rfl (by rw [responsible_lone]; exact Finset.notMem_singleton.mpr (by decide)) hlookup)
  have h : ReachedAlone _ := h.tail (.wait rfl)
  -- Its stream consumer is canceled, and its attempt fails.
  have h : ReachedAlone _ := h.tail (@Step.cancel _ _ _ _ 1 _ [] [] rfl hsecond)
  have h : ReachedAlone _ := h.tail
    (@Step.consumer _ _ _ _ 1 _ _ rfl (@StreamConsumer.Step.fnReturn _ _ (.failed false) rfl))
  have h : ReachedAlone _ := h.tail (@Step.consumer _ _ _ _ 1 _ _ rfl (.stop rfl))
  have h : ReachedAlone _ := h.tail (@Step.stopped _ _ _ _ 1 _ _ [] [] rfl rfl rfl)
  have h : ReachedAlone _ := h.tail (@Step.waited _ _ _ _ _ [uuid 100] rfl rfl
    fun streamID => by rw [responsible_lone]; simp)
  have h : ReachedAlone _ := h.tail (.skip rfl hkept)
  have h : ReachedAlone _ := h.tail (.returns rfl)
  refine ⟨_, _, h, hfirst, rfl, ?_⟩
  intro i hi
  have h1 : i ≠ 1 := by omega
  exact (Function.update_of_ne h1 ..).trans ((Function.update_of_ne h1 ..).trans
    ((Function.update_of_ne h1 ..).trans (hothers i hi)))

/-- It returns. -/
theorem returned_reached : ∃ call consumers stops,
    ReachedAlone (reconciled stops consumers call) ∧ call.streamIDs = {uuid 100, uuid 200} ∧
      call.membership = some loneMembership ∧ call.before 0 = some failedOnce ∧
      consumers 0 = some failedOnce ∧ consumers 1 = some leftStream ∧
      consumers 2 = some (freshConsumer (uuid 200)) ∧ ∀ i : Nat, 2 < i → consumers i = none := by
  obtain ⟨before, consumers, h, hfirst, hsecond, hothers⟩ := leftStream_reached
  have hmem : ∀ streamID, streamID ∈ bothStops.erase (uuid 200) ↔ streamID ∈ [uuid 100] := by
    intro streamID
    rw [Finmap.mem_erase, mem_bothStops]
    simp only [List.mem_cons, List.not_mem_nil, or_false]
    constructor
    · rintro ⟨hne, heq | heq⟩
      · exact heq
      · exact absurd heq hne
    · rintro rfl
      exact ⟨by decide, Or.inl rfl⟩
  have h : ReachedAlone _ := h.tail
    (@Step.reconcile _ _ _ _ {uuid 100, uuid 200} (some loneMembership) [uuid 100] trivial
      fun streamID => (hmem streamID).symm)
  have h : ReachedAlone _ := h.tail
    (.keep rfl (by rw [responsible_lone]; exact Finset.mem_insert_self ..))
  have h : ReachedAlone _ := h.tail (.wait rfl)
  have h : ReachedAlone _ := h.tail (@Step.waited _ _ _ _ _ [uuid 100, uuid 200] rfl rfl
    fun streamID => by rw [responsible_lone]; simp)
  have h : ReachedAlone _ := h.tail (.skip rfl ((hmem _).mpr List.mem_cons_self))
  have h : ReachedAlone _ := h.tail (@Step.startStreamConsumer _ _ _ _ _ _ _ 2 rfl
    (fun hmem' => absurd ((hmem _).mp hmem') (by decide)) (hothers 2 (by decide)))
  have h : ReachedAlone _ := h.tail (.set rfl)
  have h : ReachedAlone _ := h.tail (.returns rfl)
  refine ⟨_, _, _, h, rfl, rfl, hfirst, hfirst, hsecond, rfl, ?_⟩
  intro i hi
  have h2 : i ≠ 2 := by omega
  exact (Function.update_of_ne h2 ..).trans (hothers i (by omega))

/-- The first stream is still consumed by the stream consumer whose attempt has failed, and
the second one by another one than before it left. -/
theorem reconcile_runs_responsible_failedOnce : ∃ st : Reconciler,
    ReachedAlone st ∧ st.Live ∧
      (∀ streamID, st.Consumed streamID ↔ streamID = uuid 100 ∨ streamID = uuid 200) ∧
      (∃ k, st.consumers 0 = some k ∧ k.streamID = uuid 100 ∧ k.Supervised) ∧
      st.consumers 1 = some leftStream ∧
      ∀ i k, st.consumers i = some k → k.streamID = uuid 200 → k.Running → i = 2 := by
  obtain ⟨call, consumers, stops, h, hstreams, hmembership, hbefore, hfirst, hsecond, hthird,
    hothers⟩ := returned_reached
  have hmain := reconcile_runs_responsible h
  have hresponsible : ∀ streamID, Membership.localNodeIsResponsibleFor (fun _ => 0)
      (fun _ _ => false) call.membership (id streamID) = true := by
    intro streamID
    rw [hmembership]
    rfl
  have hcases : ∀ i : Nat, i = 0 ∨ i = 1 ∨ i = 2 ∨ 2 < i := by omega
  have hlive : (reconciled stops consumers call).Live := by
    refine ⟨rfl, ?_⟩
    intro i k hconsumer
    change consumers i = some k at hconsumer
    obtain rfl | rfl | rfl | hi := hcases i
    · cases hfirst.symm.trans hconsumer
      rintro (hfailed | hfailed) <;> cases hfailed
    · cases hsecond.symm.trans hconsumer
      rintro (hfailed | hfailed) <;> cases hfailed
    · cases hthird.symm.trans hconsumer
      rintro (hfailed | hfailed) <;> cases hfailed
    · cases (hothers i hi).symm.trans hconsumer
  refine ⟨_, h, hlive, ?_, ?_, hsecond, ?_⟩
  · intro streamID
    rw [hmain.consumed call rfl hlive streamID, hstreams, Finset.mem_insert,
      Finset.mem_singleton]
    exact and_iff_left (hresponsible streamID)
  · have hgiven : failedOnce.streamID ∈ call.streamIDs := by
      rw [hstreams]
      exact Finset.mem_insert_self ..
    have hrunning : failedOnce.Running := by
      intro err hstopped
      cases hstopped
    exact hmain.kept call 0 failedOnce rfl hlive hbefore hrunning hgiven (hresponsible _)
  · intro i k hconsumer hstream hrunning
    have hfresh : (freshConsumer (uuid 200)).Running := by
      intro err hstopped
      cases hstopped
    exact hmain.single i 2 k _ hconsumer hthird hrunning hfresh hstream

end Reconciler

end Runkit.EventStream
