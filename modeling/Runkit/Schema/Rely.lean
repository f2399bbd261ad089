/-
  Schema/Rely.lean --- what a transaction can rely on with respect to rows that
  it reads without locking them.

  Two statements of the engine read rows that they do not lock and depend on
  what they read.  Replaying an aggregate instance queries the events of a
  stream while only the instance is locked, and ending a process instance
  deletes its deadlines while only the instance is locked.  Both are sound
  because every transaction that adds or removes such rows holds the lock on
  the instance.
-/
import Runkit.Schema.Tables

set_option autoImplicit false

namespace Runkit.Schema

open Runkit.Foundation

/-- How a stream may change while another transaction holds `locks`: events are
appended that were not recorded by an aggregate instance that is locked. -/
def StreamMayBecome (locks : Key → Bool) (old new : Stream) : Prop :=
  ∃ added, new.events = old.events ++ added ∧ ∀ row ∈ added, ∀ handlerKey instanceID,
    row.aggregate = some (handlerKey, instanceID) →
      locks (.aggregateInstance handlerKey instanceID) = false

/-- Whether the row is a deadline of the given instance. -/
def belongsTo (handlerKey : UUID) (instanceID : String) : Option DeadlineRow → Bool
  | none => false
  | some row => decide (row.handlerKey = handlerKey ∧ row.instanceID = instanceID)

/-- How a deadline may change while another transaction holds `locks`: it does
not appear among, or disappear from, the deadlines of a process instance that
is locked. -/
def DeadlineMayBecome (locks : Key → Bool) (old new : Option DeadlineRow) : Prop :=
  ∀ handlerKey instanceID, locks (.processInstance handlerKey instanceID) = true →
    belongsTo handlerKey instanceID new = belongsTo handlerKey instanceID old

theorem StreamMayBecome.refl (locks : Key → Bool) (stream : Stream) :
    StreamMayBecome locks stream stream :=
  ⟨[], by simp, by simp⟩

theorem StreamMayBecome.trans {locks : Key → Bool} {a b c : Stream}
    (hab : StreamMayBecome locks a b) (hbc : StreamMayBecome locks b c) :
    StreamMayBecome locks a c := by
  obtain ⟨first, hb, hfirst⟩ := hab
  obtain ⟨second, hc, hsecond⟩ := hbc
  refine ⟨first ++ second, by rw [hc, hb, List.append_assoc], ?_⟩
  intro row hrow
  obtain hrow | hrow := List.mem_append.mp hrow
  · exact hfirst row hrow
  · exact hsecond row hrow

/-- `Rely` of the engine's transactions. -/
def databaseRely : Rely Key Row where
  allows locks
    | .stream _ => StreamMayBecome locks
    | .deadline _ => DeadlineMayBecome locks
    | _ => fun _ _ => True
  refl := by
    intro locks k row
    cases k with
    | stream id => exact StreamMayBecome.refl locks row
    | deadline id => exact fun _ _ _ => rfl
    | _ => exact True.intro
  trans := by
    intro locks k a b c hab hbc
    cases k with
    | stream id => exact StreamMayBecome.trans hab hbc
    | deadline id =>
        exact fun handlerKey instanceID hlock =>
          (hbc handlerKey instanceID hlock).trans (hab handlerKey instanceID hlock)
    | _ => exact True.intro
  anti := by
    intro locks locks' k a b hmore hab
    cases k with
    | stream id =>
        obtain ⟨added, hevents, hadded⟩ := hab
        refine ⟨added, hevents, ?_⟩
        intro row hrow handlerKey instanceID haggregate
        have hfree := hadded row hrow handlerKey instanceID haggregate
        by_contra hlock
        simp [hmore _ (by simpa using hlock)] at hfree
    | deadline id =>
        exact fun handlerKey instanceID hlock =>
          hab handlerKey instanceID (hmore _ hlock)
    | _ => exact True.intro

/-- While an aggregate instance is locked, the events that it recorded on a
stream do not change. -/
theorem StreamMayBecome.filter_eq {locks : Key → Bool} {old new : Stream}
    (h : StreamMayBecome locks old new) {handlerKey : UUID} {instanceID : String}
    (hlock : locks (.aggregateInstance handlerKey instanceID) = true) (p : EventRow → Bool) :
    (new.events.filter fun row =>
        decide (row.aggregate = some (handlerKey, instanceID)) && p row) =
      old.events.filter fun row =>
        decide (row.aggregate = some (handlerKey, instanceID)) && p row := by
  obtain ⟨added, hevents, hadded⟩ := h
  rw [hevents, List.filter_append]
  have hnone : (added.filter fun row =>
      decide (row.aggregate = some (handlerKey, instanceID)) && p row) = [] := by
    rw [List.filter_eq_nil_iff]
    intro row hrow hmatch
    simp only [Bool.and_eq_true, decide_eq_true_eq] at hmatch
    have hfree := hadded row hrow handlerKey instanceID hmatch.1
    simp [hlock] at hfree
  rw [hnone, List.append_nil]

end Runkit.Schema
