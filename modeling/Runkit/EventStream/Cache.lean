/-
  EventStream/Cache.lean --- the cache of a stream's most recent events.

  Source: internal/eventstream/internal/cache/cache.go, segment.go.
-/
import Runkit.EventStream.Segment
import Runkit.Foundation.Search

set_option autoImplicit false

namespace Runkit.EventStream

open Runkit.Foundation

variable {α : Type}

/-- `cosyne.Observable`, a value that can be observed.  The package is not part of the
program.  What is relied on is that `Store` and `Load` are atomic, that `Load` returns the
value that was stored last together with a channel, and that the channel is closed by the
next `Store` and not before.  Each store makes a new version; the channel that was
returned with a version is closed once the version is another one. -/
structure Observable (α : Type) where
  value : α
  version : Nat

/-- `Observable.Store`. -/
def Observable.store (o : Observable α) (value : α) : Observable α :=
  { value := value, version := o.version + 1 }

@[simp] theorem Observable.store_value (o : Observable α) (value : α) :
    (o.store value).value = value := rfl

/-- `cache.Segment`. -/
structure CacheSegment where
  begin : Nat
  end_ : Nat
  events : List Envelope
  deriving DecidableEq, Repr

/-- `cache.Relation`: where a checkpoint lies in relation to a segment. -/
inductive Relation where
  | before
  | within
  | after
  deriving DecidableEq, Repr

/-- `Segment.Read`. -/
def CacheSegment.read (s : CacheSegment) (cp : Nat) (types : TypeFilter) :
    List Envelope × Relation :=
  if cp < s.begin then
    ([], .before)
  else if s.end_ ≤ cp then
    ([], .after)
  else
    let first := searchBy (fun env => decide (cp ≤ env.offset)) s.events
    ((s.events.drop first).filter (admits types), .within)

/-- Where a checkpoint lies in relation to a segment. -/
theorem CacheSegment.read_relation (s : CacheSegment) (cp : Nat) (types : TypeFilter) :
    ((s.read cp types).2 = .before ↔ cp < s.begin) ∧
      ((s.read cp types).2 = .within ↔ s.begin ≤ cp ∧ cp < s.end_) ∧
      ((s.read cp types).2 = .after ↔ s.begin ≤ cp ∧ s.end_ ≤ cp) := by
  unfold CacheSegment.read
  split
  · simp only [reduceCtorEq, true_iff, false_iff]
    omega
  · split
    · simp only [reduceCtorEq, true_iff, false_iff]
      omega
    · simp only [reduceCtorEq, true_iff, false_iff]
      omega

/-- The events of a segment in offset order from a checkpoint within it. -/
theorem CacheSegment.read_within {s : CacheSegment} {cp : Nat} {types : TypeFilter}
    (hsorted : s.events.Pairwise fun a b => a.offset < b.offset)
    (hread : (s.read cp types).2 = .within) :
    (s.read cp types).1 =
      (s.events.filter fun env => decide (cp ≤ env.offset)).filter (admits types) := by
  obtain ⟨hbegin, hend⟩ := (s.read_relation cp types).2.1.mp hread
  have hlater : s.events.Pairwise fun a b =>
      decide (cp ≤ a.offset) = true → decide (cp ≤ b.offset) = true := by
    refine hsorted.imp ?_
    intro a b hlt hcp
    simp only [decide_eq_true_eq] at hcp ⊢
    omega
  unfold CacheSegment.read
  rw [if_neg (by omega), if_neg (by omega), ← drop_searchBy hlater]

/-- `cache.Cache`. -/
structure Cache where
  capacity : Nat
  segment : Observable CacheSegment

namespace Cache

/-- `Cache.Reset`. -/
def reset (c : Cache) (begin : Nat) : Cache :=
  { c with segment := c.segment.store { begin := begin, end_ := begin, events := [] } }

/-- `cache.New`.  It panics if the capacity is not positive. -/
def new (capacity begin : Nat) : Option Cache :=
  if capacity = 0 then
    none
  else
    let c : Cache :=
      { capacity := capacity
        segment := { value := { begin := 0, end_ := 0, events := [] }, version := 0 } }
    some (c.reset begin)

theorem new_segment {capacity begin : Nat} {c : Cache} (h : new capacity begin = some c) :
    c.segment.value = { begin := begin, end_ := begin, events := [] } := by
  unfold new at h
  split at h
  · cases h
  · cases h
    rfl

theorem new_capacity {capacity begin : Nat} {c : Cache} (h : new capacity begin = some c) :
    c.capacity = capacity := by
  unfold new at h
  split at h
  · cases h
  · cases h
    rfl

/-- The segment that `Cache.Append` stores, or `none` if it panics. -/
def appended (capacity : Nat) (prev : CacheSegment) (begin end_ : Nat)
    (envelopes : List Envelope) : Option CacheSegment :=
  if begin ≠ prev.end_ then
    none
  else if envelopes.length = 0 then
    some { begin := prev.begin, end_ := end_, events := prev.events }
  else if 0 < envelopes.length - capacity then
    let evict := envelopes.length - capacity
    match envelopes[evict - 1]? with
    | none => none
    | some last =>
        some { begin := last.offset + 1, end_ := end_, events := envelopes.drop evict }
  else if 0 < prev.events.length + envelopes.length - capacity then
    let evict := prev.events.length + envelopes.length - capacity
    match prev.events[evict - 1]? with
    | none => none
    | some last =>
        some
          { begin := last.offset + 1
            end_ := end_
            events := prev.events.drop evict ++ envelopes }
  else
    some { begin := prev.begin, end_ := end_, events := prev.events ++ envelopes }

/-- `Cache.Append`, or `none` if it panics. -/
def append (c : Cache) (begin end_ : Nat) (envelopes : List Envelope) : Option Cache :=
  (appended c.capacity c.segment.value begin end_ envelopes).map fun next =>
    { c with segment := c.segment.store next }

end Cache

/-! ## What a cache holds -/

/-- The segment holds exactly the events of the stream in its range that the filter
admits. -/
def CacheSegment.Of (log : EventLog) (types : TypeFilter) (s : CacheSegment) : Prop :=
  Covers log types s.begin s.end_ s.events

section Holds

variable {log : EventLog} {types : TypeFilter} {s : CacheSegment}

/-- Reading a segment from a checkpoint within it finds all events from there. -/
theorem CacheSegment.Of.read {types' : TypeFilter} {cp : Nat} {envelopes : List Envelope}
    (h : s.Of log types)
    (htypes : ∀ env, admits types' env = true → admits types env = true)
    (hread : s.read cp types' = (envelopes, .within)) :
    Covers log types' cp s.end_ envelopes := by
  have hwithin : (s.read cp types').2 = .within := by rw [hread]
  have henvelopes : (s.read cp types').1 = envelopes := by rw [hread]
  obtain ⟨hbegin, hend⟩ := (s.read_relation cp types').2.1.mp hwithin
  rw [← henvelopes, CacheSegment.read_within h.sorted hwithin]
  exact h.filter htypes hbegin (by omega)

theorem CacheSegment.Of.reset {begin : Nat} (h : begin ≤ log.next) :
    CacheSegment.Of log types { begin := begin, end_ := begin, events := [] } :=
  .empty h

/-- Appending the range that follows a segment, evicting its oldest events if
there are too many, gives a segment of the stream again. -/
theorem CacheSegment.Of.appended {capacity begin end_ : Nat} {envelopes : List Envelope}
    {next : CacheSegment} (h : s.Of log types)
    (hrange : Covers log types begin end_ envelopes)
    (happend : Cache.appended capacity s begin end_ envelopes = some next) :
    next.Of log types := by
  unfold Cache.appended at happend
  split at happend
  · cases happend
  rename_i hbegin
  rw [ne_eq, not_not] at hbegin
  subst hbegin
  -- The two ranges together, from which all evictions are made.
  have hboth : Covers log types s.begin end_ (s.events ++ envelopes) := h.append hrange
  split at happend
  · rename_i hempty
    cases happend
    rw [List.length_eq_zero_iff.mp hempty, List.append_nil] at hboth
    exact hboth
  split at happend
  · rename_i hevict
    dsimp only at happend
    split at happend
    · cases happend
    · rename_i last hlast
      cases happend
      have hdrop := hrange.drop hlast
      rwa [Nat.sub_add_cancel hevict] at hdrop
  split at happend
  · rename_i hfits hevict
    dsimp only at happend
    split at happend
    · cases happend
    · rename_i last hlast
      cases happend
      have hdrop := h.drop hlast
      rw [Nat.sub_add_cancel hevict] at hdrop
      exact hdrop.append hrange
  · cases happend
    exact hboth

end Holds

end Runkit.EventStream
