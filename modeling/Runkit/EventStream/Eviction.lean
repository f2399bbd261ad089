/-
  EventStream/Eviction.lean --- what a cache holds after any sequence of operations.

  A cache is known by two things: the offset at which it was last reset, and the events
  that have been appended to it since.  The events that it holds are the last ones of
  those, as many as there is room for; the others have been evicted.

      since the last reset:   e₁ … eₖ | eₖ₊₁ … eₙ
                              evicted   held

  `Holds` says where the line is.  Each operation moves it no further than it has to
  (`Holds.append`).
-/
import Runkit.EventStream.Cache

set_option autoImplicit false

namespace Runkit.EventStream

open Runkit.Foundation

/-! ## Operations -/

/-- An operation of the writer of a cache. -/
inductive CacheOp where
  | reset (begin : Nat)
  | append (begin end_ : Nat) (envelopes : List Envelope)
  deriving DecidableEq, Repr

/-- The cache after an operation, or `none` if it panics. -/
def Cache.apply (c : Cache) : CacheOp → Option Cache
  | .reset begin => some (c.reset begin)
  | .append begin end_ envelopes => c.append begin end_ envelopes

/-- The cache after some operations, or `none` if one of them panics. -/
def Cache.run : Cache → List CacheOp → Option Cache
  | c, [] => some c
  | c, op :: ops => (c.apply op).bind fun c' => c'.run ops

/-- Each range that is appended begins where the cache ends, which is at `at_` before
the first operation. -/
def ContiguousOps : Nat → List CacheOp → Prop
  | _, [] => True
  | _, .reset begin :: ops => ContiguousOps begin ops
  | at_, .append begin end_ envelopes :: ops =>
      begin = at_ ∧ InRange begin end_ envelopes ∧ ContiguousOps end_ ops

/-- The offset of the last reset, and the events that have been appended since. -/
def sinceReset : Nat × List Envelope → List CacheOp → Nat × List Envelope
  | since, [] => since
  | _, .reset begin :: ops => sinceReset (begin, []) ops
  | (reset, events), .append _ _ envelopes :: ops => sinceReset (reset, events ++ envelopes) ops

/-! ## What is held, and what has been evicted -/

theorem endAfter_concat (begin : Nat) (events : List Envelope) (env : Envelope) :
    endAfter begin (events ++ [env]) = env.offset + 1 := by
  simp [endAfter]

/-- The end after all events up to one of them. -/
theorem endAfter_take (begin : Nat) (more : List Envelope) {n : Nat} {events : List Envelope}
    {env : Envelope} (h : events[n]? = some env) :
    endAfter begin (more ++ events.take (n + 1)) = env.offset + 1 := by
  rw [List.take_add_one, h, Option.toList_some, ← List.append_assoc, endAfter_concat]

/-- In offset order, the end comes after every event. -/
theorem offset_lt_endAfter {begin : Nat} {events : List Envelope} {env : Envelope}
    (hsorted : events.Pairwise fun a b => a.offset < b.offset) (henv : env ∈ events) :
    env.offset < endAfter begin events := by
  rcases List.eq_nil_or_concat events with hnil | ⟨before, last, hlast⟩
  · subst hnil
    cases henv
  · subst hlast
    rw [List.concat_eq_append] at hsorted henv ⊢
    rw [endAfter_concat]
    rcases List.mem_append.mp henv with hbefore | hlast
    · have := (List.pairwise_append.mp hsorted).2.2 env hbefore last (by simp)
      omega
    · rw [List.mem_singleton.mp hlast]
      omega

/-- The segment holds the last of the events that have been appended since the reset at
`reset`, and no event has been evicted that there was room for. -/
structure Holds (capacity reset : Nat) (appended : List Envelope) (s : CacheSegment) :
    Prop where
  range : InRange reset s.end_ appended
  bounded : s.events.length ≤ capacity
  split : ∃ evicted, appended = evicted ++ s.events ∧ s.begin = endAfter reset evicted ∧
    (evicted ≠ [] → s.events.length = capacity)

namespace Holds

variable {capacity reset : Nat} {appended : List Envelope} {s : CacheSegment}

theorem start (capacity begin : Nat) :
    Holds capacity begin [] { begin := begin, end_ := begin, events := [] } where
  range := ⟨Nat.le_refl _, .nil, by simp⟩
  bounded := Nat.zero_le _
  split := ⟨[], rfl, rfl, fun h => absurd rfl h⟩

/-- `Cache.Append` of the range that follows does not panic, and evicts no more than it
has to. -/
theorem append {end_ : Nat} {envelopes : List Envelope} (h : Holds capacity reset appended s)
    (hrange : InRange s.end_ end_ envelopes) :
    ∃ next, Cache.appended capacity s s.end_ end_ envelopes = some next ∧
      next.end_ = end_ ∧ Holds capacity reset (appended ++ envelopes) next := by
  have hboth := h.range.append hrange
  have hbounded := h.bounded
  obtain ⟨evicted, happended, hbegin, hfull⟩ := h.split
  unfold Cache.appended
  rw [if_neg (not_not_intro rfl)]
  by_cases hempty : envelopes.length = 0
  · rw [if_pos hempty]
    rw [List.length_eq_zero_iff.mp hempty, List.append_nil] at hboth ⊢
    exact ⟨_, rfl, rfl, hboth, hbounded, evicted, happended, hbegin, hfull⟩
  rw [if_neg hempty]
  by_cases hover : 0 < envelopes.length - capacity
  · -- Everything that was held goes, and the first of the new events.
    rw [if_pos hover]
    obtain ⟨last, hlast⟩ : ∃ last, envelopes[envelopes.length - capacity - 1]? = some last :=
      ⟨_, List.getElem?_eq_getElem (by omega)⟩
    simp only [hlast]
    refine ⟨_, rfl, rfl, hboth, ?_, appended ++ envelopes.take (envelopes.length - capacity),
      ?_, ?_, ?_⟩
    · rw [List.length_drop]
      omega
    · rw [List.append_assoc, List.take_append_drop]
    · have hend := endAfter_take reset appended hlast
      rw [Nat.sub_add_cancel hover] at hend
      exact hend.symm
    · intro _
      rw [List.length_drop]
      omega
  rw [if_neg hover]
  by_cases hevict : 0 < s.events.length + envelopes.length - capacity
  · -- The first of the events that were held go.
    rw [if_pos hevict]
    obtain ⟨last, hlast⟩ :
        ∃ last, s.events[s.events.length + envelopes.length - capacity - 1]? = some last :=
      ⟨_, List.getElem?_eq_getElem (by omega)⟩
    simp only [hlast]
    refine ⟨_, rfl, rfl, hboth, ?_,
      evicted ++ s.events.take (s.events.length + envelopes.length - capacity), ?_, ?_, ?_⟩
    · rw [List.length_append, List.length_drop]
      omega
    · rw [happended, List.append_assoc, List.append_assoc, ← List.append_assoc (List.take _ _),
        List.take_append_drop]
    · have hend := endAfter_take reset evicted hlast
      rw [Nat.sub_add_cancel hevict] at hend
      exact hend.symm
    · intro _
      rw [List.length_append, List.length_drop]
      omega
  · -- There is room for all of them, so that nothing has been evicted before either.
    rw [if_neg hevict]
    refine ⟨_, rfl, rfl, hboth, ?_, evicted, ?_, hbegin, ?_⟩
    · rw [List.length_append]
      omega
    · rw [happended, List.append_assoc]
    · intro hne
      have := hfull hne
      rw [List.length_append]
      omega

theorem sorted_events (h : Holds capacity reset appended s) :
    s.events.Pairwise fun a b => a.offset < b.offset := by
  obtain ⟨evicted, happended, -⟩ := h.split
  have hsorted := h.range.sorted
  rw [happended] at hsorted
  exact (List.pairwise_append.mp hsorted).2.1

/-- Only the events that are still held have an offset in the segment. -/
theorem events_eq (h : Holds capacity reset appended s) :
    s.events = appended.filter fun env => decide (s.begin ≤ env.offset) := by
  obtain ⟨evicted, happended, hbegin, -⟩ := h.split
  have hsorted := h.range.sorted
  have hwithin := h.range.within
  rw [happended] at hsorted hwithin
  have hcross := (List.pairwise_append.mp hsorted).2.2
  have hevicted : ∀ env ∈ evicted, env.offset < s.begin := by
    intro env henv
    rw [hbegin]
    exact offset_lt_endAfter (List.pairwise_append.mp hsorted).1 henv
  have hheld : ∀ env ∈ s.events, s.begin ≤ env.offset := by
    intro env henv
    rw [hbegin]
    rcases List.eq_nil_or_concat evicted with hnil | ⟨before, last, hlast⟩
    · subst hnil
      exact (hwithin env (List.mem_append_right _ henv)).1
    · subst hlast
      rw [List.concat_eq_append, endAfter_concat]
      exact hcross last (by simp) env henv
  rw [happended, List.filter_append]
  have hnone : (evicted.filter fun env => decide (s.begin ≤ env.offset)) = [] := by
    refine List.filter_eq_nil_iff.mpr ?_
    intro env henv
    have := hevicted env henv
    simpa using this
  have hall : (s.events.filter fun env => decide (s.begin ≤ env.offset)) = s.events := by
    refine List.filter_eq_self.mpr ?_
    intro env henv
    have := hheld env henv
    simpa using this
  rw [hnone, hall, List.nil_append]

end Holds

/-! ## Any sequence of operations -/

/-- Contiguous operations do not panic, and the cache then holds the last of the events
that have been appended since the last reset. -/
theorem Cache.run_holds (c : Cache) (since : Nat × List Envelope) {ops : List CacheOp}
    (h : Holds c.capacity since.1 since.2 c.segment.value)
    (hops : ContiguousOps c.segment.value.end_ ops) :
    ∃ c', c.run ops = some c' ∧
      Holds c.capacity (sinceReset since ops).1 (sinceReset since ops).2 c'.segment.value := by
  induction ops generalizing c since with
  | nil => exact ⟨c, rfl, h⟩
  | cons op ops ih =>
      cases op with
      | reset begin => exact ih (c.reset begin) (begin, []) (.start _ _) hops
      | append begin end_ envelopes =>
          obtain ⟨hbegin, hrange, hrest⟩ := hops
          subst hbegin
          obtain ⟨next, hnext, hend, hholds⟩ := h.append hrange
          have happend : c.append c.segment.value.end_ end_ envelopes =
              some { c with segment := c.segment.store next } := by
            unfold Cache.append
            rw [hnext]
            rfl
          simp only [Cache.run, Cache.apply, happend, Option.bind_some]
          exact ih { c with segment := c.segment.store next }
            (since.1, since.2 ++ envelopes) hholds (hend ▸ hrest)

/-- What readers find in the segment of a cache, given the events that have been
appended to it since it was reset at `reset`. -/
structure CacheSegment.Recent (capacity reset : Nat) (appended : List Envelope)
    (s : CacheSegment) : Prop where
  bounded : s.events.length ≤ capacity
  sorted : s.events.Pairwise fun a b => a.offset < b.offset
  within : ∀ env ∈ s.events, s.begin ≤ env.offset ∧ env.offset < s.end_
  exact_ : s.events = appended.filter fun env => decide (s.begin ≤ env.offset)
  evicted : ∃ evicted, appended = evicted ++ s.events ∧
    evicted.length = appended.length - capacity ∧
    (evicted = [] → s.begin = reset) ∧
    ∀ last, evicted.getLast? = some last → s.begin = last.offset + 1
  relation : ∀ (cp : Nat) (types : Finset UUID),
    ((s.read cp (some types)).2 = .before ↔ cp < s.begin) ∧
      ((s.read cp (some types)).2 = .within ↔ s.begin ≤ cp ∧ cp < s.end_) ∧
      ((s.read cp (some types)).2 = .after ↔ s.end_ ≤ cp)
  read : ∀ (cp : Nat) (types : Finset UUID), (s.read cp (some types)).2 = .within →
    (s.read cp (some types)).1 =
      appended.filter fun env => decide (cp ≤ env.offset) && decide (env.typeID ∈ types)

/-- What has been evicted ends within the range that has been appended. -/
theorem Holds.begin_le {capacity reset : Nat} {appended : List Envelope} {s : CacheSegment}
    (h : Holds capacity reset appended s) : s.begin ≤ s.end_ := by
  obtain ⟨evicted, happended, hbegin, -⟩ := h.split
  rcases List.eq_nil_or_concat evicted with hnil | ⟨before, last, hlast⟩
  · rw [hbegin, hnil]
    exact h.range.ordered
  · rw [List.concat_eq_append] at hlast
    have hmem : last ∈ appended := by simp [happended, hlast]
    obtain ⟨-, hbelow⟩ := h.range.within last hmem
    rw [hbegin, hlast, endAfter_concat]
    omega

theorem Holds.recent {capacity reset : Nat} {appended : List Envelope} {s : CacheSegment}
    (h : Holds capacity reset appended s) : s.Recent capacity reset appended where
  bounded := h.bounded
  sorted := h.sorted_events
  within := by
    intro env henv
    rw [h.events_eq, List.mem_filter, decide_eq_true_eq] at henv
    exact ⟨henv.2, (h.range.within env henv.1).2⟩
  exact_ := h.events_eq
  evicted := by
    obtain ⟨evicted, happended, hbegin, hfull⟩ := h.split
    have hbounded := h.bounded
    refine ⟨evicted, happended, ?_, ?_, ?_⟩
    · rw [happended, List.length_append]
      rcases List.eq_nil_or_concat evicted with hnil | ⟨before, last, hlast⟩
      · rw [hnil, List.length_nil]
        omega
      · have := hfull (by simp [hlast])
        omega
    · intro hnil
      rw [hbegin, hnil]
      rfl
    · intro last hlast
      obtain ⟨before, hbefore⟩ := List.getLast?_eq_some_iff.mp hlast
      rw [hbegin, hbefore, endAfter_concat]
  relation := by
    intro cp types
    obtain ⟨hbefore, hwithin, hafter⟩ := s.read_relation cp (some types)
    have hordered := h.begin_le
    refine ⟨hbefore, hwithin, hafter.trans ?_⟩
    omega
  read := by
    intro cp types hwithin
    have hbegin := ((s.read_relation cp (some types)).2.1.mp hwithin).1
    rw [CacheSegment.read_within h.sorted_events hwithin, h.events_eq, List.filter_filter,
      List.filter_filter]
    refine List.filter_congr ?_
    intro env _
    -- An event from the checkpoint on is one that is still held.
    by_cases hcp : cp ≤ env.offset
    · have : s.begin ≤ env.offset := by omega
      simp [hcp, this, admits, TypeFilter.has]
    · simp [hcp]

/-- In every sequence of resets and contiguous appends, a cache holds the most recent
events that have been appended since its last reset. -/
theorem cache_holds_most_recent {capacity begin : Nat} {ops : List CacheOp}
    (hcapacity : 0 < capacity) (hops : ContiguousOps begin ops) :
    ∃ c c', Cache.new capacity begin = some c ∧ c.run ops = some c' ∧
      c'.segment.value.Recent capacity (sinceReset (begin, []) ops).1
        (sinceReset (begin, []) ops).2 := by
  obtain ⟨c, hc⟩ : ∃ c, Cache.new capacity begin = some c := by
    unfold Cache.new
    rw [if_neg (by omega)]
    exact ⟨_, rfl⟩
  have hsegment := Cache.new_segment hc
  have hheld : Holds c.capacity begin [] c.segment.value := by
    rw [hsegment]
    exact .start _ _
  obtain ⟨c', hrun, hholds⟩ := c.run_holds (begin, []) hheld (by rw [hsegment]; exact hops)
  rw [Cache.new_capacity hc] at hholds
  exact ⟨c, c', hc, hrun, hholds.recent⟩

/-- A cache of two events, to which three are appended at once, is reset and appended to
again. -/
theorem cache_holds_most_recent_of_three :
    ∃ c c', Cache.new 2 0 = some c ∧
      c.run [.append 0 5 [eventEnvelope 1 7 0, eventEnvelope 2 7 1, eventEnvelope 3 8 3],
        .reset 9, .append 9 12 [eventEnvelope 4 7 10]] = some c' ∧
      c'.segment.value.Recent 2 9 [eventEnvelope 4 7 10] :=
  cache_holds_most_recent (by omega)
    ⟨rfl, ⟨by omega, by decide, by decide⟩, rfl, ⟨by omega, by decide, by decide⟩, trivial⟩

end Runkit.EventStream
