/-
  EventStream/FanOut.lean --- every call of `Local.Watch` is delivered each stream
  without a gap.

  `Local.offsets` says where a stream has been delivered up to.  The invariant ties
  it to each watcher: the last segment of the stream that the watcher was given ends
  there (`Current`), except for the watchers that the loop under way has not got to.
  A watcher that misses a segment is removed in the same iteration, so it is given
  nothing afterwards, and what is in its buffer is still received in order
  (`Progress`).
-/
import Runkit.EventStream.Local

set_option autoImplicit false

namespace Runkit.EventStream

open Runkit.Foundation
open Runkit.Signal

variable {S W : Type}

/-! ## Filtered segments -/

/-- There is nothing to filter from a segment without events. -/
theorem filterSegment_of_empty {seg : Segment} (h : seg.envelopes = []) (types : TypeFilter) :
    filterSegment seg types = seg := by
  cases types with
  | none => rfl
  | some ids =>
      cases seg
      cases h
      rfl

theorem segmentsOf_filterSegment (id : UUID) (types : TypeFilter) (segs : List Segment) :
    segmentsOf id (segs.map (filterSegment · types)) =
      (segmentsOf id segs).map (filterSegment · types) := by
  rw [segmentsOf, List.filter_map, segmentsOf]
  congr 1
  refine List.filter_congr ?_
  intro seg _
  simp

/-! ## One watcher -/

/-- The opening segments that have not been passed to `fn`, unless the call is over. -/
def WatcherPhase.openings : WatcherPhase → Option (List Segment)
  | .ready openings => some openings
  | .calling openings => some openings
  | _ => none

/-- How the call returns, once it is over. -/
def WatcherPhase.result : WatcherPhase → Option WatchResult
  | .returning result => some result
  | .returned result => some result
  | _ => none

/-- `taken` are those of the segments that the watcher was given that have been passed
to `fn`. -/
structure Watcher.Progress (k : Watcher) (taken : List Segment) : Prop where
  passed : k.passed = taken.map (filterSegment · k.types)
  within : taken <+: k.given
  pending : ∀ openings, k.phase.openings = some openings →
    k.given = taken ++ openings ++ k.segments.buffer ∧ ∀ seg ∈ openings, seg.envelopes = []
  ended : ∀ err, k.phase.result = some (.ended err) →
    taken = k.given ∧ err = k.err ∧ k.segments.closed = true

/-- What holds of every watcher. -/
structure Watcher.Valid (logs : UUID → EventLog) (k : Watcher) : Prop where
  progress : ∃ taken, k.Progress taken
  contiguous : ∀ id, ∃ start,
    Contiguous Segment.begin Segment.end_ start (segmentsOf id k.given)
  complete : ∀ seg ∈ k.given, seg.Of (logs seg.streamID) none
  closed : k.segments.closed = true → k.registered = false ∧ k.err.isSome = true

namespace Watcher

variable {logs logs' : UUID → EventLog} {k : Watcher} {seg : Segment} {taken : List Segment}

theorem Valid.grow (h : k.Valid logs) (hgrow : ∀ id, (logs id).Extends (logs' id)) :
    k.Valid logs' where
  progress := h.progress
  contiguous := h.contiguous
  complete := fun seg hseg => (h.complete seg hseg).grow (hgrow _)
  closed := h.closed

theorem Valid.opened (h : k.Valid logs) (hregistered : k.registered = true) :
    k.segments.closed = false := by
  cases hclosed : k.segments.closed with
  | false => rfl
  | true =>
      rw [(h.closed hclosed).1] at hregistered
      cases hregistered

/-- A segment that follows the last one of its stream is sent. -/
theorem Valid.send (h : k.Valid logs) {ch : Channel Segment}
    (hsent : k.segments.trySend seg = .sent ch) (hof : seg.Of (logs seg.streamID) none)
    (hnext : ∀ last, lastEnd seg.streamID k.given = some last → seg.begin = last) :
    ({ k with segments := ch, given := k.given ++ [seg] } : Watcher).Valid logs := by
  obtain ⟨hopen, hopen', hbuffer⟩ := Channel.trySend_sent hsent
  obtain ⟨taken, hprogress⟩ := h.progress
  refine ⟨⟨taken, ⟨hprogress.passed, ?_, ?_, ?_⟩⟩, ?_, ?_, ?_⟩
  · exact hprogress.within.trans (List.prefix_append _ _)
  · intro openings hphase
    obtain ⟨hgiven, hempty⟩ := hprogress.pending openings hphase
    refine ⟨?_, hempty⟩
    dsimp only
    rw [hgiven, hbuffer, ← List.append_assoc]
  · -- The call has not been told to end, because its channel is open.
    intro err hresult
    have hclosed := (hprogress.ended err hresult).2.2
    rw [hopen] at hclosed
    cases hclosed
  · intro id
    dsimp only
    by_cases heq : seg.streamID = id
    · subst heq
      rw [segmentsOf_concat_self rfl]
      exact exists_contiguous_concat (h.contiguous _) hnext hof.ordered
    · rw [segmentsOf_concat_of_ne heq]
      exact h.contiguous id
  · intro seg' hseg'
    rcases List.mem_append.mp hseg' with hold | hnew
    · exact h.complete seg' hold
    · rw [List.mem_singleton.mp hnew]
      exact hof
  · intro hclosed
    rw [hopen'] at hclosed
    cases hclosed

theorem Valid.remove (h : k.Valid logs) (hopen : k.segments.closed = false) (err : WatchError) :
    (k.remove err).Valid logs := by
  obtain ⟨taken, hprogress⟩ := h.progress
  refine ⟨⟨taken, ⟨hprogress.passed, hprogress.within, hprogress.pending, ?_⟩⟩, h.contiguous,
    h.complete, fun _ => ⟨rfl, rfl⟩⟩
  intro err' hresult
  have hclosed := (hprogress.ended err' hresult).2.2
  rw [hopen] at hclosed
  cases hclosed

/-- The call itself goes on, which has no effect on what it is given. -/
theorem Valid.move {k' : Watcher} (h : k.Valid logs) (hprogress : ∃ taken, k'.Progress taken)
    (hgiven : k'.given = k.given) (hclosed : k'.segments.closed = k.segments.closed)
    (hregistered : k'.registered = true → k.registered = true) (herr : k'.err = k.err) :
    k'.Valid logs where
  progress := hprogress
  contiguous := by rw [hgiven]; exact h.contiguous
  complete := by rw [hgiven]; exact h.complete
  closed := by
    intro hclosed'
    rw [hclosed] at hclosed'
    obtain ⟨hunregistered, hsome⟩ := h.closed hclosed'
    refine ⟨?_, by rw [herr]; exact hsome⟩
    cases hk : k'.registered with
    | false => rfl
    | true =>
        rw [hregistered hk] at hunregistered
        cases hunregistered

/-- The next of the segments that the watcher was given is passed to `fn`. -/
theorem Progress.pass (ch : Channel Segment) {openings openings' : List Segment}
    (h : k.Progress taken) (hphase : k.phase.openings = some openings)
    (hpending : openings ++ k.segments.buffer = seg :: (openings' ++ ch.buffer))
    (hempty : ∀ seg ∈ openings', seg.envelopes = []) :
    ({ k with
        segments := ch
        passed := k.passed ++ [filterSegment seg k.types]
        phase := .calling openings' } : Watcher).Progress (taken ++ [seg]) := by
  have hgiven : k.given = taken ++ [seg] ++ openings' ++ ch.buffer := by
    rw [(h.pending openings hphase).1, List.append_assoc, hpending]
    simp
  refine ⟨?_, ?_, ?_, nofun⟩
  · rw [List.map_append, ← h.passed]
    rfl
  · dsimp only
    rw [hgiven, List.append_assoc]
    exact List.prefix_append _ _
  · rintro _ ⟨⟩
    exact ⟨hgiven, hempty⟩

end Watcher

/-! ## The offsets that watchers have been given -/

/-- The last segment of each stream that the watcher was given ends at the stream's
offset, unless the loop under way has yet to get to the watcher. -/
structure Watcher.Current (offsets : UUID → Option Nat) (lock : Option (Loop W)) (w : W)
    (k : Watcher) : Prop where
  offset : ∀ id, (∀ task rest, lock = some ⟨task, rest⟩ → w ∈ rest → id ≠ task.streamID) →
    lastEnd id k.given = offsets id
  next : ∀ seg rest, lock = some ⟨.deliver seg, rest⟩ → w ∈ rest →
    ∀ last, lastEnd seg.streamID k.given = some last → seg.begin = last

namespace Watcher.Current

variable {offsets : UUID → Option Nat} {lock : Option (Loop W)} {task : Task} {rest : List W}
  {w w' : W} {k : Watcher} {seg : Segment}

/-- The loop goes on from another watcher. -/
theorem advance (h : k.Current offsets (some ⟨task, w' :: rest⟩) w) (hne : w ≠ w') :
    k.Current offsets (some ⟨task, rest⟩) w where
  offset := by
    intro id hid
    refine h.offset id ?_
    rintro _ _ ⟨⟩ hmem
    exact hid task rest rfl ((List.mem_cons.mp hmem).resolve_left hne)
  next := by
    rintro seg _ ⟨⟩ hmem
    exact h.next seg _ rfl (List.mem_cons_of_mem _ hmem)

/-- The loop is over. -/
theorem unlock (h : k.Current offsets (some ⟨task, []⟩) w) :
    k.Current offsets (none : Option (Loop W)) w where
  offset := by
    intro id _
    refine h.offset id ?_
    rintro _ _ ⟨⟩ hmem
    cases hmem
  next := by rintro seg rest ⟨⟩

/-- A segment is about to be sent that begins at the stream's offset, if there is one. -/
theorem deliver (h : k.Current offsets (none : Option (Loop W)) w) (hmem : w ∈ rest)
    (hbegin : ∀ offset, offsets seg.streamID = some offset → seg.begin = offset) :
    k.Current (Function.update offsets seg.streamID (some seg.end_))
      (some ⟨.deliver seg, rest⟩) w where
  offset := by
    intro id hid
    have hne : id ≠ seg.streamID := hid _ rest rfl hmem
    rw [Function.update_of_ne hne]
    exact h.offset id nofun
  next := by
    rintro seg' _ ⟨⟩ _ last hlast
    rw [h.offset _ nofun] at hlast
    exact hbegin last hlast

/-- The stream's offset has been deleted. -/
theorem fail {id : UUID} {cause : SourceError} (h : k.Current offsets (none : Option (Loop W)) w)
    (hmem : w ∈ rest) :
    k.Current (Function.update offsets id none) (some ⟨.fail id cause, rest⟩) w where
  offset := by
    intro id' hid'
    have hne : id' ≠ id := hid' _ rest rfl hmem
    rw [Function.update_of_ne hne]
    exact h.offset id' nofun
  next := by rintro seg rest ⟨⟩

/-- The segment has been sent to the watcher. -/
theorem send (h : k.Current offsets (some ⟨.deliver seg, w :: rest⟩) w) (hmem : w ∉ rest)
    (hoffset : offsets seg.streamID = some seg.end_) {ch : Channel Segment} :
    ({ k with segments := ch, given := k.given ++ [seg] } : Watcher).Current offsets
      (some ⟨.deliver seg, rest⟩) w where
  offset := by
    intro id _
    by_cases heq : seg.streamID = id
    · subst heq
      rw [lastEnd_concat_self rfl, hoffset]
    · rw [lastEnd_concat_of_ne heq]
      refine h.offset id ?_
      rintro _ _ ⟨⟩ _ rfl
      exact heq rfl
  next := by
    rintro seg' _ ⟨⟩ hmem'
    exact absurd hmem' hmem

/-- It is about what the watcher was given. -/
theorem congr {k' : Watcher} (h : k.Current offsets lock w) (hgiven : k'.given = k.given) :
    k'.Current offsets lock w where
  offset := by rw [hgiven]; exact h.offset
  next := by rw [hgiven]; exact h.next

end Watcher.Current

/-! ## The source -/

/-- What holds of the loop under way. -/
structure Loop.Valid (logs : UUID → EventLog) (l : Local W) (loop : Loop W) : Prop where
  nodup : loop.rest.Nodup
  members : ∀ w ∈ loop.rest, l.Registered w
  delivers : ∀ seg, loop.task = .deliver seg →
    seg.Of (logs seg.streamID) none ∧ l.offsets seg.streamID = some seg.end_
  fails : ∀ id cause, loop.task = .fail id cause → l.offsets id = none

/-- What holds of the source. -/
structure Local.Valid (logs : UUID → EventLog) (l : Local W) : Prop where
  offsets : ∀ id offset, l.offsets id = some offset → offset ≤ (logs id).next
  lock : ∀ loop, l.lock = some loop → loop.Valid logs l
  watchers : ∀ w k, l.watchers w = some k →
    k.Valid logs ∧ (k.registered = true → k.Current l.offsets l.lock w)

/-- A watcher that has just been registered has been given the opening segments of the
streams at their offsets. -/
theorem Local.Openings.lastEnd_eq {l : Local W} {openings : List Segment}
    (h : l.Openings openings) (id : UUID) : lastEnd id openings = l.offsets id := by
  have hopening : ∀ seg ∈ segmentsOf id openings, l.offsets id = some seg.end_ := by
    intro seg hseg
    obtain ⟨hmem, hid⟩ := mem_segmentsOf.mp hseg
    obtain ⟨id', offset, hoffset, rfl⟩ := (h.mem_iff seg).mp hmem
    cases hid
    exact hoffset
  cases hlast : (segmentsOf id openings).getLast? with
  | none =>
      rw [lastEnd, hlast]
      cases hoffset : l.offsets id with
      | none => rfl
      | some offset =>
          have hmem : openingSegment id offset ∈ segmentsOf id openings :=
            mem_segmentsOf.mpr ⟨(h.mem_iff _).mpr ⟨id, offset, hoffset, rfl⟩, rfl⟩
          rw [List.getLast?_eq_none_iff.mp hlast] at hmem
          cases hmem
  | some seg =>
      rw [lastEnd, hlast, hopening seg (List.mem_of_getLast? hlast)]
      rfl

/-- Empty segments at one offset follow each other. -/
theorem contiguous_of_empty {offset : Nat} {segs : List Segment}
    (h : ∀ seg ∈ segs, seg.begin = offset ∧ seg.end_ = offset) :
    Contiguous Segment.begin Segment.end_ offset segs := by
  induction segs with
  | nil => trivial
  | cons seg rest ih =>
      obtain ⟨hbegin, hend⟩ := h seg List.mem_cons_self
      refine ⟨hbegin, by omega, ?_⟩
      rw [hend]
      exact ih fun seg' hseg' => h seg' (List.mem_cons_of_mem _ hseg')

/-- A watcher that has just been registered. -/
theorem Watcher.Valid.start {logs : UUID → EventLog} {l : Local W} (hl : l.Valid logs)
    {types : TypeFilter} {openings : List Segment} (h : l.Openings openings)
    {capacity : Nat} {positive : 0 < capacity} :
    (start types (.make capacity [] positive) openings).Valid logs := by
  have hopening : ∀ seg ∈ openings, ∃ offset, l.offsets seg.streamID = some offset ∧
      seg = openingSegment seg.streamID offset := by
    intro seg hseg
    obtain ⟨id, offset, hoffset, rfl⟩ := (h.mem_iff seg).mp hseg
    exact ⟨offset, hoffset, rfl⟩
  refine ⟨⟨[], ⟨rfl, List.nil_prefix, ?_, nofun⟩⟩, ?_, ?_, nofun⟩
  · rintro _ ⟨⟩
    refine ⟨(List.append_nil openings).symm, ?_⟩
    intro seg hseg
    obtain ⟨offset, -, hseg'⟩ := hopening seg hseg
    rw [hseg']
    rfl
  · intro id
    refine ⟨(l.offsets id).getD 0, contiguous_of_empty ?_⟩
    intro seg hseg
    obtain ⟨hmem, rfl⟩ := mem_segmentsOf.mp hseg
    obtain ⟨offset, hoffset, hseg'⟩ := hopening seg hmem
    rw [hoffset, hseg']
    exact ⟨rfl, rfl⟩
  · intro seg hseg
    obtain ⟨offset, hoffset, hseg'⟩ := hopening seg hseg
    rw [hseg']
    exact .empty (hl.offsets _ offset hoffset)

namespace Local

variable {logs logs' : UUID → EventLog} {l l' : Local W}

theorem Valid.start (logs : UUID → EventLog) {segmentSize bufferSize : Nat}
    {segmentSize_pos : 0 < segmentSize} {bufferSize_pos : 0 < bufferSize} :
    (start segmentSize bufferSize segmentSize_pos bufferSize_pos : Local W).Valid logs where
  offsets := by rintro id offset ⟨⟩
  lock := by rintro loop ⟨⟩
  watchers := by rintro w k ⟨⟩

theorem Valid.grow (h : l.Valid logs) (hgrow : ∀ id, (logs id).Extends (logs' id)) :
    l.Valid logs' where
  offsets := fun id offset hoffset => Nat.le_trans (h.offsets id offset hoffset) (hgrow id).1
  lock := by
    intro loop hloop
    obtain ⟨hnodup, hmembers, hdelivers, hfails⟩ := h.lock loop hloop
    refine ⟨hnodup, hmembers, ?_, hfails⟩
    intro seg hseg
    obtain ⟨hof, hoffset⟩ := hdelivers seg hseg
    exact ⟨hof.grow (hgrow _), hoffset⟩
  watchers := fun w k hk => ⟨(h.watchers w k hk).1.grow hgrow, (h.watchers w k hk).2⟩

/-- A loop is over. -/
theorem Valid.unlock (h : l.Valid logs) {task : Task} (hlock : l.lock = some ⟨task, []⟩) :
    l.unlock.Valid logs where
  offsets := h.offsets
  lock := by rintro loop ⟨⟩
  watchers := by
    intro w k hk
    refine ⟨(h.watchers w k hk).1, ?_⟩
    intro hregistered
    have hcurrent := (h.watchers w k hk).2 hregistered
    rw [hlock] at hcurrent
    exact hcurrent.unlock

/-- A segment is about to be sent. -/
theorem Valid.deliver (h : l.Valid logs) {seg : Segment} {rest : List W} (hlock : l.lock = none)
    (hrest : Enumerates l.Registered rest) (hof : seg.Of (logs seg.streamID) none)
    (hbegin : ∀ offset, l.offsets seg.streamID = some offset → seg.begin = offset) :
    (l.deliver seg rest).Valid logs where
  offsets := by
    intro id offset hoffset
    obtain ⟨rfl, hnew⟩ | ⟨-, hold⟩ := update_eq_some hoffset
    · cases hnew
      exact hof.within
    · exact h.offsets id offset hold
  lock := by
    rintro loop ⟨⟩
    refine ⟨hrest.nodup, fun w hw => (hrest.mem_iff w).mp hw, ?_, nofun⟩
    rintro seg' ⟨⟩
    exact ⟨hof, Function.update_self ..⟩
  watchers := by
    intro w k hk
    refine ⟨(h.watchers w k hk).1, ?_⟩
    intro hregistered
    have hcurrent := (h.watchers w k hk).2 hregistered
    rw [hlock] at hcurrent
    exact hcurrent.deliver ((hrest.mem_iff w).mpr ⟨k, hk, hregistered⟩) hbegin

/-- All watchers are about to be removed. -/
theorem Valid.fail (h : l.Valid logs) {id : UUID} {cause : SourceError} {rest : List W}
    (hlock : l.lock = none) (hrest : Enumerates l.Registered rest) :
    (l.fail id cause rest).Valid logs where
  offsets := by
    intro id' offset hoffset
    obtain ⟨-, hnew⟩ | ⟨-, hold⟩ := update_eq_some hoffset
    · cases hnew
    · exact h.offsets id' offset hold
  lock := by
    rintro loop ⟨⟩
    refine ⟨hrest.nodup, fun w hw => (hrest.mem_iff w).mp hw, nofun, ?_⟩
    rintro id' cause' ⟨⟩
    exact Function.update_self ..
  watchers := by
    intro w k hk
    refine ⟨(h.watchers w k hk).1, ?_⟩
    intro hregistered
    have hcurrent := (h.watchers w k hk).2 hregistered
    rw [hlock] at hcurrent
    exact hcurrent.fail ((hrest.mem_iff w).mpr ⟨k, hk, hregistered⟩)

section

variable [DecidableEq W] {w : W} {k k' : Watcher}

/-- The loop under way goes on from the watcher `w`. -/
theorem Valid.advance (h : l.Valid logs) {task : Task} {rest : List W}
    (hlock : l.lock = some ⟨task, w :: rest⟩) (hvalid : k'.Valid logs)
    (hcurrent : k'.registered = true → k'.Current l.offsets (some ⟨task, rest⟩) w) :
    ({ l.setWatcher w k' with lock := some ⟨task, rest⟩ } : Local W).Valid logs := by
  obtain ⟨hnodup, hmembers, hdelivers, hfails⟩ := h.lock _ hlock
  obtain ⟨hnotMem, hnodup⟩ := List.nodup_cons.mp hnodup
  refine ⟨h.offsets, ?_, ?_⟩
  · rintro loop ⟨⟩
    refine ⟨hnodup, ?_, hdelivers, hfails⟩
    intro w' hw'
    have hne : w' ≠ w := by
      rintro rfl
      exact hnotMem hw'
    obtain ⟨other, hother, hregistered⟩ := hmembers w' (List.mem_cons_of_mem _ hw')
    exact ⟨other, (Function.update_of_ne hne ..).trans hother, hregistered⟩
  · intro w' other hother
    obtain ⟨rfl, hnew⟩ | ⟨hne, hold⟩ := update_eq_some hother
    · cases hnew
      exact ⟨hvalid, hcurrent⟩
    · refine ⟨(h.watchers w' other hold).1, ?_⟩
      intro hregistered
      have hcurrent' := (h.watchers w' other hold).2 hregistered
      rw [hlock] at hcurrent'
      exact hcurrent'.advance hne

/-- A call goes on by itself. -/
theorem Valid.call (h : l.Valid logs) (hwatcher : l.watchers w = some k)
    (hprogress : ∃ taken, k'.Progress taken) (hgiven : k'.given = k.given)
    (hclosed : k'.segments.closed = k.segments.closed) (herr : k'.err = k.err)
    (hregistered : k'.registered = k.registered ∨ l.lock = none ∧ k'.registered = false) :
    (l.setWatcher w k').Valid logs := by
  have himp : k'.registered = true → k.registered = true := by
    intro hk'
    rcases hregistered with heq | ⟨-, hfalse⟩
    · rwa [heq] at hk'
    · rw [hfalse] at hk'
      cases hk'
  obtain ⟨hvalid, hcurrent⟩ := h.watchers w k hwatcher
  refine ⟨h.offsets, ?_, ?_⟩
  · intro loop hloop
    obtain ⟨hnodup, hmembers, hdelivers, hfails⟩ := h.lock loop hloop
    refine ⟨hnodup, ?_, hdelivers, hfails⟩
    intro w' hw'
    obtain ⟨other, hother, hk⟩ := hmembers w' hw'
    by_cases heq : w' = w
    · subst heq
      rw [hwatcher] at hother
      cases hother
      refine ⟨k', Function.update_self .., ?_⟩
      rcases hregistered with heq | ⟨hlock, -⟩
      · rw [heq, hk]
      · have hloop' : l.lock = some loop := hloop
        rw [hlock] at hloop'
        cases hloop'
    · exact ⟨other, (Function.update_of_ne heq ..).trans hother, hk⟩
  · intro w' other hother
    obtain ⟨rfl, hnew⟩ | ⟨-, hold⟩ := update_eq_some hother
    · cases hnew
      exact ⟨hvalid.move hprogress hgiven hclosed himp herr,
        fun hk' => (hcurrent (himp hk')).congr hgiven⟩
    · exact h.watchers w' other hold

theorem Step.valid (h : l.Valid logs) (hstep : Step l l') : l'.Valid logs := by
  cases hstep with
  | @send seg w rest k ch hlock hwatcher hsent =>
      have hloop := h.lock _ hlock
      obtain ⟨k', hk', hregistered⟩ := hloop.members w List.mem_cons_self
      rw [hwatcher] at hk'
      cases hk'
      obtain ⟨hvalid, hcurrent⟩ := h.watchers w k hwatcher
      have hcurrent := hcurrent hregistered
      rw [hlock] at hcurrent
      obtain ⟨hof, hoffset⟩ := hloop.delivers seg rfl
      refine h.advance hlock (hvalid.send hsent hof ?_) ?_
      · exact hcurrent.next seg _ rfl List.mem_cons_self
      · exact fun _ => hcurrent.send (List.nodup_cons.mp hloop.nodup).1 hoffset
  | overflow hlock hwatcher hfull =>
      have hopen := (Channel.trySend_full hfull).1
      exact h.advance hlock ((h.watchers _ _ hwatcher).1.remove hopen _) nofun
  | @remove streamID cause w rest k hlock hwatcher =>
      obtain ⟨k', hk', hregistered⟩ := (h.lock _ hlock).members w List.mem_cons_self
      rw [hwatcher] at hk'
      cases hk'
      have hvalid := (h.watchers w k hwatcher).1
      exact h.advance hlock (hvalid.remove (hvalid.opened hregistered) _) nofun
  | @register w types openings hnew htypes hlock hopenings =>
      refine ⟨h.offsets, ?_, ?_⟩
      · intro loop hloop
        have hloop' : l.lock = some loop := hloop
        rw [hlock] at hloop'
        cases hloop'
      · intro w' other hother
        obtain ⟨-, hother'⟩ | ⟨-, hold⟩ := update_eq_some hother
        · cases hother'
          refine ⟨.start h hopenings, fun _ => ⟨fun id _ => hopenings.lastEnd_eq id, ?_⟩⟩
          intro seg rest hloop
          have hloop' : l.lock = some ⟨.deliver seg, rest⟩ := hloop
          rw [hlock] at hloop'
          cases hloop'
        · exact h.watchers w' other hold
  | @pass w k seg openings hwatcher hphase =>
      obtain ⟨taken, hprogress⟩ := (h.watchers w k hwatcher).1.progress
      have hopenings : k.phase.openings = some (seg :: openings) := by rw [hphase]; rfl
      obtain ⟨-, hempty⟩ := hprogress.pending _ hopenings
      have hpass := hprogress.pass k.segments hopenings rfl
        fun seg' hseg' => hempty seg' (List.mem_cons_of_mem _ hseg')
      rw [filterSegment_of_empty (hempty seg List.mem_cons_self)] at hpass
      exact h.call hwatcher ⟨_, hpass⟩ rfl rfl rfl (Or.inl rfl)
  | @receive w k seg ch hwatcher hphase hreceive =>
      obtain ⟨taken, hprogress⟩ := (h.watchers w k hwatcher).1.progress
      obtain ⟨hbuffer, hclosed⟩ := Channel.receive_value hreceive
      have hopenings : k.phase.openings = some [] := by rw [hphase]; rfl
      exact h.call hwatcher ⟨_, hprogress.pass ch hopenings hbuffer nofun⟩ rfl hclosed rfl
        (Or.inl rfl)
  | @accept w k openings hwatcher hphase =>
      obtain ⟨taken, hprogress⟩ := (h.watchers w k hwatcher).1.progress
      have hpending := hprogress.pending openings (by rw [hphase]; rfl)
      refine h.call hwatcher ⟨taken, hprogress.passed, hprogress.within, ?_, nofun⟩ rfl rfl rfl
        (Or.inl rfl)
      rintro _ ⟨⟩
      exact hpending
  | @reject w k openings hwatcher hphase =>
      obtain ⟨taken, hprogress⟩ := (h.watchers w k hwatcher).1.progress
      exact h.call hwatcher ⟨taken, hprogress.passed, hprogress.within, nofun, nofun⟩ rfl rfl rfl
        (Or.inl rfl)
  | @channelClosed w k hwatcher hphase hreceive =>
      obtain ⟨taken, hprogress⟩ := (h.watchers w k hwatcher).1.progress
      obtain ⟨hbuffer, hclosed⟩ := Channel.receive_closed hreceive
      -- Nothing is left in the channel, so everything has been passed to `fn`.
      have hall : taken = k.given := by
        rw [(hprogress.pending [] (by rw [hphase]; rfl)).1, hbuffer]
        simp
      refine h.call hwatcher ⟨taken, hprogress.passed, hprogress.within, nofun, ?_⟩ rfl rfl rfl
        (Or.inl rfl)
      rintro err ⟨⟩
      exact ⟨hall, rfl, hclosed⟩
  | @cancel w k hwatcher hphase =>
      obtain ⟨taken, hprogress⟩ := (h.watchers w k hwatcher).1.progress
      exact h.call hwatcher ⟨taken, hprogress.passed, hprogress.within, nofun, nofun⟩ rfl rfl rfl
        (Or.inl rfl)
  | @unregister w k result hwatcher hphase hlock =>
      obtain ⟨taken, hprogress⟩ := (h.watchers w k hwatcher).1.progress
      refine h.call hwatcher ⟨taken, hprogress.passed, hprogress.within, nofun, ?_⟩ rfl rfl rfl
        (Or.inr ⟨hlock, rfl⟩)
      rintro err ⟨⟩
      exact hprogress.ended err (by rw [hphase]; rfl)

/-- Only followers change the offsets. -/
theorem Step.offsets_eq (hstep : Step l l') : l'.offsets = l.offsets := by
  cases hstep <;> rfl

/-! ## Calls that have been told to end -/

/-- A watcher whose channel has been closed is given nothing more. -/
theorem Step.closed (h : l.Valid logs) (hstep : Step l l') (hk : l.watchers w = some k)
    (hclosed : k.segments.closed = true) :
    ∃ k', l'.watchers w = some k' ∧ k'.given = k.given ∧ k'.err = k.err ∧
      k'.segments.closed = true := by
  -- The step may be one of another watcher.
  have hset : ∀ {w' : W} {k' : Watcher}, (w = w' → k'.given = k.given ∧ k'.err = k.err ∧
      k'.segments.closed = true) →
      ∃ k'', Function.update l.watchers w' (some k') w = some k'' ∧ k''.given = k.given ∧
        k''.err = k.err ∧ k''.segments.closed = true := by
    intro w' k' hsame
    by_cases heq : w = w'
    · subst heq
      exact ⟨k', Function.update_self .., hsame rfl⟩
    · exact ⟨k, (Function.update_of_ne heq ..).trans hk, rfl, rfl, hclosed⟩
  cases hstep with
  | send _ hwatcher hsent =>
      refine hset ?_
      rintro rfl
      rw [hk] at hwatcher
      cases hwatcher
      rw [(Channel.trySend_sent hsent).1] at hclosed
      cases hclosed
  | overflow _ hwatcher hfull =>
      refine hset ?_
      rintro rfl
      rw [hk] at hwatcher
      cases hwatcher
      rw [(Channel.trySend_full hfull).1] at hclosed
      cases hclosed
  | @remove streamID cause w' rest k' hlock hwatcher =>
      refine hset ?_
      rintro rfl
      obtain ⟨k'', hk'', hregistered⟩ := (h.lock _ hlock).members w List.mem_cons_self
      rw [hk] at hk''
      cases hk''
      rw [(h.watchers w k hk).1.opened hregistered] at hclosed
      cases hclosed
  | register hnew _ _ _ =>
      refine hset ?_
      rintro rfl
      rw [hk] at hnew
      cases hnew
  | receive hwatcher _ hreceive =>
      refine hset ?_
      rintro rfl
      rw [hk] at hwatcher
      cases hwatcher
      exact ⟨rfl, rfl, (Channel.receive_value hreceive).2.trans hclosed⟩
  | pass hwatcher _ | accept hwatcher _ | reject hwatcher _ | channelClosed hwatcher _ _
  | cancel hwatcher _ | unregister hwatcher _ _ =>
      refine hset ?_
      rintro rfl
      rw [hk] at hwatcher
      cases hwatcher
      exact ⟨rfl, rfl, hclosed⟩

/-- A call goes on by itself from one state to another. -/
structure Runs (w : W) (l l' : Local W) (k k' : Watcher) : Prop where
  steps : Relation.ReflTransGen Step l l'
  watcher : l'.watchers w = some k'
  given : k'.given = k.given
  types : k'.types = k.types

theorem Runs.trans {l'' : Local W} {k'' : Watcher} (h : Runs w l l' k k')
    (h' : Runs w l' l'' k' k'') : Runs w l l'' k k'' :=
  ⟨h.steps.trans h'.steps, h'.watcher, h'.given.trans h.given, h'.types.trans h.types⟩

/-- A call whose channel has been closed can receive what is left in it, and then return
the error. -/
theorem drain_buffer (buffer : List Segment) (hk : l.watchers w = some k)
    (hclosed : k.segments.closed = true) (hphase : k.phase = .ready [])
    (hbuffer : k.segments.buffer = buffer) :
    ∃ l' k', Runs w l l' k k' ∧ k'.phase = .returning (.ended k.err) := by
  induction buffer generalizing l k with
  | nil =>
      have hreceive := Channel.receive_of_nil hbuffer hclosed
      exact ⟨_, _, ⟨.single (.channelClosed hk hphase hreceive), Function.update_self .., rfl,
        rfl⟩, rfl⟩
  | cons seg rest ih =>
      have hreceive := Channel.receive_of_cons hbuffer
      obtain ⟨l₁, k₁, hruns, hclosed₁, hphase₁, hbuffer₁, herr₁⟩ :
          ∃ l₁ k₁, Runs w l l₁ k k₁ ∧ k₁.segments.closed = true ∧ k₁.phase = .ready [] ∧
            k₁.segments.buffer = rest ∧ k₁.err = k.err :=
        ⟨_, _, ⟨.tail (.single (.receive hk hphase hreceive))
          (.accept (Function.update_self ..) rfl), Function.update_self .., rfl, rfl⟩, hclosed, rfl,
          rfl, rfl⟩
      obtain ⟨l', k', hruns', hphase'⟩ := ih hruns.watcher hclosed₁ hphase₁ hbuffer₁
      exact ⟨l', k', hruns.trans hruns', by rw [hphase', herr₁]⟩

/-- As `drain_buffer`, for a call that has not been through its opening segments. -/
theorem drain (openings : List Segment) (hk : l.watchers w = some k)
    (hclosed : k.segments.closed = true) (hphase : k.phase = .ready openings) :
    ∃ l' k', Runs w l l' k k' ∧ k'.phase = .returning (.ended k.err) := by
  induction openings generalizing l k with
  | nil => exact drain_buffer _ hk hclosed hphase rfl
  | cons seg rest ih =>
      obtain ⟨l₁, k₁, hruns, hclosed₁, hphase₁, herr₁⟩ :
          ∃ l₁ k₁, Runs w l l₁ k k₁ ∧ k₁.segments.closed = true ∧ k₁.phase = .ready rest ∧
            k₁.err = k.err :=
        ⟨_, _, ⟨.tail (.single (.pass hk hphase)) (.accept (Function.update_self ..) rfl),
          Function.update_self .., rfl, rfl⟩, hclosed, rfl, rfl⟩
      obtain ⟨l', k', hruns', hphase'⟩ := ih hruns.watcher hclosed₁ hphase₁
      exact ⟨l', k', hruns.trans hruns', by rw [hphase', herr₁]⟩

end

end Local

/-! ## Followers -/

namespace Follower

/-- What holds of the follower of a stream whose offset is `offset`. -/
def Follows (log : EventLog) (offset : Option Nat) (id : UUID) (f : Follower S) : Prop :=
  match f.phase with
  | .idle => offset = none
  | .subscribing _ => offset = none ∧ f.opened = false
  | .receiving _ => offset = if f.opened then some f.next else none
  | .opening _ => offset = none
  | .announcing _ => offset = none ∧ f.opened = true ∧ f.next ≤ log.next
  | .loading _ => offset = some f.next ∧ f.opened = true
  | .loaded _ seg _ =>
      offset = some f.next ∧ f.opened = true ∧ seg.streamID = id ∧ seg.begin = f.next ∧
        seg.Of log none
  | .delivering _ seg _ => f.opened = true ∧ seg.streamID = id
  | _ => True

variable {log log' : EventLog} {offset : Option Nat} {id : UUID} {f f' : Follower S}

theorem Follows.grow (h : f.Follows log offset id) (hgrow : log.Extends log') :
    f.Follows log' offset id := by
  rw [Follows] at h ⊢
  split at h
  case h_5 => exact ⟨h.1, h.2.1, Nat.le_trans h.2.2 hgrow.1⟩
  case h_7 =>
      obtain ⟨hoffset, hopened, hid, hbegin, hof⟩ := h
      exact ⟨hoffset, hopened, hid, hbegin, hof.grow hgrow⟩
  all_goals exact h

variable [DecidableEq S] {b b' : Bus S} {l l' : Local W} {stream : Option EventLog}
  {logs : UUID → EventLog}

/-- A segment that a follower delivers begins where the one before it ended. -/
theorem Step.follows (hl : l.Valid logs) (h : f.Follows (logs id) (l.offsets id) id)
    (hstream : ∀ log, stream = some log → logs id = log)
    (hstep : Step stream id b l f b' l' f') :
    l'.Valid logs ∧ f'.Follows (logs id) (l'.offsets id) id ∧
      (∀ id', id' ≠ id → l'.offsets id' = l.offsets id') ∧ l'.watchers = l.watchers := by
  cases hstep with
  | subscribe hphase _ _ =>
      rw [Follows, hphase] at h
      exact ⟨hl, ⟨h, rfl⟩, fun _ _ => rfl, rfl⟩
  | register hphase _ =>
      rw [Follows, hphase] at h
      refine ⟨hl, ?_, fun _ _ => rfl, rfl⟩
      show _ = if f.opened then _ else _
      rw [h.1, h.2]
      rfl
  | receive hphase _ =>
      rw [Follows, hphase] at h
      refine ⟨hl, ?_, fun _ _ => rfl, rfl⟩
      cases hopened : f.opened with
      | false =>
          rw [hopened] at h
          exact h
      | true =>
          rw [hopened] at h
          exact ⟨h, rfl⟩
  | channelClosed _ _ _ => exact ⟨hl, trivial, fun _ _ => rfl, rfl⟩
  | loadOffset hphase hlog =>
      rw [Follows, hphase] at h
      refine ⟨hl, ⟨h, rfl, ?_⟩, fun _ _ => rfl, rfl⟩
      rw [hstream _ hlog]
  | announce hphase hlock hrest =>
      rw [Follows, hphase] at h
      obtain ⟨hoffset, hopened, hnext⟩ := h
      refine ⟨hl.deliver hlock hrest (.empty hnext) ?_, ⟨hopened, rfl⟩, ?_, rfl⟩
      · intro offset hsome
        have hsome' : l.offsets id = some offset := hsome
        rw [hoffset] at hsome'
        cases hsome'
      · intro id' hne
        exact Function.update_of_ne hne ..
  | load hphase hload =>
      rw [Follows, hphase] at h
      obtain ⟨log, hlog, hid, hbegin, hof, -⟩ := loadSegment_ok hload
      rw [← hstream log hlog] at hof
      exact ⟨hl, ⟨h.1, h.2, hid, hbegin, hof⟩, fun _ _ => rfl, rfl⟩
  | @deliver _ _ i seg exhausted rest hphase _ hlock hrest =>
      rw [Follows, hphase] at h
      obtain ⟨hoffset, hopened, hid, hbegin, hof⟩ := h
      subst hid
      refine ⟨hl.deliver hlock hrest hof ?_, ⟨hopened, rfl⟩, ?_, rfl⟩
      · intro offset hsome
        rw [hoffset] at hsome
        cases hsome
        exact hbegin
      · intro id' hne
        exact Function.update_of_ne hne ..
  | @skip _ _ i seg exhausted hphase _ =>
      rw [Follows, hphase] at h
      obtain ⟨hoffset, hopened, -⟩ := h
      refine ⟨hl, ?_, fun _ _ => rfl, rfl⟩
      cases exhausted with
      | false => exact ⟨hoffset, hopened⟩
      | true =>
          show _ = if f.opened then _ else _
          rw [hoffset, hopened]
          rfl
  | @delivered _ _ i seg exhausted hphase hlock =>
      rw [Follows, hphase] at h
      obtain ⟨hopened, hid⟩ := h
      subst hid
      have hoffset : l.offsets seg.streamID = some seg.end_ :=
        ((hl.lock _ hlock).delivers seg rfl).2
      refine ⟨hl.unlock hlock, ?_, fun _ _ => rfl, rfl⟩
      cases exhausted with
      | false => exact ⟨hoffset, hopened⟩
      | true =>
          show l.offsets seg.streamID = if f.opened then _ else _
          rw [hoffset, hopened]
          rfl
  | error _ _ => exact ⟨hl, trivial, fun _ _ => rfl, rfl⟩
  | stop _ _ _ =>
      refine ⟨hl, ?_, fun _ _ => rfl, rfl⟩
      cases f.canceled <;> exact trivial
  | fail _ hlock hrest =>
      refine ⟨hl.fail hlock hrest, trivial, ?_, rfl⟩
      intro id' hne
      exact Function.update_of_ne hne ..
  | failed _ hlock =>
      exact ⟨hl.unlock hlock, (hl.lock _ hlock).fails id _ rfl, fun _ _ => rfl, rfl⟩
  | cancel => exact ⟨hl, h, fun _ _ => rfl, rfl⟩

end Follower

/-! ## Whole runs -/

namespace LocalWorld

variable [DecidableEq S] [DecidableEq W] {s s' : LocalWorld S W}

/-- What holds in every state. -/
structure Delivers (s : LocalWorld S W) : Prop where
  source : s.source.Valid s.log
  followers : ∀ id, (s.followers id).Follows (s.log id) (s.source.offsets id) id

omit [DecidableEq S] [DecidableEq W] in
theorem Delivers.start {segmentSize bufferSize : Nat} {segmentSize_pos : 0 < segmentSize}
    {bufferSize_pos : 0 < bufferSize} :
    (start (.start segmentSize bufferSize segmentSize_pos bufferSize_pos) :
      LocalWorld S W).Delivers where
  source := .start _
  followers := fun _ => rfl

omit [DecidableEq S] [DecidableEq W] in
/-- A stream grows. -/
theorem Delivers.setStream (h : s.Delivers) {id : UUID} {log : EventLog} {b : Bus S}
    (hextends : (s.log id).Extends log) :
    ({ s with streams := Function.update s.streams id (some log), bus := b } :
      LocalWorld S W).Delivers := by
  have hgrow : ∀ id', (s.log id').Extends
      (LocalWorld.log
        { s with streams := Function.update s.streams id (some log), bus := b } id') := by
    intro id'
    by_cases heq : id' = id
    · subst heq
      simpa [LocalWorld.log] using hextends
    · simpa [LocalWorld.log, heq] using Log.Extends.refl _
  exact ⟨h.source.grow hgrow, fun id' => (h.followers id').grow (hgrow id')⟩

theorem Delivers.step (h : s.Delivers) (hstep : Step s s') : s'.Delivers := by
  cases hstep with
  | create hstream =>
      refine h.setStream ?_
      rw [LocalWorld.log, hstream]
      exact .refl _
  | append hstream hextends =>
      refine h.setStream ?_
      rw [LocalWorld.log, hstream]
      exact hextends
  | notify _ | run _ | watch _ _ | unsubscribe _ _ _ _ => exact ⟨h.source, h.followers⟩
  | @follow id b l f hstep =>
      obtain ⟨hvalid, hfollows, hothers, -⟩ := hstep.follows h.source (h.followers id)
        fun log => log_eq
      refine ⟨hvalid, ?_⟩
      intro id'
      dsimp only
      by_cases heq : id' = id
      · subst heq
        rw [Function.update_self]
        exact hfollows
      · rw [Function.update_of_ne heq, hothers id' heq]
        exact h.followers id'
  | source hstep =>
      refine ⟨hstep.valid h.source, ?_⟩
      intro id
      dsimp only
      rw [hstep.offsets_eq]
      exact h.followers id

theorem Delivers.run (h : s.Delivers) (hrun : Reaches s s') : s'.Delivers := by
  refine run_preserves ?_ hrun h
  intro s₁ s₂ h₁ hstep
  exact h₁.step hstep

/-- The call has been told to end, and has what the watcher `k` was given. -/
def EndedWith (w : W) (k : Watcher) (s : LocalWorld S W) : Prop :=
  s.Delivers ∧ ∃ k', s.source.watchers w = some k' ∧ k'.given = k.given ∧ k'.err = k.err ∧
    k'.segments.closed = true

theorem EndedWith.step {w : W} {k : Watcher} (h : EndedWith w k s) (hstep : Step s s') :
    EndedWith w k s' := by
  obtain ⟨hdelivers, k₁, hk₁, hgiven, herr, hclosed⟩ := h
  refine ⟨hdelivers.step hstep, ?_⟩
  cases hstep with
  | source hstep =>
      obtain ⟨k₂, hk₂, hgiven₂, herr₂, hclosed₂⟩ := hstep.closed hdelivers.source hk₁ hclosed
      exact ⟨k₂, hk₂, hgiven₂.trans hgiven, herr₂.trans herr, hclosed₂⟩
  | @follow id b l f hstep =>
      obtain ⟨-, -, -, hwatchers⟩ := hstep.follows hdelivers.source (hdelivers.followers id)
        fun log => log_eq
      refine ⟨k₁, ?_, hgiven, herr, hclosed⟩
      rw [← hk₁, ← hwatchers]
  | _ => exact ⟨k₁, hk₁, hgiven, herr, hclosed⟩

/-- A call that has been told to end is given nothing more. -/
theorem EndedWith.run {w : W} {k : Watcher} (h : EndedWith w k s) (hrun : Reaches s s') :
    EndedWith w k s' := by
  refine run_preserves ?_ hrun h
  intro s₁ s₂ h₁ hstep
  exact h₁.step hstep

theorem reaches_source {l l' : Local W} (hsteps : Relation.ReflTransGen Local.Step l l')
    (hsource : s.source = l) : Reaches s { s with source := l' } := by
  subst hsource
  induction hsteps with
  | refl => exact .refl
  | tail _ hlast ih => exact .tail ih (.source hlast)

end LocalWorld

/-- The segments of a stream that a call of `Local.Watch` passes to `fn` follow each other
and hold exactly the events of the requested types.  The last segment of a stream
that a registered call was given ends at the stream's offset, except while the loop
that changed the offset has yet to get to the call.  A call that has been told to end
is given nothing more; it passes everything that it was given to `fn`, and returns
the error. -/
theorem local_watch_contiguous [DecidableEq S] [DecidableEq W] {segmentSize bufferSize : Nat}
    {segmentSize_pos : 0 < segmentSize} {bufferSize_pos : 0 < bufferSize}
    {s : LocalWorld S W}
    (hreaches : LocalWorld.Reaches
      (.start (.start segmentSize bufferSize segmentSize_pos bufferSize_pos)) s)
    {w : W} {k : Watcher} (hk : s.source.watchers w = some k) :
    (∀ id, ∃ begin,
      Contiguous Segment.begin Segment.end_ begin (segmentsOf id k.passed) ∧
        (segmentsOf id k.passed).flatMap Segment.envelopes =
          (s.log id).read (admits k.types) begin
            (reach Segment.end_ begin (segmentsOf id k.passed))) ∧
      (k.registered = true → ∀ id,
        (∀ task rest, s.source.lock = some ⟨task, rest⟩ → w ∈ rest → id ≠ task.streamID) →
        lastEnd id k.given = s.source.offsets id) ∧
      (k.segments.closed = true →
        k.err.isSome = true ∧
          (∀ s', LocalWorld.Reaches s s' → ∃ k', s'.source.watchers w = some k' ∧
            k'.given = k.given ∧ k'.err = k.err) ∧
          ∀ openings, k.phase = .ready openings → ∃ s' k', LocalWorld.Reaches s s' ∧
            s'.source.watchers w = some k' ∧ k'.phase = .returning (.ended k.err) ∧
            k'.passed = k.given.map (filterSegment · k.types)) ∧
      ∀ err, k.phase = .returned (.ended err) →
        err = k.err ∧ err.isSome = true ∧ k.passed = k.given.map (filterSegment · k.types) := by
  have hdelivers := LocalWorld.Delivers.start.run hreaches
  obtain ⟨hvalid, hcurrent⟩ := hdelivers.source.watchers w k hk
  refine ⟨?_, ?_, ?_, ?_⟩
  · intro id
    obtain ⟨taken, hprogress⟩ := hvalid.progress
    obtain ⟨begin, hcontiguous⟩ := hvalid.contiguous id
    obtain ⟨left, hleft⟩ := hprogress.within
    rw [← hleft, segmentsOf_append, contiguous_append] at hcontiguous
    have hpassed : Contiguous Segment.begin Segment.end_ begin (segmentsOf id k.passed) := by
      rw [hprogress.passed, segmentsOf_filterSegment]
      exact (contiguous_map (fun seg => filterSegment_begin seg _)
        fun seg => filterSegment_end seg _).mpr hcontiguous.1
    refine ⟨begin, hpassed, flatMap_envelopes hpassed ?_⟩
    intro seg hseg
    rw [hprogress.passed, segmentsOf_filterSegment] at hseg
    obtain ⟨seg', hseg', rfl⟩ := List.mem_map.mp hseg
    obtain ⟨hmem, rfl⟩ := mem_segmentsOf.mp hseg'
    refine filterSegment_of (hvalid.complete seg' ?_) _
    rw [← hleft]
    exact List.mem_append_left _ hmem
  · exact fun hregistered => (hcurrent hregistered).offset
  · intro hclosed
    refine ⟨(hvalid.closed hclosed).2, ?_, ?_⟩
    · intro s' hrun
      have hended : LocalWorld.EndedWith w k s := ⟨hdelivers, k, hk, rfl, rfl, hclosed⟩
      obtain ⟨-, k', hk', hgiven, herr, -⟩ := hended.run hrun
      exact ⟨k', hk', hgiven, herr⟩
    intro openings hphase
    obtain ⟨l', k', hruns, hphase'⟩ := Local.drain openings hk hclosed hphase
    have hrun : LocalWorld.Reaches s { s with source := l' } :=
      LocalWorld.reaches_source hruns.steps rfl
    obtain ⟨taken, hprogress⟩ :=
      ((hdelivers.run hrun).source.watchers w k' hruns.watcher).1.progress
    obtain ⟨hall, -⟩ := hprogress.ended k.err (by rw [hphase']; rfl)
    refine ⟨_, k', hrun, hruns.watcher, hphase', ?_⟩
    rw [hprogress.passed, hall, hruns.given, hruns.types]
  · intro err hphase
    obtain ⟨taken, hprogress⟩ := hvalid.progress
    obtain ⟨hall, herr, hclosed⟩ := hprogress.ended err (by rw [hphase]; rfl)
    refine ⟨herr, ?_, by rw [hprogress.passed, hall]⟩
    rw [herr]
    exact (hvalid.closed hclosed).2

/-- The call `overflowed`, once it has returned. -/
def overflowedReturned : Watcher :=
  { overflowed with
    segments := { overflowed.segments with buffer := [] }
    passed := [openingSegment (uuid 100) 0]
    phase := .returned (.ended (some (.tooSlow (uuid 100)))) }

theorem overflowedReturned_reached : ∃ s : LocalWorld Unit Unit,
    LocalWorld.Reaches (.start (.start 3 1 (by decide) (by decide))) s ∧
      s.source.watchers () = some overflowedReturned := by
  obtain ⟨s, h, -, -, -, -, -, -, hlock, hwatcher⟩ := overflowed_reached
  have h : LocalWorld.Reaches _ _ := .tail h (.source (.receive hwatcher rfl rfl))
  have h : LocalWorld.Reaches _ _ := .tail h
    (.source (@Local.Step.accept Unit _ _ () _ _ rfl rfl))
  have h : LocalWorld.Reaches _ _ := .tail h
    (.source (@Local.Step.channelClosed Unit _ _ () _ rfl rfl rfl))
  have h : LocalWorld.Reaches _ _ := .tail h
    (.source (@Local.Step.unregister Unit _ _ () _ _ rfl rfl hlock))
  exact ⟨_, h, rfl⟩

theorem local_watch_contiguous_overflowed :
    overflowedReturned.passed = [openingSegment (uuid 100) 0] ∧
      overflowedReturned.err = some (.tooSlow (uuid 100)) ∧
      overflowedReturned.passed =
        overflowedReturned.given.map (filterSegment · overflowedReturned.types) := by
  obtain ⟨s, hreaches, hwatcher⟩ := overflowedReturned_reached
  obtain ⟨-, -, -, hreturned⟩ := local_watch_contiguous hreaches hwatcher
  obtain ⟨-, -, hpassed⟩ := hreturned _ rfl
  exact ⟨rfl, rfl, hpassed⟩

end Runkit.EventStream
