/-
  EventStream/LocalRead.lean --- reading a stream from the application's own database.

  Source: internal/eventstream/source/local.go.

  `Local.Read` queries the stream for one segment after the other, and the stream may
  grow between two queries.  What it does depends on what each query sees, so the loop
  runs over the results of its queries: as long as there are none left, it has not
  returned.
-/
import Runkit.EventStream.Local

set_option autoImplicit false

namespace Runkit.EventStream

open Runkit.Foundation

/-! ## The loop -/

/-- What a query sees: the stream, if it exists, unless the query fails. -/
abbrev QueryView := Except SourceError (Option EventLog)

/-- How `Local.Read` returns. -/
inductive LocalReturn where
  /-- There is no error, because the stream is exhausted. -/
  | exhausted
  /-- With the error of `fn`. -/
  | rejected
  | failed (err : SourceError)
  deriving DecidableEq, Repr

/-- The loop of `Local.Read`, given what its queries see, and its result if it has
returned.  `fn` says whether the consumer accepts the last of the segments that it has
been passed. -/
def localRead (segmentSize : Nat) (types : TypeFilter) (streamID : UUID)
    (fn : List Segment → Bool) :
    Nat → List Segment → List QueryView → List Segment × Option LocalReturn
  | _, passed, [] => (passed, none)
  | _, passed, .error err :: _ => (passed, some (.failed err))
  | begin, passed, .ok stream :: rest =>
      match loadSegment segmentSize types stream streamID begin with
      | .error err => (passed, some (.failed err))
      | .ok (seg, exhausted) =>
          if seg.begin < seg.end_ then
            if fn (passed ++ [seg]) then
              if exhausted then (passed ++ [seg], some .exhausted)
              else localRead segmentSize types streamID fn seg.end_ (passed ++ [seg]) rest
            else (passed ++ [seg], some .rejected)
          else if exhausted then (passed, some .exhausted)
          else localRead segmentSize types streamID fn begin passed rest

/-- The views are those of a stream that has grown from `before` to `log` by the time of
the last one.  Queries may fail. -/
def Growing (log : EventLog) : EventLog → List QueryView → Prop
  | _, [] => True
  | before, .error err :: rest => err = .other ∧ Growing log before rest
  | _, .ok none :: _ => False
  | before, .ok (some view) :: rest =>
      before.Extends view ∧ view.Extends log ∧ Growing log view rest

section

variable {segmentSize begin start : Nat} {types : TypeFilter} {streamID : UUID}
  {fn : List Segment → Bool} {log before view : EventLog} {passed : List Segment}
  {views rest : List QueryView}

/-! ## One query -/

/-- The segments of a stream that have been delivered so far: they are contiguous from the
offset, each of them advances, is complete and is no larger than a page. -/
structure Delivered (segmentSize : Nat) (types : TypeFilter) (streamID : UUID) (log : EventLog)
    (start : Nat) (passed : List Segment) : Prop where
  contiguous : Contiguous Segment.begin Segment.end_ start passed
  segments : ∀ seg ∈ passed, seg.streamID = streamID ∧ seg.begin < seg.end_ ∧
    seg.envelopes.length ≤ segmentSize ∧ seg.Of log types

theorem Delivered.nil : Delivered segmentSize types streamID log start [] :=
  ⟨trivial, nofun⟩

theorem Delivered.concat {seg : Segment}
    (h : Delivered segmentSize types streamID log start passed)
    (hbegin : seg.begin = reach Segment.end_ start passed)
    (hseg : seg.streamID = streamID ∧ seg.begin < seg.end_ ∧
      seg.envelopes.length ≤ segmentSize ∧ seg.Of log types) :
    Delivered segmentSize types streamID log start (passed ++ [seg]) where
  contiguous := by
    rw [contiguous_concat]
    exact ⟨h.contiguous, hbegin, Nat.le_of_lt hseg.2.1⟩
  segments := by
    intro other hother
    rcases List.mem_append.mp hother with hother | hother
    · exact h.segments other hother
    · rw [List.mem_singleton.mp hother]
      exact hseg

/-- The segment is the page of the stream that begins at the offset. -/
structure PageOf (segmentSize : Nat) (types : TypeFilter) (streamID : UUID) (view : EventLog)
    (begin : Nat) (seg : Segment) (exhausted : Bool) : Prop where
  stream : seg.streamID = streamID
  begins : seg.begin = begin
  length : seg.envelopes.length ≤ segmentSize
  complete : seg.Of view types
  /-- A page that is not full ends where the stream ends. -/
  ends : exhausted = true → seg.end_ = view.next
  advances : exhausted = false → 0 < segmentSize → seg.begin < seg.end_

theorem loadSegment_pageOf (segmentSize : Nat) (types : TypeFilter) (streamID : UUID)
    (h : begin ≤ view.next) :
    ∃ seg exhausted, loadSegment segmentSize types (some view) streamID begin =
        .ok (seg, exhausted) ∧
      PageOf segmentSize types streamID view begin seg exhausted := by
  obtain ⟨seg, exhausted, hload, hlength⟩ := loadSegment_of_le streamID h
  obtain ⟨_, hview, hstream, hbegin, hof, hend, hadvance⟩ := loadSegment_ok hload
  cases hview
  exact ⟨seg, exhausted, hload, ⟨hstream, hbegin, hlength, hof, hend, hadvance⟩⟩

/-! ## Any number of queries -/

/-- What the loop has done, whatever its queries have seen. -/
structure ReadSoFar (segmentSize : Nat) (types : TypeFilter) (streamID : UUID)
    (log : EventLog) (start : Nat) (outcome : List Segment × Option LocalReturn) : Prop where
  delivered : Delivered segmentSize types streamID log start outcome.1
  inRange : outcome.2 ≠ some (.failed .offsetOutOfRange)
  recognized : outcome.2 ≠ some (.failed .unrecognizedStream)

theorem localRead_readSoFar (hgrowing : Growing log before views)
    (hbegin : begin ≤ before.next) (hreach : reach Segment.end_ start passed = begin)
    (hdelivered : Delivered segmentSize types streamID log start passed) :
    ReadSoFar segmentSize types streamID log start
      (localRead segmentSize types streamID fn begin passed views) := by
  induction views generalizing begin passed before with
  | nil => exact ⟨hdelivered, nofun, nofun⟩
  | cons query rest ih =>
      match query, hgrowing with
      | .error err, ⟨herr, _⟩ =>
          subst herr
          exact ⟨hdelivered, nofun, nofun⟩
      | .ok (some view), ⟨hextends, hlater, hrest⟩ =>
          have hle : begin ≤ view.next := Nat.le_trans hbegin hextends.1
          obtain ⟨seg, exhausted, hload, hpage⟩ :=
            loadSegment_pageOf segmentSize types streamID hle
          rw [localRead, hload]
          dsimp only
          split
          · rename_i hlt
            have hconcat : Delivered segmentSize types streamID log start (passed ++ [seg]) :=
              hdelivered.concat (by rw [hpage.begins, hreach])
                ⟨hpage.stream, hlt, hpage.length, hpage.complete.grow hlater⟩
            split
            · split
              · exact ⟨hconcat, nofun, nofun⟩
              · exact ih hrest hpage.complete.within (reach_concat _ _ _) hconcat
            · exact ⟨hconcat, nofun, nofun⟩
          · split
            · exact ⟨hdelivered, nofun, nofun⟩
            · exact ih hrest hle hreach hdelivered

/-- Calls that deliver the same range deliver the same events, however they have been
filtered. -/
theorem Delivered.flatMap_filterSegment {segmentSize' : Nat} {all : List Segment}
    (h : Delivered segmentSize types streamID log start passed)
    (hall : Delivered segmentSize' none streamID log start all)
    (hreach : reach Segment.end_ start passed = reach Segment.end_ start all) :
    passed.flatMap Segment.envelopes =
      (all.map (filterSegment · types)).flatMap Segment.envelopes := by
  have hcontiguous : Contiguous Segment.begin Segment.end_ start
      (all.map (filterSegment · types)) :=
    (contiguous_map (fun seg => filterSegment_begin seg types)
      (fun seg => filterSegment_end seg types)).mpr hall.contiguous
  have hsegments : ∀ seg ∈ all.map (filterSegment · types), seg.Of log types := by
    intro seg hseg
    obtain ⟨seg', hseg', rfl⟩ := List.mem_map.mp hseg
    exact filterSegment_of (hall.segments seg' hseg').2.2.2 types
  rw [flatMap_envelopes h.contiguous fun seg hseg => (h.segments seg hseg).2.2.2,
    flatMap_envelopes hcontiguous hsegments, hreach,
    reach_map fun seg => filterSegment_end seg types]

/-! ## Returning -/

/-- The queries from the `m`-th one, when the `i`-th one sees `history i`. -/
def queriesOf (history : Nat → EventLog) (m n : Nat) : List QueryView :=
  (List.range' m n).map fun i => .ok (some (history i))

theorem queriesOf_succ (history : Nat → EventLog) (m n : Nat) :
    queriesOf history m (n + 1) = .ok (some (history m)) :: queriesOf history (m + 1) n := by
  rw [queriesOf, List.range'_succ, List.map_cons, queriesOf]

/-- A query that sees the stream is the last one, or it advances the offset. -/
theorem localRead_query (types : TypeFilter) (streamID : UUID) (hsize : 0 < segmentSize)
    (hfn : ∀ segs, fn segs = true) (hbegin : begin ≤ view.next)
    (hreach : reach Segment.end_ start passed = begin) :
    (∃ passed', reach Segment.end_ start passed' = view.next ∧
      ∀ rest, localRead segmentSize types streamID fn begin passed (.ok (some view) :: rest) =
        (passed', some .exhausted)) ∨
    ∃ begin' passed', begin < begin' ∧ begin' ≤ view.next ∧
      reach Segment.end_ start passed' = begin' ∧
      ∀ rest, localRead segmentSize types streamID fn begin passed (.ok (some view) :: rest) =
        localRead segmentSize types streamID fn begin' passed' rest := by
  obtain ⟨seg, exhausted, hload, hpage⟩ := loadSegment_pageOf segmentSize types streamID hbegin
  have hbegins := hpage.begins
  by_cases hlt : seg.begin < seg.end_
  · cases exhausted with
    | true =>
        refine Or.inl ⟨passed ++ [seg], ?_, ?_⟩
        · rw [reach_concat, hpage.ends rfl]
        · intro rest
          simp [localRead, hload, hlt, hfn]
    | false =>
        refine Or.inr ⟨seg.end_, passed ++ [seg], by omega, hpage.complete.within,
          reach_concat _ _ _, ?_⟩
        intro rest
        simp [localRead, hload, hlt, hfn]
  · cases exhausted with
    | true =>
        have hend := hpage.ends rfl
        have hordered := hpage.complete.ordered
        refine Or.inl ⟨passed, by omega, ?_⟩
        intro rest
        simp [localRead, hload, hlt]
    | false => exact absurd (hpage.advances rfl hsize) hlt

/-- Once the stream has stopped growing, each further query gets nearer to its end. -/
theorem localRead_returns (types : TypeFilter) (streamID : UUID) {history : Nat → EventLog}
    (hsize : 0 < segmentSize) (hfn : ∀ segs, fn segs = true)
    (hgrows : ∀ i, (history i).Extends (history (i + 1)))
    {last : Nat} (hlast : ∀ i, last ≤ i → history i = history last) {k m : Nat}
    (hk : (last - m) + ((history last).next - begin) < k) (hbegin : begin ≤ (history m).next)
    (hreach : reach Segment.end_ start passed = begin) :
    ∃ n passed', reach Segment.end_ start passed' = (history (m + n)).next ∧
      ∀ rest, localRead segmentSize types streamID fn begin passed
        (queriesOf history m (n + 1) ++ rest) = (passed', some .exhausted) := by
  induction k generalizing m begin passed with
  | zero => omega
  | succ k ih =>
      rcases localRead_query types streamID hsize hfn hbegin hreach with
        ⟨passed', hend, hreturn⟩ | ⟨begin', passed', hlt, hle, hreach', hcontinue⟩
      · refine ⟨0, passed', hend, ?_⟩
        intro rest
        exact hreturn rest
      · -- Either the stream may still grow, or the query sees all of it.
        have hmeasure : (last - (m + 1)) + ((history last).next - begin') < k := by
          by_cases hm : m < last
          · omega
          · rw [hlast m (by omega)] at hle
            omega
        obtain ⟨n, passed'', hend, hreturn⟩ :=
          ih hmeasure (Nat.le_trans hle (hgrows m).1) hreach'
        refine ⟨n + 1, passed'', by rw [hend, Nat.add_right_comm, Nat.add_assoc], ?_⟩
        intro rest
        rw [queriesOf_succ, List.cons_append, hcontinue, hreturn]

end

/-- `Local.Read` delivers the stream from an offset up to its end, page by page.

Whatever its queries see of a growing stream, the segments that it delivers are contiguous
and complete, advance, and are no larger than a page.  It returns once the stream has
stopped growing, with all of what its last query saw delivered, and a call with a filter
delivers what is left of a call without one over the same range.  From an offset beyond the
end nothing is delivered. -/
theorem local_read_pages {segmentSize : Nat} (hsize : 0 < segmentSize) (types : TypeFilter)
    (streamID : UUID) (before : EventLog) (begin : Nat) :
    (begin ≤ before.next →
      (∀ fn log views, Growing log before views →
        ReadSoFar segmentSize types streamID log begin
          (localRead segmentSize types streamID fn begin [] views)) ∧
      (∀ (fn : List Segment → Bool) (history : Nat → EventLog) (last : Nat),
        (∀ segs, fn segs = true) → before.Extends (history 0) →
        (∀ i, (history i).Extends (history (i + 1))) →
        (∀ i, last ≤ i → history i = history last) →
        ∃ n passed, reach Segment.end_ begin passed = (history n).next ∧
          ∀ rest, localRead segmentSize types streamID fn begin []
            (queriesOf history 0 (n + 1) ++ rest) = (passed, some .exhausted)) ∧
      ∀ fn fn' log views views' passed all result result',
        Growing log before views → Growing log before views' →
        localRead segmentSize types streamID fn begin [] views = (passed, result) →
        localRead segmentSize none streamID fn' begin [] views' = (all, result') →
        reach Segment.end_ begin passed = reach Segment.end_ begin all →
        passed.flatMap Segment.envelopes =
          (all.map (filterSegment · types)).flatMap Segment.envelopes) ∧
    ∀ fn rest, before.next < begin →
      localRead segmentSize types streamID fn begin [] (.ok (some before) :: rest) =
        ([], some (.failed .offsetOutOfRange)) := by
  refine ⟨fun hbegin => ⟨?_, ?_, ?_⟩, ?_⟩
  · intro fn log views hgrowing
    exact localRead_readSoFar hgrowing hbegin (reach_nil begin) .nil
  · intro fn history last hfn hfirst hgrows hlast
    have hnext := Nat.le_trans hbegin hfirst.1
    obtain ⟨n, passed, hend, hreturn⟩ := localRead_returns types streamID hsize hfn hgrows hlast
      (Nat.lt_succ_self _) hnext (reach_nil begin)
    rw [Nat.zero_add] at hend
    exact ⟨n, passed, hend, hreturn⟩
  · intro fn fn' log views views' passed all result result' hviews hviews' hread hreadAll hreach
    have hfiltered : ReadSoFar segmentSize types streamID log begin (passed, result) := by
      rw [← hread]
      exact localRead_readSoFar hviews hbegin (reach_nil begin) .nil
    have hall : ReadSoFar segmentSize none streamID log begin (all, result') := by
      rw [← hreadAll]
      exact localRead_readSoFar hviews' hbegin (reach_nil begin) .nil
    exact hfiltered.delivered.flatMap_filterSegment hall.delivered hreach
  · intro fn rest hbeyond
    simp [localRead, loadSegment, hbeyond]

/-- Two pages of one event each, the second of which leaves the call to query again. -/
theorem local_read_pages_twoEvents :
    ∃ n passed, reach Segment.end_ 0 passed = 2 ∧
      ∀ rest, localRead 1 none (uuid 100) (fun _ => true) 0 []
        (queriesOf (fun _ => twoEvents) 0 (n + 1) ++ rest) = (passed, some .exhausted) :=
  ((local_read_pages Nat.one_pos none (uuid 100) twoEvents 0).1 (Nat.zero_le _)).2.1
    (fun _ => true) (fun _ => twoEvents) 0 (fun _ => rfl) (.refl _) (fun _ => .refl _)
    (fun _ _ => rfl)

end Runkit.EventStream
