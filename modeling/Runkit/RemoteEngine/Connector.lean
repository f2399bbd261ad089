/-
  RemoteEngine/Connector.lean --- remote engines that come and go.

  A discoverer adds remote engines to the connector and removes them again, from any
  goroutine.  The catalog watches the event streams of a remote engine from when it is added
  until it is removed.  Once the function that removes it has returned, the connection may be
  closed; so the catalog must have stopped using it, and must not use it again.

  Each call of `add` makes a source of its own, and the catalog watches a source in a call of
  its own.  Sources, calls of `add` and calls of `Catalog.Watch` therefore have the same
  names.  The catalog may stop watching a source at any time, whether or not the context is
  done: that it does so at all is not needed here.

  Source: internal/remoteengine/connector.go, remoteengine.go.
-/
import Runkit.EventStream.Release

set_option autoImplicit false

namespace Runkit.RemoteEngine

open Runkit.Foundation Runkit.EventStream

variable {W R C : Type}

/-! ## The state machine -/

/-- A call of the function `add` that is given to `Discover`. -/
inductive Add where
  /-- It has found that the context is not done, and is about to start a watcher. -/
  | checked
  /-- It has started no watcher. -/
  | ignored
  /-- It has started a watcher. -/
  | started
  deriving DecidableEq, Repr

/-- A call of a function that `add` has returned. -/
inductive Remove (W : Type) where
  /-- It waits until the watcher has stopped. -/
  | waiting (i : W)
  | returned (i : W)
  deriving DecidableEq, Repr

/-- Where `Connector.discover` is. -/
inductive Phase where
  /-- `Discover` is executing. -/
  | discovering
  /-- `Discover` has returned. -/
  | canceling
  /-- Waiting for the watchers. -/
  | waiting
  /-- `discover` has returned. -/
  | returned
  deriving DecidableEq, Repr

/-- A connector, and the catalog that it adds event streams to. -/
structure Connector (W R C : Type) where
  world : World W W C
  phase : Phase
  /-- The context that `discover` gives to `Discover` is done. -/
  ctxDone : Bool
  adds : W → Option Add
  removes : R → Option (Remove W)

namespace Connector

/-- `Run` has been called, and calls `discover`. -/
def start (cacheSize : Nat) : Connector W R C where
  world := .start cacheSize
  phase := .discovering
  ctxDone := false
  adds := fun _ => none
  removes := fun _ => none

/-- The call of `Catalog.Watch` has returned. -/
def WatchReturned (w : World W W C) (i : W) : Prop :=
  ∃ watch, w.watches i = some watch ∧ watch.phase = .returned

/-- The state after `add` has been called with an event type filter and a context. -/
def afterCheck (eventTypeIDs : Finset UUID) (ctxDone : Bool) : Add :=
  if ctxDone || decide (eventTypeIDs = ∅) then .ignored else .checked

/-- The state after the function that `add` has returned is called. -/
def afterRemove (i : W) : Add → Remove W
  | .ignored => .returned i
  | _ => .waiting i

/-- The world after `Catalog.Watch` has been called. -/
def watched [DecidableEq W] (w : World W W C) (i : W) (types : TypeFilter) : World W W C :=
  { w with watches := Function.update w.watches i (some (.start i types)) }

inductive Step [DecidableEq W] [DecidableEq R] [DecidableEq C] (eventTypeIDs : Finset UUID) :
    Connector W R C → Connector W R C → Prop where
  /-- A step of the catalog or its streams other than the beginning of `Catalog.Watch`. -/
  | world {s : Connector W R C} {w : World W W C} : World.Step s.world w →
      (∀ i, w.watches i = none ↔ s.world.watches i = none) →
      Step eventTypeIDs s { s with world := w }
  /-- `Catalog.Watch` is called by others, such as for the application's own streams. -/
  | watch {s : Connector W R C} {i : W} (types : TypeFilter) : s.adds i = none →
      World.Step s.world (watched s.world i types) → s.world.watches i = none →
      Step eventTypeIDs s { s with world := watched s.world i types }
  | add {s : Connector W R C} {i : W} : s.phase = .discovering → s.adds i = none →
      s.world.watches i = none →
      Step eventTypeIDs s
        { s with adds := Function.update s.adds i (some (afterCheck eventTypeIDs s.ctxDone)) }
  | go {s : Connector W R C} {i : W} : s.adds i = some .checked →
      World.Step s.world (watched s.world i (some eventTypeIDs)) →
      Step eventTypeIDs s
        { s with
          world := watched s.world i (some eventTypeIDs)
          adds := Function.update s.adds i (some .started) }
  | remove {s : Connector W R C} {r : R} {i : W} {a : Add} : s.removes r = none →
      s.adds i = some a → a ≠ .checked →
      Step eventTypeIDs s
        { s with removes := Function.update s.removes r (some (afterRemove i a)) }
  | removeReturn {s : Connector W R C} {r : R} {i : W} : s.removes r = some (.waiting i) →
      WatchReturned s.world i →
      Step eventTypeIDs s
        { s with removes := Function.update s.removes r (some (.returned i)) }
  | cancel {s : Connector W R C} : Step eventTypeIDs s { s with ctxDone := true }
  /-- `Discover` returns.  It must not be calling `add` any more. -/
  | discovered {s : Connector W R C} : s.phase = .discovering →
      (∀ i, s.adds i ≠ some .checked) → Step eventTypeIDs s { s with phase := .canceling }
  | wait {s : Connector W R C} : s.phase = .canceling →
      Step eventTypeIDs s { s with phase := .waiting, ctxDone := true }
  | ret {s : Connector W R C} : s.phase = .waiting →
      (∀ i, s.adds i = some .started → WatchReturned s.world i) →
      Step eventTypeIDs s { s with phase := .returned }
  /-- The supervisor calls `discover` again. -/
  | restart {s : Connector W R C} (ctxDone : Bool) : s.phase = .returned →
      Step eventTypeIDs s { s with phase := .discovering, ctxDone := ctxDone }

/-! ## Sources that are not used -/

/-- The catalog does not use the source. -/
structure Unused (w : World W W C) (i : W) : Prop where
  reads : ¬ w.ReadsSource i
  watches : ¬ w.WatchesSource i
  offers : ∀ f feed, w.catalog.feeds f = some feed → feed.source = i → ¬ w.Offers f

/-- A source is not used if no call of `Catalog.Watch` for it is in progress. -/
theorem unused_of_returned {w : World W W C} (h : w.Accounted) {i : W}
    (hreturned : ∀ j watch, w.watches j = some watch → watch.source = i →
      watch.phase = .returned) : Unused w i where
  reads := by
    rintro ⟨j, k, f, feed, hk, hreads, hfeed, hsource⟩
    obtain ⟨o, watch, hwatch, howns, hsource'⟩ := h.owned f feed hfeed
    have hphase := hreturned o watch hwatch (hsource'.trans hsource)
    obtain ⟨-, huncounted, -⟩ := h.owned_of_returned hwatch hphase howns
    exact huncounted j ⟨k, hk, ConsumePhase.counts_of_reads hreads⟩
  watches := by
    rintro ⟨j, watch, hwatch, hsource, hwatching⟩
    cases (hreturned j watch hwatch hsource).symm.trans hwatching
  offers := by
    intro f feed hfeed hsource
    obtain ⟨o, watch, hwatch, howns, hsource'⟩ := h.owned f feed hfeed
    have hphase := hreturned o watch hwatch (hsource'.trans hsource)
    exact (h.owned_of_returned hwatch hphase howns).2.2

/-- A call of `Catalog.Watch` that has returned stays as it is. -/
theorem watchReturned_step [DecidableEq W] [DecidableEq C] {w w' : World W W C}
    (h : w.Accounted) (hstep : World.Step w w') {i : W} (hreturned : WatchReturned w i) :
    WatchReturned w' i := by
  obtain ⟨watch, hwatch, hphase⟩ := hreturned
  exact ⟨watch, World.returned_of_reaches h (.single hstep) hwatch hphase, hphase⟩

/-- A call of `Catalog.Watch` keeps its source. -/
theorem source_of_step [DecidableEq W] [DecidableEq C] {w w' : World W W C}
    (hstep : World.Step w w') {i : W} {watch' : Watch W} (hwatch' : w'.watches i = some watch') :
    w.watches i = none ∨ ∃ watch, w.watches i = some watch ∧ watch'.source = watch.source := by
  cases hstep with
  | watch hnew _ =>
      obtain ⟨rfl, -⟩ | ⟨-, hold⟩ := update_eq_some hwatch'
      · exact Or.inl hnew
      · exact Or.inr ⟨watch', hold, rfl⟩
  | watchStep hwatch hstep =>
      obtain ⟨rfl, hset⟩ | ⟨-, hold⟩ := update_eq_some hwatch'
      · cases hset
        exact Or.inr ⟨_, hwatch, hstep.source⟩
      · exact Or.inr ⟨watch', hold, rfl⟩
  | grow _ | consume _ _ | consumeStep _ _ => exact Or.inr ⟨watch', hwatch', rfl⟩

theorem watched_watches_of_ne [DecidableEq W] {w : World W W C} {i j : W}
    {types : TypeFilter} (h : j ≠ i) :
    (watched w i types).watches j = w.watches j :=
  Function.update_of_ne h ..

/-- A call that has just begun has the source of its name. -/
theorem watched_sources [DecidableEq W] {w : World W W C} {i : W} {types : TypeFilter}
    (h : ∀ j watch, w.watches j = some watch → watch.source = j) {j : W} {watch : Watch W}
    (hwatch : (watched w i types).watches j = some watch) : watch.source = j := by
  obtain ⟨rfl, hset⟩ | ⟨-, hold⟩ := update_eq_some hwatch
  · cases hset
    rfl
  · exact h j watch hold

/-! ## What every step keeps -/

/-- The watcher of the call has stopped, or there never was one. -/
def Gone (s : Connector W R C) (i : W) : Prop :=
  s.adds i = some .ignored ∨ WatchReturned s.world i

structure Invariant (s : Connector W R C) : Prop where
  accounted : s.world.Accounted
  sources : ∀ i watch, s.world.watches i = some watch → watch.source = i
  unwatched : ∀ i a, s.adds i = some a → a ≠ .started → s.world.watches i = none
  removed : ∀ r i, s.removes r = some (.returned i) → s.Gone i
  settled : s.phase ≠ .discovering → ∀ i, s.adds i ≠ some .checked
  returned : s.phase = .returned → ∀ i, s.adds i = some .started → WatchReturned s.world i

section Steps

variable {s s' : Connector W R C} {eventTypeIDs : Finset UUID}

theorem Invariant.unused (h : s.Invariant) {i : W} (hgone : s.Gone i) : Unused s.world i := by
  refine unused_of_returned h.accounted ?_
  intro j watch hwatch hsource
  obtain rfl : j = i := (h.sources j watch hwatch).symm.trans hsource
  obtain hadd | ⟨watch', hwatch', hphase⟩ := hgone
  · rw [h.unwatched j .ignored hadd (by decide)] at hwatch
    cases hwatch
  · cases hwatch.symm.trans hwatch'
    exact hphase

/-- The function that removes a remote engine is called, or returns. -/
theorem Invariant.withRemoves (h : s.Invariant) {removes : R → Option (Remove W)}
    (hremoved : ∀ r i, removes r = some (.returned i) → s.Gone i) :
    Invariant { s with removes := removes } :=
  ⟨h.accounted, h.sources, h.unwatched, hremoved, h.settled, h.returned⟩

/-- `discover` goes on. -/
theorem Invariant.withPhase (h : s.Invariant) {phase : Phase} {ctxDone : Bool}
    (hsettled : phase ≠ .discovering → ∀ i, s.adds i ≠ some .checked)
    (hreturned : phase = .returned →
      ∀ i, s.adds i = some .started → WatchReturned s.world i) :
    Invariant { s with phase := phase, ctxDone := ctxDone } :=
  ⟨h.accounted, h.sources, h.unwatched, h.removed, hsettled, hreturned⟩

variable [DecidableEq W]

/-- `add` is called, and looks at the context. -/
theorem Invariant.add (h : s.Invariant) {i : W} {a : Add}
    (hphase : s.phase = .discovering) (hnew : s.adds i = none)
    (hwatch : s.world.watches i = none) :
    Invariant { s with adds := Function.update s.adds i (some a) } where
  accounted := h.accounted
  sources := h.sources
  unwatched := by
    intro j b hb hne
    obtain ⟨rfl, -⟩ | ⟨-, hold⟩ := update_eq_some hb
    · exact hwatch
    · exact h.unwatched j b hold hne
  removed := by
    intro r j hr
    obtain hadd | hreturned := h.removed r j hr
    · left
      have hne : j ≠ i := by
        rintro rfl
        cases hnew.symm.trans hadd
      exact (Function.update_of_ne hne ..).trans hadd
    · exact Or.inr hreturned
  settled := fun hother => absurd hphase hother
  returned := fun hother => absurd (hphase.symm.trans hother) (by decide)

variable [DecidableEq C]

/-- The world changes, and with it the calls of `add`. -/
theorem Invariant.withWorld (h : s.Invariant) {w : World W W C} {adds : W → Option Add}
    (hstep : World.Step s.world w)
    (hsources : ∀ i watch, w.watches i = some watch → watch.source = i)
    (hunwatched : ∀ i a, adds i = some a → a ≠ .started → w.watches i = none)
    (hignored : ∀ i, s.adds i = some .ignored → adds i = some .ignored)
    (hchecked : ∀ i, adds i = some .checked → s.adds i = some .checked)
    (hstarted : ∀ i, adds i = some .started → s.adds i = some .started ∨
      s.adds i = some .checked) :
    Invariant { s with world := w, adds := adds } where
  accounted := h.accounted.step hstep
  sources := hsources
  unwatched := hunwatched
  removed := by
    intro r i hr
    obtain hadd | hreturned := h.removed r i hr
    · exact Or.inl (hignored i hadd)
    · exact Or.inr (watchReturned_step h.accounted hstep hreturned)
  settled := fun hphase i hadd => h.settled hphase i (hchecked i hadd)
  returned := by
    intro hphase i hadd
    obtain hold | hnew := hstarted i hadd
    · exact watchReturned_step h.accounted hstep (h.returned hphase i hold)
    · have hphase' : s.phase ≠ .discovering := by
        rw [show s.phase = .returned from hphase]
        decide
      exact absurd hnew (h.settled hphase' i)

theorem Invariant.go (h : s.Invariant) {i : W} (hi : s.adds i = some .checked)
    (hstep : World.Step s.world (watched s.world i (some eventTypeIDs))) :
    Invariant { s with
      world := watched s.world i (some eventTypeIDs)
      adds := Function.update s.adds i (some .started) } := by
  have hother : ∀ {j : W} {a : Add}, a ≠ .started →
      Function.update s.adds i (some .started) j = some a → j ≠ i ∧ s.adds j = some a := by
    intro j a ha hj
    obtain ⟨rfl, hset⟩ | ⟨hne, hold⟩ := update_eq_some hj
    · cases hset
      exact absurd rfl ha
    · exact ⟨hne, hold⟩
  refine h.withWorld hstep (fun _ _ => watched_sources h.sources) ?_ ?_ ?_ ?_
  · intro j a hj ha
    obtain ⟨hne, hold⟩ := hother ha hj
    rw [watched_watches_of_ne hne]
    exact h.unwatched j a hold ha
  · intro j hj
    have hne : j ≠ i := by
      rintro rfl
      cases hi.symm.trans hj
    exact (Function.update_of_ne hne ..).trans hj
  · intro j hj
    exact (hother (by decide) hj).2
  · intro j hj
    obtain ⟨rfl, -⟩ | ⟨-, hold⟩ := update_eq_some hj
    · exact Or.inr hi
    · exact Or.inl hold

variable [DecidableEq R]

theorem Invariant.step (h : s.Invariant) (hstep : Step eventTypeIDs s s') : s'.Invariant := by
  cases hstep with
  | @world w hworld hkeeps =>
      refine h.withWorld hworld ?_ ?_ (fun _ => id) (fun _ => id) (fun _ => Or.inl)
      · intro i watch' hwatch'
        obtain hnone | ⟨watch, hwatch, hsource⟩ := source_of_step hworld hwatch'
        · rw [(hkeeps i).mpr hnone] at hwatch'
          cases hwatch'
        · rw [hsource]
          exact h.sources i watch hwatch
      · intro i a ha hne
        exact (hkeeps i).mpr (h.unwatched i a ha hne)
  | @watch i types hi hworld hwatch =>
      refine h.withWorld hworld (fun _ _ => watched_sources h.sources) ?_ (fun _ => id)
        (fun _ => id) (fun _ => Or.inl)
      intro j a ha hne
      have hj : j ≠ i := by
        rintro rfl
        cases hi.symm.trans ha
      rw [watched_watches_of_ne hj]
      exact h.unwatched j a ha hne
  | add hphase hnew hwatch => exact h.add hphase hnew hwatch
  | go hi hworld => exact h.go hi hworld
  | @remove r i a hr hi ha =>
      refine h.withRemoves ?_
      intro r' j hr'
      obtain ⟨-, hset⟩ | ⟨-, hold⟩ := update_eq_some hr'
      · cases a with
        | checked => exact absurd rfl ha
        | ignored =>
            cases hset
            exact Or.inl hi
        | started => cases hset
      · exact h.removed r' j hold
  | removeReturn hr hreturned =>
      refine h.withRemoves ?_
      intro r' j hr'
      obtain ⟨-, hset⟩ | ⟨-, hold⟩ := update_eq_some hr'
      · cases hset
        exact Or.inr hreturned
      · exact h.removed r' j hold
  | cancel => exact h.withPhase h.settled h.returned
  | discovered hphase hsettled =>
      refine h.withPhase (fun _ => hsettled) ?_
      intro hother
      cases hother
  | wait hphase =>
      refine h.withPhase (fun _ => h.settled (by rw [hphase]; decide)) ?_
      intro hother
      cases hother
  | ret hphase hreturned =>
      exact h.withPhase (fun _ => h.settled (by rw [hphase]; decide)) (fun _ => hreturned)
  | restart ctxDone hphase =>
      refine h.withPhase (fun hother => absurd rfl hother) ?_
      intro hother
      cases hother

/-- What is gone stays gone. -/
theorem Gone.step (hinv : s.Invariant) {i : W} (h : s.Gone i)
    (hstep : Step eventTypeIDs s s') : s'.Gone i := by
  have hkept : ∀ {j : W} {a : Option Add}, s.adds i = some .ignored →
      s.adds j ≠ some .ignored → Function.update s.adds j a i = some .ignored := by
    intro j a hi hj
    have hne : i ≠ j := by
      rintro rfl
      exact hj hi
    exact (Function.update_of_ne hne ..).trans hi
  obtain hadd | hreturned := h
  · left
    cases hstep with
    | add _ hnew _ => exact hkept hadd (by rw [hnew]; decide)
    | go hi _ => exact hkept hadd (by rw [hi]; decide)
    | _ => exact hadd
  · right
    cases hstep with
    | world hworld _ => exact watchReturned_step hinv.accounted hworld hreturned
    | watch _ _ hworld _ => exact watchReturned_step hinv.accounted hworld hreturned
    | go _ hworld => exact watchReturned_step hinv.accounted hworld hreturned
    | _ => exact hreturned

end Steps

/-! ## Whole runs -/

section Runs

variable [DecidableEq W] [DecidableEq R] [DecidableEq C] {s s' : Connector W R C}
  {eventTypeIDs : Finset UUID} {cacheSize : Nat}

theorem reaches_invariant (h : Relation.ReflTransGen (Step eventTypeIDs) (start cacheSize) s) :
    s.Invariant := by
  have hpreserves : ∀ u u' : Connector W R C, u.Invariant → Step eventTypeIDs u u' →
      u'.Invariant := fun _ _ hinv hstep => hinv.step hstep
  refine run_preserves hpreserves h ?_
  exact ⟨.start, by simp [start, World.start], by simp [start], by simp [start],
    fun hother => absurd rfl hother, fun hother => by cases hother⟩

/-- Once the function that removes a remote engine has returned, the catalog does not use the
connection, then or at any later time.  The same holds of all remote engines that have been
added, removed or not, once `discover` has returned. -/
theorem removed_engines_unused
    (h : Relation.ReflTransGen (Step eventTypeIDs) (start cacheSize) s)
    (hrun : Relation.ReflTransGen (Step eventTypeIDs) s s') :
    (∀ r i, s.removes r = some (.returned i) → Unused s'.world i) ∧
    (s.phase = .returned → ∀ i, s.adds i ≠ none → Unused s'.world i) := by
  have hinv := reaches_invariant h
  have hlater : ∀ i, s.Gone i → Unused s'.world i := by
    intro i hgone
    have hpreserves : ∀ u u' : Connector W R C, (u.Invariant ∧ u.Gone i) →
        Step eventTypeIDs u u' → u'.Invariant ∧ u'.Gone i :=
      fun _ _ hu hstep => ⟨hu.1.step hstep, hu.2.step hu.1 hstep⟩
    obtain ⟨hinv', hgone'⟩ := run_preserves hpreserves hrun ⟨hinv, hgone⟩
    exact hinv'.unused hgone'
  refine ⟨fun r i hr => hlater i (hinv.removed r i hr), ?_⟩
  intro hphase i hadd
  apply hlater
  cases ha : s.adds i with
  | none => exact absurd ha hadd
  | some a =>
      cases a with
      | checked => exact absurd ha (hinv.settled (by rw [hphase]; decide) i)
      | ignored => exact Or.inl ha
      | started => exact Or.inr (hinv.returned hphase i ha)

end Runs

/-- A remote engine has been added and removed again. -/
theorem removed_reached :
    ∃ s : Connector Unit Unit Unit,
      Relation.ReflTransGen (Step {uuid 2}) (start 1) s ∧
        s.removes () = some (.returned ()) ∧ s.adds () = some .started := by
  have hkeeps : ∀ {w w' : World Unit Unit Unit} {watch watch' : Watch Unit},
      w.watches () = some watch → w'.watches () = some watch' →
      ∀ i, w'.watches i = none ↔ w.watches i = none := by
    intro w w' watch watch' hw hw' i
    simp [hw, hw']
  exact ⟨_, Relation.ReflTransGen.refl
    |>.tail (.add (i := ()) rfl rfl rfl)
    |>.tail (.go (i := ()) rfl (.watch rfl Nat.one_pos))
    |>.tail (.remove (r := ()) (i := ()) rfl rfl (by decide))
    |>.tail (.world (.watchStep (i := ()) rfl (.stop rfl fun _ => rfl)) (hkeeps rfl rfl))
    |>.tail (.world (.watchStep (i := ()) rfl (.drain rfl)) (hkeeps rfl rfl))
    |>.tail (.world (.watchStep (i := ()) rfl (.finish rfl)) (hkeeps rfl rfl))
    |>.tail (.removeReturn (r := ()) rfl ⟨_, rfl, rfl⟩), rfl, rfl⟩

theorem removed_engines_unused_removed :
    ∃ s : Connector Unit Unit Unit, s.adds () = some .started ∧ Unused s.world () := by
  obtain ⟨s, hreached, hremoved, hadd⟩ := removed_reached
  exact ⟨s, hadd, (removed_engines_unused hreached .refl).1 () () hremoved⟩

end Connector

end Runkit.RemoteEngine
