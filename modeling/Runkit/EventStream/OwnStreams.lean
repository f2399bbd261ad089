/-
  EventStream/OwnStreams.lean --- the application's own streams, from the database to their
  consumers.

  Source: Watch and Consume of internal/eventstream/catalog.go, with Watch and Read of
  internal/eventstream/source/local.go.

  The catalog is known to deliver events without gaps if its sources keep to their contract
  (`EventStream/Delivery.lean`).  Here its source is the one that the engine has for its own
  database: signals may be lost, buffers may overflow, followers may fail and start again, and
  streams grow all the while.  What `Local.Watch` passes to the catalog, and what `Local.Read`
  passes to a consumer, are steps of the source and of the catalog at once.  Every run of both
  is a run of the catalog with a source that keeps to its contract.

  A call of `Catalog.Watch` calls `Local.Watch` again whenever it returns, as often as it
  likes; the function that it passes to it returns once the segment has been appended to its
  feed, and never with an error.
-/
import Runkit.EventStream.Delivery
import Runkit.EventStream.FanOut

set_option autoImplicit false

namespace Runkit.EventStream

open Runkit.Foundation

variable {S L W C : Type}

/-! ## The source and the catalog -/

/-- `Local.Watch` is calling `fn`. -/
def WatcherPhase.Calling (phase : WatcherPhase) : Prop := ∃ openings, phase = .calling openings

/-- A consumer is being passed a segment by `Source.Read`. -/
def ConsumePhase.ReadDelivering : ConsumePhase → Prop
  | .inFeed _ _ _ (.readDeliver _ _) => True
  | _ => False

/-- The database and its source, the catalog, and the calls of `Local.Watch` that calls of
`Catalog.Watch` are making. -/
structure OwnStreams (S L W C : Type) where
  database : LocalWorld S L
  world : World Unit W C
  calls : W → Option L

namespace OwnStreams

/-- There are no streams, and nothing is running. -/
def start (source : Local L) (cacheSize : Nat) : OwnStreams S L W C where
  database := .start source
  world := .start cacheSize
  calls := fun _ => none

/-- The source changes one of its watchers. -/
def setWatcher [DecidableEq L] (e : OwnStreams S L W C) (l : L) (k : Watcher) :
    OwnStreams S L W C :=
  { e with database := { e.database with source := e.database.source.setWatcher l k } }

variable [DecidableEq S] [DecidableEq L] [DecidableEq W] [DecidableEq C]

/-- One step of the database, of its source or of the catalog. -/
inductive Step : OwnStreams S L W C → OwnStreams S L W C → Prop where
  /-- A step of the database or its source that neither calls the catalog, nor returns to the
  source. -/
  | database {e : OwnStreams S L W C} {s : LocalWorld S L}
      (hstep : LocalWorld.Step e.database s)
      (hquiet : ∀ i l k k', e.calls i = some l → e.database.source.watchers l = some k →
        s.source.watchers l = some k' → (k'.phase.Calling ↔ k.phase.Calling)) :
      Step e { e with database := s, world := { e.world with logs := s.log } }
  /-- A step of the catalog or a consumer in which the source has no part.  `Catalog.Watch`
  does not go on while it calls the source. -/
  | catalog {e : OwnStreams S L W C} {w : World Unit W C} (hstep : World.Step e.world w)
      (hlogs : w.logs = e.world.logs)
      (hdeliveries : ∀ i watch watch', e.world.watches i = some watch →
        w.watches i = some watch' →
          (∀ id, watch.deliveries id = none → watch'.deliveries id = none) ∧
            (e.calls i ≠ none → watch'.phase = watch.phase))
      (hreads : ∀ j k, w.consumers j = some k → k.phase.ReadDelivering →
        e.world.consumers j = some k) :
      Step e { e with world := w }
  /-- `Catalog.Watch` calls `Local.Watch`. -/
  | watch {e : OwnStreams S L W C} {i : W} {l : L} {watch : Watch Unit}
      {openings : List Segment} (hwatch : e.world.watches i = some watch)
      (hphase : watch.phase = .watching) (hcall : e.calls i = none)
      (hnew : e.database.source.watchers l = none) (htypes : watch.types ≠ some ∅)
      (hlock : e.database.source.lock = none) (hopenings : e.database.source.Openings openings) :
      Step e
        { e.setWatcher l (.start watch.types
            (.make e.database.source.bufferSize [] e.database.source.bufferSize_pos) openings) with
          calls := Function.update e.calls i (some l) }
  /-- `Local.Watch` passes a segment to the catalog. -/
  | pass {e : OwnStreams S L W C} {i : W} {l : L} {watch : Watch Unit} {k k' : Watcher}
      {seg : Segment} (hcall : e.calls i = some l) (hwatch : e.world.watches i = some watch)
      (hk : e.database.source.watchers l = some k)
      (hstep : Local.Step e.database.source (e.database.source.setWatcher l k'))
      (hpassed : k'.passed = k.passed ++ [seg]) :
      Step e
        { e.setWatcher l k' with
          world := { e.world with
            watches := Function.update e.world.watches i
              (some (watch.setDelivery seg.streamID (some (.finding seg)))) } }
  /-- The catalog is done with the segment, and returns to `Local.Watch`. -/
  | accept {e : OwnStreams S L W C} {i : W} {l : L} {watch : Watch Unit} {k : Watcher}
      {openings : List Segment} (hcall : e.calls i = some l)
      (hwatch : e.world.watches i = some watch) (hidle : ∀ id, watch.deliveries id = none)
      (hk : e.database.source.watchers l = some k) (hphase : k.phase = .calling openings) :
      Step e (e.setWatcher l { k with phase := .ready openings })
  /-- `Local.Watch` returns to `Catalog.Watch`. -/
  | returned {e : OwnStreams S L W C} {i : W} {l : L} {k : Watcher} {result : WatchResult}
      (hcall : e.calls i = some l) (hk : e.database.source.watchers l = some k)
      (hphase : k.phase = .returned result) :
      Step e { e with calls := Function.update e.calls i none }
  /-- `Local.Read`, called on behalf of a consumer, passes a segment to it. -/
  | read {e : OwnStreams S L W C} {j : C} {k : Consumer} {cs : StreamRef} {f : FeedRef}
      {confirmed : Bool} {reason : ReadReason} {seg : Segment} {exhausted : Bool}
      (hk : e.world.consumers j = some k)
      (hphase : k.phase = .inFeed cs f confirmed (.reading reason))
      (hload : loadSegment e.database.source.segmentSize (some k.types)
        (e.database.streams k.streamID) k.streamID k.cp = .ok (seg, exhausted))
      (hadvances : seg.begin < seg.end_) :
      Step e
        { e with
          world := { e.world with
            consumers := Function.update e.world.consumers j
              (some { k with phase := .inFeed cs f confirmed (.readDeliver reason seg) }) } }

/-- The state is reached by any number of steps. -/
def Reached (source : Local L) (cacheSize : Nat) (e : OwnStreams S L W C) : Prop :=
  Relation.ReflTransGen Step (start source cacheSize) e

end OwnStreams

/-! ## What a step of the source can do -/

section

variable [DecidableEq S] [DecidableEq L]

/-- A watcher stays, and keeps its types. -/
theorem Local.Step.watcher {l l' : Local L} (hstep : Local.Step l l') {w : L} {k : Watcher}
    (hk : l.watchers w = some k) : ∃ k', l'.watchers w = some k' ∧ k'.types = k.types := by
  have hset : ∀ {w' : L} {k₁ k₂ : Watcher}, l.watchers w' = some k₁ → k₂.types = k₁.types →
      ∃ k', Function.update l.watchers w' (some k₂) w = some k' ∧ k'.types = k.types := by
    intro w' k₁ k₂ hk₁ htypes
    by_cases heq : w = w'
    · subst heq
      cases hk.symm.trans hk₁
      exact ⟨k₂, Function.update_self .., htypes⟩
    · exact ⟨k, (Function.update_of_ne heq ..).trans hk, rfl⟩
  cases hstep with
  | @register w' types openings hnew _ _ _ =>
      have hne : w ≠ w' := by
        rintro rfl
        cases hnew.symm.trans hk
      exact ⟨k, (Function.update_of_ne hne ..).trans hk, rfl⟩
  | send _ hwatcher _ => exact hset hwatcher rfl
  | overflow _ hwatcher _ => exact hset hwatcher rfl
  | remove _ hwatcher => exact hset hwatcher rfl
  | pass hwatcher _ => exact hset hwatcher rfl
  | receive hwatcher _ _ => exact hset hwatcher rfl
  | accept hwatcher _ => exact hset hwatcher rfl
  | reject hwatcher _ => exact hset hwatcher rfl
  | channelClosed hwatcher _ _ => exact hset hwatcher rfl
  | cancel hwatcher _ => exact hset hwatcher rfl
  | unregister hwatcher _ _ => exact hset hwatcher rfl

theorem LocalWorld.Step.watcher {s s' : LocalWorld S L} (hstep : LocalWorld.Step s s') {w : L}
    {k : Watcher} (hk : s.source.watchers w = some k) :
    ∃ k', s'.source.watchers w = some k' ∧ k'.types = k.types := by
  cases hstep with
  | source hstep => exact hstep.watcher hk
  | @follow id b l f hstep =>
      have hwatchers : l.watchers = s.source.watchers := by cases hstep <;> rfl
      exact ⟨k, (congrFun hwatchers w).trans hk, rfl⟩
  | create _ | append _ _ | notify _ | run _ | watch _ _ | unsubscribe _ _ _ _ =>
      exact ⟨k, hk, rfl⟩

/-- At most one stream grows. -/
theorem LocalWorld.Step.log_eq {s s' : LocalWorld S L} (hstep : LocalWorld.Step s s') :
    s'.log = s.log ∨
      ∃ id log, (s.log id).Extends log ∧ s'.log = Function.update s.log id log := by
  have hset : ∀ {id : UUID} {log : EventLog} {b : Signal.Bus S},
      LocalWorld.log { s with streams := Function.update s.streams id (some log), bus := b } =
        Function.update s.log id log := by
    intro id log b
    funext id'
    by_cases heq : id' = id
    · subst heq
      simp [LocalWorld.log]
    · simp [LocalWorld.log, heq]
  cases hstep with
  | create hstream =>
      refine Or.inr ⟨_, _, ?_, hset⟩
      rw [LocalWorld.log, hstream]
      exact .refl _
  | append hstream hextends =>
      refine Or.inr ⟨_, _, ?_, hset⟩
      rw [LocalWorld.log, hstream]
      exact hextends
  | notify _ | run _ | watch _ _ | unsubscribe _ _ _ _ | follow _ | source _ => exact Or.inl rfl

/-- A watcher that passes a segment to `fn` was not calling it, and is calling it then. -/
theorem Local.Step.passing {l l' : Local L} (hstep : Local.Step l l') {w : L} {k k' : Watcher}
    {seg : Segment} (hk : l.watchers w = some k) (hk' : l'.watchers w = some k')
    (hpassed : k'.passed = k.passed ++ [seg]) : ¬ k.phase.Calling ∧ k'.phase.Calling := by
  have hsame : k'.passed ≠ k.passed := by
    intro hsame
    simp [hsame] at hpassed
  have hset : ∀ {w' : L} {k₁ k₂ : Watcher}, l.watchers w' = some k₁ →
      Function.update l.watchers w' (some k₂) w = some k' → k₁ = k ∧ k₂ = k' := by
    intro w' k₁ k₂ hk₁ hk₂
    obtain ⟨rfl, hnew⟩ | ⟨-, hold⟩ := update_eq_some hk₂
    · exact ⟨Option.some.inj (hk₁.symm.trans hk), Option.some.inj hnew⟩
    · cases hk.symm.trans hold
      exact absurd rfl hsame
  have hready : ∀ {openings}, k.phase = .ready openings → ¬ k.phase.Calling := by
    rintro openings hphase ⟨openings', hcalling⟩
    cases hphase.symm.trans hcalling
  cases hstep with
  | @register w' types openings hnew _ _ _ =>
      obtain ⟨rfl, -⟩ | ⟨-, hold⟩ := update_eq_some hk'
      · cases hnew.symm.trans hk
      · cases hk.symm.trans hold
        exact absurd rfl hsame
  | pass hwatcher hphase =>
      obtain ⟨rfl, rfl⟩ := hset hwatcher hk'
      exact ⟨hready hphase, _, rfl⟩
  | receive hwatcher hphase _ =>
      obtain ⟨rfl, rfl⟩ := hset hwatcher hk'
      exact ⟨hready hphase, _, rfl⟩
  | send _ hwatcher _ | overflow _ hwatcher _ | remove _ hwatcher | accept hwatcher _
  | reject hwatcher _ | channelClosed hwatcher _ _ | cancel hwatcher _
  | unregister hwatcher _ _ =>
      obtain ⟨rfl, rfl⟩ := hset hwatcher hk'
      exact absurd rfl hsame

end

/-- What a watcher passes to `fn` is complete for its types. -/
theorem LocalWorld.Delivers.passed_of {s : LocalWorld S L} (h : s.Delivers) {w : L} {k : Watcher}
    (hk : s.source.watchers w = some k) {seg : Segment} (hseg : seg ∈ k.passed) :
    seg.Of (s.log seg.streamID) k.types := by
  obtain ⟨hvalid, -⟩ := h.source.watchers w k hk
  obtain ⟨taken, hprogress⟩ := hvalid.progress
  rw [hprogress.passed] at hseg
  obtain ⟨seg', hseg', rfl⟩ := List.mem_map.mp hseg
  rw [filterSegment_streamID]
  exact filterSegment_of (hvalid.complete seg' (hprogress.within.subset hseg')) _

/-! ## What a step of the catalog can do -/

/-- A call of `Catalog.Watch` that has not just begun keeps its types. -/
theorem World.Step.watch_cases [DecidableEq W] [DecidableEq C] {w w' : World Unit W C}
    (hstep : World.Step w w') {i : W} {watch' : Watch Unit} (hwatch' : w'.watches i = some watch') :
    (w.watches i = none ∧ ∀ id, watch'.deliveries id = none) ∨
      ∃ watch, w.watches i = some watch ∧ watch'.types = watch.types := by
  cases hstep with
  | grow _ | consume _ _ | consumeStep _ _ => exact Or.inr ⟨watch', hwatch', rfl⟩
  | watch hnew _ =>
      obtain ⟨rfl, hstarted⟩ | ⟨-, hold⟩ := update_eq_some hwatch'
      · cases hstarted
        exact Or.inl ⟨hnew, fun _ => rfl⟩
      · exact Or.inr ⟨watch', hold, rfl⟩
  | @watchStep _ watch _ _ hwatch hstep =>
      obtain ⟨rfl, hmoved⟩ | ⟨-, hold⟩ := update_eq_some hwatch'
      · cases hmoved
        refine Or.inr ⟨watch, hwatch, ?_⟩
        cases hstep <;> rfl
      · exact Or.inr ⟨watch', hold, rfl⟩

/-- A call of `Catalog.Watch` stays. -/
theorem World.Step.watch_stays [DecidableEq W] [DecidableEq C] {w w' : World Unit W C}
    (hstep : World.Step w w') {i : W} {watch : Watch Unit} (hwatch : w.watches i = some watch) :
    ∃ watch', w'.watches i = some watch' := by
  have hset : ∀ (j : W) (other : Watch Unit),
      ∃ watch', Function.update w.watches j (some other) i = some watch' := by
    intro j other
    by_cases heq : i = j
    · subst heq
      exact ⟨other, Function.update_self ..⟩
    · exact ⟨watch, (Function.update_of_ne heq ..).trans hwatch⟩
  cases hstep with
  | grow _ | consume _ _ | consumeStep _ _ => exact ⟨watch, hwatch⟩
  | watch _ _ | watchStep _ _ => exact hset _ _

/-! ## The simulation -/

namespace OwnStreams

/-- What the calls of `Local.Watch` have to do with those of `Catalog.Watch`.  A segment is
being delivered to the catalog only while `Local.Watch` calls `fn`. -/
structure Linked (e : OwnStreams S L W C) : Prop where
  delivers : e.database.Delivers
  logs : e.world.logs = e.database.log
  calls : ∀ i l, e.calls i = some l → ∃ watch k, e.world.watches i = some watch ∧
    e.database.source.watchers l = some k ∧ k.types = watch.types ∧ watch.phase = .watching ∧
      (¬ k.phase.Calling → ∀ id, watch.deliveries id = none)
  distinct : ∀ i j l, e.calls i = some l → e.calls j = some l → i = j
  idle : ∀ i watch, e.world.watches i = some watch → e.calls i = none →
    ∀ id, watch.deliveries id = none

theorem Linked.start {segmentSize bufferSize : Nat} {segmentSize_pos : 0 < segmentSize}
    {bufferSize_pos : 0 < bufferSize} (cacheSize : Nat) :
    (start (Local.start segmentSize bufferSize segmentSize_pos bufferSize_pos) cacheSize :
      OwnStreams S L W C).Linked where
  delivers := .start
  logs := rfl
  calls := by intro i l h; cases h
  distinct := by intro i j l h; cases h
  idle := by intro i watch h; cases h

variable [DecidableEq S] [DecidableEq L] [DecidableEq W] [DecidableEq C]
  {e e' : OwnStreams S L W C}

omit [DecidableEq W] [DecidableEq C] in
/-- A step of the source is one of the database. -/
theorem Linked.setWatcher_delivers (h : e.Linked) {l : L} {k : Watcher}
    (hstep : Local.Step e.database.source (e.database.source.setWatcher l k)) :
    (e.setWatcher l k).database.Delivers :=
  h.delivers.step (.source hstep)

omit [DecidableEq C] in
/-- A call of `Local.Watch` and the call of `Catalog.Watch` that makes it move together. -/
theorem Linked.move (h : e.Linked) {i : W} {l : L} {watch : Watch Unit} {k : Watcher}
    {watches : W → Option (Watch Unit)} (hcall : e.calls i = some l)
    (hstep : Local.Step e.database.source (e.database.source.setWatcher l k))
    (hwatch : watches i = some watch) (hothers : ∀ j, j ≠ i → watches j = e.world.watches j)
    (htypes : k.types = watch.types) (hphase : watch.phase = .watching)
    (hidle : ¬ k.phase.Calling → ∀ id, watch.deliveries id = none) :
    ({ e.setWatcher l k with world := { e.world with watches := watches } } :
      OwnStreams S L W C).Linked where
  delivers := h.setWatcher_delivers hstep
  logs := h.logs
  calls := by
    intro j l' hcall'
    by_cases heq : j = i
    · subst heq
      cases hcall.symm.trans hcall'
      exact ⟨watch, k, hwatch, Function.update_self .., htypes, hphase, hidle⟩
    · -- Another call of `Catalog.Watch` has another call of `Local.Watch`.
      have hne : l' ≠ l := by
        rintro rfl
        exact heq (h.distinct j i l' hcall' hcall)
      obtain ⟨other, k', hother, hk', hrest⟩ := h.calls j l' hcall'
      exact ⟨other, k', (hothers j heq).trans hother,
        (Function.update_of_ne hne ..).trans hk', hrest⟩
  distinct := h.distinct
  idle := by
    intro j other hother hnone
    have hne : j ≠ i := by
      rintro rfl
      cases hcall.symm.trans hnone
    exact h.idle j other ((hothers j hne).symm.trans hother) hnone

omit [DecidableEq S] [DecidableEq W] [DecidableEq C] in
/-- Before a segment is passed to the catalog, the catalog is done with all others. -/
theorem Linked.passing (h : e.Linked) {i : W} {l : L} {watch : Watch Unit} {k k' : Watcher}
    {seg : Segment} (hcall : e.calls i = some l) (hwatch : e.world.watches i = some watch)
    (hk : e.database.source.watchers l = some k)
    (hstep : Local.Step e.database.source (e.database.source.setWatcher l k'))
    (hpassed : k'.passed = k.passed ++ [seg]) :
    k'.types = watch.types ∧ watch.phase = .watching ∧ k'.phase.Calling ∧
      ∀ id, watch.deliveries id = none := by
  have hk' : (e.database.source.setWatcher l k').watchers l = some k' := Function.update_self ..
  obtain ⟨hready, hcalling⟩ := hstep.passing hk hk' hpassed
  obtain ⟨watch₁, k₁, hwatch₁, hk₁, htypes, hphase, hidle⟩ := h.calls i l hcall
  cases hwatch.symm.trans hwatch₁
  cases hk.symm.trans hk₁
  obtain ⟨k₂, hk₂, hsame⟩ := hstep.watcher hk
  cases hk'.symm.trans hk₂
  exact ⟨hsame.trans htypes, hphase, hcalling, hidle hready⟩

theorem Linked.step (h : e.Linked) (hstep : Step e e') : e'.Linked := by
  cases hstep with
  | @database s hstep hquiet =>
      refine ⟨h.delivers.step hstep, rfl, ?_, h.distinct, h.idle⟩
      intro i l hcall
      obtain ⟨watch, k, hwatch, hk, htypes, hphase, hidle⟩ := h.calls i l hcall
      obtain ⟨k', hk', htypes'⟩ := hstep.watcher hk
      have hcalling := hquiet i l k k' hcall hk hk'
      exact ⟨watch, k', hwatch, hk', htypes'.trans htypes, hphase,
        fun hnot => hidle (mt hcalling.mpr hnot)⟩
  | @catalog w hstep hlogs hdeliveries hreads =>
      refine ⟨h.delivers, hlogs.trans h.logs, ?_, h.distinct, ?_⟩
      · intro i l hcall
        obtain ⟨watch, k, hwatch, hk, htypes, hphase, hidle⟩ := h.calls i l hcall
        obtain ⟨watch', hwatch'⟩ := hstep.watch_stays hwatch
        obtain ⟨hkept, hwaits⟩ := hdeliveries i watch watch' hwatch hwatch'
        have hbusy : e.calls i ≠ none := by
          rw [hcall]
          nofun
        refine ⟨watch', k, hwatch', hk, ?_, (hwaits hbusy).trans hphase,
          fun hnot id => hkept id (hidle hnot id)⟩
        obtain ⟨hnew, -⟩ | ⟨old, hold, hsame⟩ := hstep.watch_cases hwatch'
        · cases hnew.symm.trans hwatch
        · cases hold.symm.trans hwatch
          exact htypes.trans hsame.symm
      · intro i watch' hwatch' hnone id
        obtain ⟨-, hfresh⟩ | ⟨watch, hwatch, -⟩ := hstep.watch_cases hwatch'
        · exact hfresh id
        · exact (hdeliveries i watch watch' hwatch hwatch').1 id (h.idle i watch hwatch hnone id)
  | @watch i l watch openings hwatch hphase hcall hnew htypes hlock hopenings =>
      have hunused : ∀ j l', e.calls j = some l' → l' ≠ l := by
        rintro j l' hcall' rfl
        obtain ⟨-, k, -, hk, -⟩ := h.calls j l' hcall'
        cases hnew.symm.trans hk
      refine ⟨h.setWatcher_delivers (.register hnew htypes hlock hopenings), h.logs, ?_, ?_, ?_⟩
      · intro j l' hcall'
        obtain ⟨rfl, hsame⟩ | ⟨hne, hold⟩ := update_eq_some hcall'
        · cases hsame
          exact ⟨watch, _, hwatch, Function.update_self .., rfl, hphase,
            fun _ => h.idle j watch hwatch hcall⟩
        · obtain ⟨other, k, hother, hk, hrest⟩ := h.calls j l' hold
          exact ⟨other, k, hother,
            (Function.update_of_ne (hunused j l' hold) ..).trans hk, hrest⟩
      · intro j₁ j₂ l' h₁ h₂
        obtain ⟨rfl, hl₁⟩ | ⟨-, hold₁⟩ := update_eq_some h₁ <;>
          obtain ⟨rfl, hl₂⟩ | ⟨-, hold₂⟩ := update_eq_some h₂
        · rfl
        · cases hl₁
          exact absurd rfl (hunused j₂ _ hold₂)
        · cases hl₂
          exact absurd rfl (hunused j₁ _ hold₁)
        · exact h.distinct j₁ j₂ l' hold₁ hold₂
      · intro j other hother hnone
        have hne : j ≠ i := by
          rintro rfl
          cases (Function.update_self ..).symm.trans hnone
        exact h.idle j other hother ((Function.update_of_ne hne ..).symm.trans hnone)
  | pass hcall hwatch hk hstep hpassed =>
      obtain ⟨htypes, hphase, hcalling, -⟩ := h.passing hcall hwatch hk hstep hpassed
      exact h.move hcall hstep (Function.update_self ..)
        (fun j hne => Function.update_of_ne hne ..) htypes hphase (absurd hcalling)
  | @accept i l watch k openings hcall hwatch hidle hk hphase =>
      obtain ⟨watch₁, k₁, hwatch₁, hk₁, htypes, hwatching, -⟩ := h.calls i l hcall
      cases hwatch.symm.trans hwatch₁
      cases hk.symm.trans hk₁
      exact h.move hcall (.accept hk hphase) hwatch (fun _ _ => rfl) htypes hwatching
        fun _ => hidle
  | @returned i l k result hcall hk hphase =>
      refine ⟨h.delivers, h.logs, ?_, ?_, ?_⟩
      · intro j l' hcall'
        obtain ⟨-, hnone⟩ | ⟨-, hold⟩ := update_eq_some hcall'
        · cases hnone
        · exact h.calls j l' hold
      · intro j₁ j₂ l' h₁ h₂
        obtain ⟨-, hnone⟩ | ⟨-, hold₁⟩ := update_eq_some h₁
        · cases hnone
        · obtain ⟨-, hnone⟩ | ⟨-, hold₂⟩ := update_eq_some h₂
          · cases hnone
          · exact h.distinct j₁ j₂ l' hold₁ hold₂
      · intro j other hother hnone
        by_cases heq : j = i
        · -- `Local.Watch` returns only after `fn` has.
          subst heq
          obtain ⟨watch, k₁, hwatch, hk₁, -, -, hidle⟩ := h.calls j l hcall
          cases hother.symm.trans hwatch
          cases hk.symm.trans hk₁
          refine hidle ?_
          rintro ⟨openings, hcalling⟩
          cases hphase.symm.trans hcalling
        · exact h.idle j other hother ((Function.update_of_ne heq ..).symm.trans hnone)
  | @read j k cs f confirmed reason seg exhausted hk hphase hload hadvances =>
      exact ⟨h.delivers, h.logs, h.calls, h.distinct, h.idle⟩

/-- What the source does is what the catalog expects of one. -/
theorem Linked.simulates (h : e.Linked) (hstep : Step e e') :
    e'.world = e.world ∨ World.Step e.world e'.world := by
  cases hstep with
  | @database s hstep hquiet =>
      obtain hsame | ⟨id, log, hextends, hgrown⟩ := hstep.log_eq
      · left
        have hlogs : s.log = e.world.logs := hsame.trans h.logs.symm
        dsimp only
        rw [hlogs]
      · right
        rw [← h.logs] at hextends hgrown
        dsimp only
        rw [hgrown]
        exact .grow hextends
  | catalog hstep _ _ _ => exact Or.inr hstep
  | watch _ _ _ _ _ _ _ | accept _ _ _ _ _ | returned _ _ _ => exact Or.inl rfl
  | @pass i l watch k k' seg hcall hwatch hk hstep hpassed =>
      obtain ⟨htypes, hphase, -, hidle⟩ := h.passing hcall hwatch hk hstep hpassed
      have hmem : seg ∈ k'.passed := by
        rw [hpassed]
        exact List.mem_append_right _ (List.mem_singleton_self seg)
      have hof := (h.setWatcher_delivers hstep).passed_of (Function.update_self ..) hmem
      rw [htypes] at hof
      have hseg : seg.Of (e.world.logs seg.streamID) watch.types := by
        rw [h.logs]
        exact hof
      exact Or.inr (.watchStep hwatch (.deliver hphase (hidle seg.streamID) hseg))
  | @read j k cs f confirmed reason seg exhausted hk hphase hload hadvances =>
      obtain ⟨log, hstream, hid, hbegin, hof, -⟩ := loadSegment_ok hload
      have hseg : seg.Of (e.world.logs k.streamID) (some k.types) := by
        rw [h.logs, LocalWorld.log_eq hstream]
        exact hof
      exact Or.inr (.consumeStep hk (.readDeliver hphase hid hbegin hseg))

/-- A run of the database, its source and the catalog is one of the catalog. -/
theorem Linked.run {source : Local L} {cacheSize : Nat}
    (hstart : (OwnStreams.start source cacheSize : OwnStreams S L W C).Linked)
    (hrun : Reached source cacheSize e) :
    e.Linked ∧ World.Reaches (World.start cacheSize) e.world := by
  induction hrun with
  | refl => exact ⟨hstart, .refl⟩
  | tail _ hstep ih =>
      obtain ⟨hlinked, hreaches⟩ := ih
      refine ⟨hlinked.step hstep, ?_⟩
      obtain hsame | hworld := hlinked.simulates hstep
      · rw [hsame]
        exact hreaches
      · exact .tail hreaches hworld

/-! ## A run -/

section Sample

variable {source : Local L} {cacheSize : Nat}

/-- A run of the database and its source, before the catalog watches it. -/
theorem Reached.unwatched {s : LocalWorld S L}
    (h : LocalWorld.Reaches (.start source) s) :
    Reached source cacheSize
      (⟨s, { World.start cacheSize with logs := s.log }, fun _ => none⟩ :
        OwnStreams S L W C) := by
  induction h with
  | refl => exact .refl
  | tail _ hstep ih =>
      refine ih.tail (Step.database hstep ?_)
      intro i l k k' hcall
      cases hcall

theorem Reached.watched (h : Reached source cacheSize e) (i : W) {watch watch' : Watch Unit}
    {catalog : Catalog Unit} (hwatch : e.world.watches i = some watch)
    (hstep : Watch.Step e.world.logs e.world.catalog watch catalog watch')
    (hdeliveries : ∀ id, watch.deliveries id = none → watch'.deliveries id = none)
    (hphase : watch'.phase = watch.phase)
    (hreads : ∀ j k, e.world.consumers j = some k → ¬ k.phase.ReadDelivering) :
    Reached source cacheSize
      { e with
        world := { e.world with
          catalog := catalog
          watches := Function.update e.world.watches i (some watch') } } := by
  refine h.tail (.catalog (.watchStep hwatch hstep) rfl ?_ ?_)
  · intro j other other' hother hother'
    obtain ⟨rfl, hmoved⟩ | ⟨-, hold⟩ := update_eq_some hother'
    · cases hmoved
      cases hwatch.symm.trans hother
      exact ⟨hdeliveries, fun _ => hphase⟩
    · cases hold.symm.trans hother
      exact ⟨fun _ hnone => hnone, fun _ => rfl⟩
  · intro j k hk hreading
    exact absurd hreading (hreads j k hk)

theorem Reached.consumed (h : Reached source cacheSize e) (j : C) {k k' : Consumer}
    {catalog : Catalog Unit} (hk : e.world.consumers j = some k)
    (hstep : Consumer.Step (e.world.logs k.streamID) e.world.catalog k catalog k')
    (hreads : ¬ k'.phase.ReadDelivering) :
    Reached source cacheSize
      { e with
        world := { e.world with
          catalog := catalog
          consumers := Function.update e.world.consumers j (some k') } } := by
  refine h.tail (.catalog (.consumeStep hk hstep) rfl ?_ ?_)
  · intro i watch watch' hwatch hwatch'
    cases hwatch.symm.trans hwatch'
    exact ⟨fun _ hnone => hnone, fun _ => rfl⟩
  · intro i other hother hreading
    obtain ⟨-, hmoved⟩ | ⟨-, hold⟩ := update_eq_some hother
    · cases hmoved
      exact absurd hreading hreads
    · exact hold

end Sample

theorem setDelivery_quiet {w : Watch Unit} {id : UUID} {d : Delivery} {d' : Option Delivery}
    (hdelivery : w.deliveries id = some d) :
    ∀ id', w.deliveries id' = none → (w.setDelivery id d').deliveries id' = none := by
  intro id' hnone
  have hne : id' ≠ id := by
    rintro rfl
    cases hdelivery.symm.trans hnone
  exact (Function.update_of_ne hne ..).trans hnone

/-- A stream with two events is followed from its end, and nobody watches the source. -/
structure Opened (s : LocalWorld Unit Unit) : Prop where
  stream : s.streams (uuid 100) = some twoEvents
  segmentSize : s.source.segmentSize = 3
  watchers : s.source.watchers () = none
  lock : s.source.lock = none
  offsets : s.source.offsets = Function.update (fun _ => none) (uuid 100) (some 2)

theorem opened_reached : ∃ s : LocalWorld Unit Unit,
    LocalWorld.Reaches (.start (.start 3 1 (by decide) (by decide))) s ∧ Opened s := by
  have h : LocalWorld.Reaches
    (.start (.start 3 1 (by decide) (by decide)) : LocalWorld Unit Unit) _ := .refl
  -- A stream is created and two events are appended before the bus listens.
  have h : LocalWorld.Reaches _ _ := .tail h
    (@LocalWorld.Step.create Unit Unit _ _ _ (uuid 100) rfl)
  have h : LocalWorld.Reaches _ _ := .tail h
    (@LocalWorld.Step.append Unit Unit _ _ _ (uuid 100) _ twoEvents rfl
      ⟨Nat.zero_le _, twoEvents.entries, rfl, fun _ _ => Nat.zero_le _⟩)
  have h : LocalWorld.Reaches _ _ := .tail h (.run (.listen rfl))
  have h : LocalWorld.Reaches _ _ := .tail h
    (.run (@Signal.Bus.RunStep.wake Unit _ _ [] rfl ⟨List.nodup_nil, by
      intro i
      constructor
      · nofun
      · rintro ⟨sub, ⟨⟩, -⟩⟩))
  have h : LocalWorld.Reaches _ _ := .tail h (.run (.sent rfl))
  have h := h.followed (uuid 100)
    (.subscribe rfl rfl (@Signal.Bus.WatchStep.create Unit _ () _ _ 1 rfl (by decide)))
  have h := h.followed (uuid 100) (.register rfl (.register rfl rfl rfl))
  have h := h.followed (uuid 100) (.receive rfl (.receive rfl rfl))
  have h := h.followed (uuid 100) (.loadOffset rfl rfl)
  have h := h.followed (uuid 100)
    (@Follower.Step.announce Unit Unit _ _ _ _ _ _ () [] rfl rfl ⟨List.nodup_nil, by
      intro i
      constructor
      · nofun
      · rintro ⟨k, ⟨⟩, -⟩⟩)
  have h := h.followed (uuid 100) (.delivered rfl rfl)
  exact ⟨_, h, rfl, rfl, rfl, rfl, rfl⟩

/-- The feed of the stream, in which nothing is cached. -/
def openedFeed : Feed Unit where
  id := uuid 100
  source := ()
  types := none
  cache := { capacity := 1, segment := { value := ⟨2, 2, []⟩, version := 2 } }
  closed := false
  reads := 0

/-- The catalog watches the source, which has passed it the stream's opening segment. -/
structure Watched (e : OwnStreams Unit Unit Unit Unit) : Prop where
  database : e.database.streams (uuid 100) = some twoEvents
  segmentSize : e.database.source.segmentSize = 3
  free : e.world.catalog.critical = none
  listed : e.world.catalog.streams (uuid 100) = some 0
  stream : e.world.catalog.catalogStreams 0 = some
    { id := uuid 100, availableFeeds := {0}, currentFeed := some 0 }
  feed : e.world.catalog.feeds 0 = some openedFeed
  consumers : e.world.consumers () = none

theorem watched_reached : ∃ e : OwnStreams Unit Unit Unit Unit,
    Reached (.start 3 1 (by decide) (by decide)) 1 e ∧ Watched e := by
  obtain ⟨s, hs, hopened⟩ := opened_reached
  have hopenings : s.source.Openings [openingSegment (uuid 100) 2] := by
    refine ⟨List.nodup_singleton _, ?_⟩
    intro seg
    rw [List.mem_singleton, hopened.offsets]
    constructor
    · rintro rfl
      exact ⟨uuid 100, 2, Function.update_self .., rfl⟩
    · rintro ⟨id, offset, hoffset, rfl⟩
      obtain ⟨rfl, hend⟩ | ⟨-, hnone⟩ := update_eq_some hoffset
      · cases hend
        rfl
      · cases hnone
  have h : Reached _ 1 (_ : OwnStreams Unit Unit Unit Unit) := .unwatched hs
  have h : Reached _ _ _ := h.tail (.catalog
    (@World.Step.watch Unit Unit Unit _ _ _ () () none rfl Nat.one_pos) rfl
    (by intro i watch watch' hwatch; cases hwatch) (by intro j k hk; cases hk))
  have h : Reached _ _ _ := h.tail (@Step.watch Unit Unit Unit Unit _ _ _ _ _ () () _
    [openingSegment (uuid 100) 2] rfl rfl rfl hopened.watchers (Option.some_ne_none _).symm
    hopened.lock hopenings)
  have h : Reached _ _ _ := h.tail (@Step.pass Unit Unit Unit Unit _ _ _ _ _ () () _ _ _
    (openingSegment (uuid 100) 2) rfl rfl rfl (.pass rfl rfl) rfl)
  -- The catalog adds a feed, and appends the segment to it.
  have hnone : ∀ (j : Unit) (k : Consumer), (none : Option Consumer) = some k →
      ¬ k.phase.ReadDelivering := by
    intro j k hk
    cases hk
  have h := h.watched () rfl (@Watch.Step.add Unit _ _ _ (uuid 100) 0
    (openingSegment (uuid 100) 2) _ 0 _ rfl rfl rfl rfl rfl (Or.inr ⟨rfl, rfl, rfl⟩))
    (setDelivery_quiet rfl) rfl hnone
  have h := h.watched () rfl (@Watch.Step.addStore Unit _ _ _ (uuid 100) 0
    (openingSegment (uuid 100) 2) 0 _ rfl rfl rfl) (fun _ hidle => hidle) rfl hnone
  have h := h.watched () rfl (@Watch.Step.addPublish Unit _ _ _ (uuid 100) 0
    (openingSegment (uuid 100) 2) rfl rfl) (fun _ hidle => hidle) rfl hnone
  have h := h.watched () rfl (@Watch.Step.addReturn Unit _ _ _ (uuid 100) 0
    (openingSegment (uuid 100) 2) rfl rfl) (setDelivery_quiet rfl) rfl hnone
  have h := h.watched () rfl (@Watch.Step.check Unit _ _ _ (uuid 100) 0
    (openingSegment (uuid 100) 2) _ rfl rfl rfl) (setDelivery_quiet rfl) rfl hnone
  have h := h.watched () rfl (@Watch.Step.align Unit _ _ _ (uuid 100) 0
    (openingSegment (uuid 100) 2) _ rfl rfl rfl) (setDelivery_quiet rfl) rfl hnone
  have h := h.watched () rfl (@Watch.Step.append Unit _ _ _ (uuid 100) 0
    (openingSegment (uuid 100) 2) _ _ rfl rfl rfl) (setDelivery_quiet rfl) rfl hnone
  have h : Reached _ _ _ := h.tail (@Step.accept Unit Unit Unit Unit _ _ _ _ _ () () _ _ _ rfl rfl
    Watch.Only.start.set.set.set.add.set.set.idle rfl rfl)
  exact ⟨_, h, hopened.stream, hopened.segmentSize, rfl, rfl, rfl, rfl, rfl⟩

/-- Both events of the stream, as `Local.Read` loads them. -/
def bothEvents : Segment := ⟨uuid 100, 0, 2, [eventEnvelope 20 2 0, eventEnvelope 21 4 1]⟩

/-- A consumer that has read both events from the database. -/
def ownConsumer : Consumer where
  streamID := uuid 100
  types := {uuid 2, uuid 4}
  begin := 0
  cp := 2
  accepted := [bothEvents]
  phase := .inFeed 0 0 false (.compare (.before 0))

theorem ownConsumer_reached : ∃ e : OwnStreams Unit Unit Unit Unit,
    Reached (.start 3 1 (by decide) (by decide)) 1 e ∧
      e.world.consumers () = some ownConsumer := by
  obtain ⟨e, h, hwatched⟩ := watched_reached
  have hload : loadSegment e.database.source.segmentSize (some {uuid 2, uuid 4})
      (e.database.streams (uuid 100)) (uuid 100) 0 = .ok (bothEvents, true) := by
    rw [hwatched.segmentSize, hwatched.database]
    rfl
  -- A consumer begins with the first event, which is not cached.
  have h : Reached _ _ _ := h.tail (.catalog
    (@World.Step.consume Unit Unit Unit _ _ _ () (uuid 100) {uuid 2, uuid 4} 0
      hwatched.consumers (by decide)) rfl
    (by
      intro i watch watch' hwatch hwatch'
      cases hwatch.symm.trans hwatch'
      exact ⟨fun _ hidle => hidle, fun _ => rfl⟩)
    (by
      intro j k hk hreading
      dsimp only at hk
      obtain ⟨-, hstarted⟩ | ⟨hne, -⟩ := update_eq_some hk
      · cases hstarted
        cases hreading
      · exact absurd rfl hne))
  have h := h.consumed () rfl (.found rfl hwatched.free hwatched.listed) id
  have h := h.consumed () rfl (.enter rfl hwatched.stream rfl hwatched.feed rfl) id
  have h := h.consumed () rfl (.load rfl hwatched.feed) id
  have h := h.consumed () rfl
    (@Consumer.Step.startRead Unit _ _ _ 0 0 false (.before 0) _ rfl hwatched.feed rfl) id
  have h : Reached _ _ _ := h.tail (@Step.read Unit Unit Unit Unit _ _ _ _ _ () _ 0 0 false
    (.before 0) bothEvents true rfl rfl hload (by decide))
  have h := h.consumed () rfl
    (@Consumer.Step.readAccept Unit _ _ _ 0 0 false (.before 0) bothEvents rfl) id
  exact ⟨_, h, rfl⟩

/-! ## The streams that consumers see -/

/-- However the database, its source and the catalog take turns, the catalog is used as one
whose source keeps to its contract.  The segments that a consumer of the application's own
streams accepts follow each other from the offset that it was given, and their events are
exactly those that the database has there of the consumer's types. -/
theorem own_events_delivered {segmentSize bufferSize : Nat} {segmentSize_pos : 0 < segmentSize}
    {bufferSize_pos : 0 < bufferSize} {cacheSize : Nat}
    (h : Reached (.start segmentSize bufferSize segmentSize_pos bufferSize_pos) cacheSize e) :
    World.Reaches (World.start cacheSize) e.world ∧
      ∀ j k, e.world.consumers j = some k →
        Contiguous Segment.begin Segment.end_ k.begin k.accepted ∧
          (∀ seg ∈ k.accepted, seg.streamID = k.streamID) ∧
          k.accepted.flatMap Segment.envelopes =
            (e.database.log k.streamID).read (admits (some k.types)) k.begin
              (reach Segment.end_ k.begin k.accepted) := by
  obtain ⟨hlinked, hreaches⟩ := Linked.run (.start cacheSize) h
  refine ⟨hreaches, ?_⟩
  intro j k hk
  have hvalid := ((World.Invariant.start cacheSize).run hreaches).consumers j k hk
  have hevents := flatMap_envelopes hvalid.contiguous fun seg hseg => (hvalid.accepted seg hseg).2
  rw [hlinked.logs] at hevents
  exact ⟨hvalid.contiguous, fun seg hseg => (hvalid.accepted seg hseg).1, hevents⟩

theorem own_events_delivered_read : ∃ e : OwnStreams Unit Unit Unit Unit,
    Reached (.start 3 1 (by decide) (by decide)) 1 e ∧
      e.world.consumers () = some ownConsumer ∧
      World.Reaches (World.start 1) e.world ∧
      [eventEnvelope 20 2 0, eventEnvelope 21 4 1] =
        (e.database.log (uuid 100)).read (admits (some {uuid 2, uuid 4})) 0 2 := by
  obtain ⟨e, h, hconsumer⟩ := ownConsumer_reached
  obtain ⟨hreaches, hall⟩ := own_events_delivered h
  exact ⟨e, h, hconsumer, hreaches, (hall () ownConsumer hconsumer).2.2⟩

end OwnStreams

end Runkit.EventStream
