/-
  EventStream/CurrentFeed.lean --- the feeds that consumers are served from.

  Consumers load the current feed of a stream, and observe that feeds are closed, at
  any moment while streams come and leave.  What they can observe follows from the
  stages of the streams.
-/
import Runkit.EventStream.Stages

set_option autoImplicit false

namespace Runkit.EventStream

open Runkit.Foundation

variable {S W C : Type}

/-! ## Consumers -/

/-- The `catalogStream` that a call of `Catalog.Consume` has looked up. -/
def ConsumePhase.stream : ConsumePhase → Option StreamRef
  | .lookup => none
  | .loadFeed cs => some cs
  | .inFeed cs _ _ _ => some cs
  | .feedClosed cs => some cs
  | .returned _ => none

namespace Consumer

variable {log : EventLog} {c c' : Catalog S} {k k' : Consumer} {cs : StreamRef}

theorem Valid.streamOf (h : k.Valid log c) (hstream : k.phase.stream = some cs) :
    c.streamOf cs = some k.streamID := by
  have hphase := h.phase
  cases hk : k.phase with
  | lookup =>
      rw [hk] at hstream
      cases hstream
  | loadFeed cs' =>
      rw [hk] at hstream hphase
      cases hstream
      exact hphase
  | inFeed cs' f confirmed phase =>
      rw [hk] at hstream hphase
      cases hstream
      exact hphase.1
  | feedClosed cs' =>
      rw [hk] at hstream hphase
      cases hstream
      exact hphase
  | returned result =>
      rw [hk] at hstream
      cases hstream

/-- A `catalogStream` is looked up while nothing is being added or removed. -/
theorem Step.stream (hstep : Step log c k c' k') (hstream : k'.phase.stream = some cs) :
    k.phase.stream = some cs ∨ c.critical = none := by
  have hsame : ∀ {phase : ConsumePhase}, k.phase = phase → phase.stream = some cs →
      k.phase.stream = some cs ∨ c.critical = none := by
    intro phase hphase hstream
    rw [hphase]
    exact Or.inl hstream
  cases hstep with
  | notFound _ _ _ => cases hstream
  | found _ hfree _ => exact Or.inr hfree
  | noFeed _ _ _ => cases hstream
  | unwatched _ _ _ _ _ => cases hstream
  | enter hphase _ _ _ _ => exact hsame hphase hstream
  | load hphase _ => exact hsame hphase hstream
  | accept hphase => exact hsame hphase hstream
  | reject _ => cases hstream
  | wake hphase _ _ => exact hsame hphase hstream
  | waitClosed hphase _ _ => exact hsame hphase hstream
  | waitCanceled _ => cases hstream
  | startRead hphase _ _ => exact hsame hphase hstream
  | startReadClosed hphase _ _ => exact hsame hphase hstream
  | readDeliver hphase _ _ _ => exact hsame hphase hstream
  | readAccept hphase => exact hsame hphase hstream
  | readReject _ _ => cases hstream
  | caughtUp hphase _ _ => exact hsame hphase hstream
  | behind hphase _ _ => exact hsame hphase hstream
  | readStop hphase _ => exact hsame hphase hstream
  | @readReturn cs' f _ reason outcome feed hphase _ =>
      change (k.afterSourceRead cs' f feed.closed reason outcome).stream = some cs at hstream
      obtain ⟨hload, -⟩ | hclosed | ⟨result, hreturned, -⟩ :=
        k.afterSourceRead_cases cs' f feed.closed reason outcome
      · rw [hload] at hstream
        exact hsame hphase hstream
      · rw [hclosed] at hstream
        exact hsame hphase hstream
      · rw [hreturned] at hstream
        cases hstream
  | again hphase => exact hsame hphase hstream
  | canceled _ => cases hstream

/-- The feed that is entered is the current one. -/
theorem Step.entered {cs' : StreamRef} {f : FeedRef} {confirmed : Bool} {phase : FeedPhase}
    (hstep : Step log c k c' k') (hbefore : k.phase = .loadFeed cs)
    (hafter : k'.phase = .inFeed cs' f confirmed phase) :
    ∃ s, c.catalogStreams cs = some s ∧ s.currentFeed = some f := by
  cases hstep with
  | noFeed _ _ _ => cases hafter
  | unwatched _ _ _ _ _ => cases hafter
  | enter hphase hstream hcurrent _ _ =>
      cases hbefore.symm.trans hphase
      cases hafter
      exact ⟨_, hstream, hcurrent⟩
  | _ => simp_all

/-- No step of a consumer changes what the holder of the mutex is about to do. -/
theorem Step.critical (hstep : Step log c k c' k') : c'.critical = c.critical := by
  cases hstep <;> rfl

end Consumer

/-! ## Whole runs -/

namespace World

variable [DecidableEq W] [DecidableEq C] {w w' : World S W C} {cacheSize : Nat}

/-- What holds of the streams and of the consumers in every state. -/
structure Kept (w : World S W C) : Prop where
  invariant : w.Invariant
  catalog : w.catalog.Kept
  /-- No consumer has looked up a stream whose first feed is about to be stored. -/
  lookedUp : ∀ i k cs, w.consumers i = some k → k.phase.stream = some cs →
    ∀ f, w.catalog.critical ≠ some (.addStore cs f)

omit [DecidableEq W] [DecidableEq C] in
theorem Kept.start : (start cacheSize : World S W C).Kept where
  invariant := .start cacheSize
  catalog := .empty cacheSize
  lookedUp := by intro i k cs h; cases h

theorem Kept.step (h : w.Kept) (hstep : Step w w') : w'.Kept := by
  have hchange := hstep.change h.invariant
  refine ⟨h.invariant.step hstep, hchange.kept h.catalog h.invariant.catalog, ?_⟩
  -- A consumer that is where it was has looked up a stream that exists.
  have hold : ∀ i k cs, w.consumers i = some k → k.phase.stream = some cs →
      ∀ f, w'.catalog.critical ≠ some (.addStore cs f) := by
    intro i k cs hk hstream f hcritical
    obtain hbefore | hnone := hchange.addStore_new h.catalog h.invariant.catalog hcritical
    · exact h.lookedUp i k cs hk hstream f hbefore
    · have hexists := (h.invariant.consumers i k hk).streamOf hstream
      rw [Catalog.streamOf, hnone] at hexists
      cases hexists
  cases hstep with
  | grow _ => exact h.lookedUp
  | watch _ _ => exact h.lookedUp
  | watchStep _ _ => exact hold
  | consume _ _ =>
      intro i k cs hk hstream
      obtain ⟨-, hnew⟩ | ⟨-, hk⟩ := update_eq_some hk
      · cases hnew
        cases hstream
      · exact hold i k cs hk hstream
  | @consumeStep j k k' catalog hconsumer hstep =>
      intro i other cs hother hstream
      obtain ⟨-, hnew⟩ | ⟨-, hother⟩ := update_eq_some hother
      · cases hnew
        obtain hbefore | hfree := hstep.stream hstream
        · exact hold j k cs hconsumer hbefore
        · intro f hcritical
          change catalog.critical = _ at hcritical
          rw [hstep.critical, hfree] at hcritical
          cases hcritical
      · exact hold i other cs hother hstream

theorem kept_of_reaches (h : Reaches (start cacheSize) w) : w.Kept := by
  have hpreserves : ∀ v v' : World S W C, v.Kept → Step v v' → v'.Kept :=
    fun _ _ hv hstep => hv.step hstep
  exact run_preserves hpreserves h .start

/-! ## What consumers observe -/

/-- It has been published that the stream of a `catalogStream`, all of whose feeds
were removed, is not in the catalog. -/
def RemovalPublished (cacheSize : Nat) (w : World S W C) (cs : StreamRef) : Prop :=
  ∃ v s, Reaches (start cacheSize) v ∧ Reaches v w ∧ v.catalog.catalogStreams cs = some s ∧
    s.availableFeeds = ∅ ∧ s.id ∉ v.catalog.streamIDs

theorem RemovalPublished.step {cs : StreamRef} (h : RemovalPublished cacheSize w cs)
    (hstep : Step w w') : RemovalPublished cacheSize w' cs := by
  obtain ⟨v, s, hv, hw, hs⟩ := h
  exact ⟨v, s, hv, hw.tail hstep, hs⟩

/-- By the time that a stream is no longer listed, that has been published. -/
theorem removalPublished_of_unlisted (h : Reaches (start cacheSize) w) {cs : StreamRef}
    {id : UUID} (hs : w.catalog.streamOf cs = some id)
    (hunlisted : w.catalog.streams id ≠ some cs) : RemovalPublished cacheSize w cs := by
  induction h with
  | refl => cases hs
  | @tail v v' hrun hstep ih =>
      have hkept := kept_of_reaches hrun
      have hkept' := hkept.step hstep
      obtain ⟨hs₀, hunlisted₀⟩ | hids :=
        (hstep.change hkept.invariant).unlisted_published hkept.invariant.catalog hs hunlisted
      · exact (ih hs₀ hunlisted₀).step hstep
      · obtain ⟨s, hstream, rfl⟩ := Option.map_eq_some_iff.mp hs
        refine ⟨v', s, hrun.tail hstep, .refl, hstream, ?_, hids⟩
        by_contra hne
        exact hunlisted ((hkept'.catalog.stages cs s hstream).listed
          (Finset.nonempty_iff_ne_empty.mpr hne))

/-- Nor has it been published before. -/
theorem not_removalPublished {cs : StreamRef} (id : UUID)
    (hs : w.catalog.streamOf cs = some id) (hlisted : w.catalog.streams id = some cs) :
    ¬ RemovalPublished cacheSize w cs := by
  rintro ⟨v, s, hv, hrun, hstream, hnone, hids⟩
  have hkept := kept_of_reaches hv
  have hunlisted : v.catalog.streams s.id ≠ some cs := by
    cases hkept.catalog.stages cs s hstream with
    | adding _ havailable _ _ _ =>
        rw [hnone] at havailable
        exact absurd havailable.symm (Finset.singleton_ne_empty _)
    | added _ havailable _ _ _ =>
        rw [hnone] at havailable
        exact absurd havailable.symm (Finset.singleton_ne_empty _)
    | removing _ _ _ _ hpublished => exact absurd hpublished hids
    | removed _ _ _ _ _ hpublished => exact absurd hpublished hids
    | settled _ hsettled =>
        cases hsettled with
        | present _ _ _ hpublished => exact absurd hpublished hids
        | gone _ _ hunlisted => exact hunlisted
  have hpreserves : ∀ u u' : World S W C,
      (u.Kept ∧ u.catalog.streamOf cs = some s.id ∧ u.catalog.streams s.id ≠ some cs) →
        Step u u' →
          u'.Kept ∧ u'.catalog.streamOf cs = some s.id ∧ u'.catalog.streams s.id ≠ some cs := by
    intro u u' hu hstep
    obtain ⟨hkept, hs, hunlisted⟩ := hu
    have hchange := hstep.change hkept.invariant
    exact ⟨hkept.step hstep, hchange.evolves.streams cs s.id hs,
      hchange.unlisted hs hunlisted⟩
  obtain ⟨-, hs', hunlisted'⟩ :=
    run_preserves hpreserves hrun ⟨hkept, Catalog.streamOf_eq hstream, hunlisted⟩
  cases hs.symm.trans hs'
  exact hunlisted' hlisted

/-- The `catalogStream` has lost its last feed, and that is about to be published. -/
def Withdrawing (w : World S W C) (cs : StreamRef) : Prop :=
  ∃ f feed, w.catalog.critical = some (.removePublish f) ∧ w.catalog.feeds f = some feed ∧
    w.catalog.streams feed.id = some cs

/-- What holds of the streams of the catalog, and of what consumers observe, in every
state.  What `Catalog.m` guards is described for when the mutex is free. -/
structure CatalogIntegrity (cacheSize : Nat) (w : World S W C) : Prop where
  /-- The published streams are those in the catalog. -/
  published : w.catalog.critical = none → ∀ id,
    id ∈ w.catalog.streamIDs ↔ ∃ cs, w.catalog.streams id = some cs
  /-- They are those with at least one available feed. -/
  available : w.catalog.critical = none → ∀ id, (∃ cs, w.catalog.streams id = some cs) ↔
    ∃ cs s, w.catalog.catalogStreams cs = some s ∧ s.id = id ∧ s.availableFeeds.Nonempty
  /-- The current feed of each is one of those. -/
  current : w.catalog.critical = none → ∀ id cs, w.catalog.streams id = some cs →
    ∃ s f, w.catalog.catalogStreams cs = some s ∧ s.id = id ∧ s.currentFeed = some f ∧
      f ∈ s.availableFeeds
  /-- A current feed is never closed. -/
  serving : ∀ cs s f, w.catalog.catalogStreams cs = some s → s.currentFeed = some f →
    ∃ feed, w.catalog.feeds f = some feed ∧ feed.closed = false
  /-- A current feed stays so until `Catalog.remove` of that feed stores another one. -/
  replaced : ∀ w', Step w w' → ∀ cs s f, w.catalog.catalogStreams cs = some s →
    s.currentFeed = some f →
    (∃ s', w'.catalog.catalogStreams cs = some s' ∧ s'.currentFeed = some f) ∨
      w.catalog.critical = some (.removeStore cs f)
  /-- When a consumer can observe that its feed is closed, there is another current
  feed, or there is none and that has been published. -/
  observed : ∀ i k cs f confirmed phase feed, w.consumers i = some k →
    k.phase = .inFeed cs f confirmed phase → w.catalog.feeds f = some feed →
    feed.closed = true →
    ∃ s, w.catalog.catalogStreams cs = some s ∧ s.currentFeed ≠ some f ∧
      (s.currentFeed = none → ¬ w.Withdrawing cs → RemovalPublished cacheSize w cs)
  /-- A feed that has been closed is never entered again. -/
  reentered : ∀ f feed, w.catalog.feeds f = some feed → feed.closed = true →
    ∀ w', Reaches w w' → ∀ i k c k' cs cs' confirmed phase, w'.consumers i = some k →
      Consumer.Step (w'.logs k.streamID) w'.catalog k c k' → k.phase = .loadFeed cs →
        k'.phase ≠ .inFeed cs' f confirmed phase

omit [DecidableEq W] [DecidableEq C] in
/-- A stream that is listed when the mutex is free has a current feed. -/
theorem Kept.present (h : w.Kept) (hfree : w.catalog.critical = none) {id : UUID}
    {cs : StreamRef} (hlisted : w.catalog.streams id = some cs) :
    ∃ s f, w.catalog.catalogStreams cs = some s ∧ s.id = id ∧ s.currentFeed = some f ∧
      f ∈ s.availableFeeds ∧ id ∈ w.catalog.streamIDs := by
  obtain ⟨s, hs, rfl⟩ := Option.map_eq_some_iff.mp (h.invariant.catalog.streams id cs hlisted)
  cases (h.catalog.stages cs s hs).settled_of_idle (Catalog.idle_of_free hfree) with
  | @present f hmember hcurrent _ hpublished =>
      exact ⟨s, f, hs, rfl, hcurrent, hmember, hpublished⟩
  | gone _ _ hunlisted => exact absurd hlisted hunlisted

/-- What a consumer finds when it observes that its feed is closed. -/
theorem Kept.observed (h : w.Kept) (hreached : Reaches (World.start cacheSize) w) {i : C}
    {k : Consumer} {cs : StreamRef} {f : FeedRef} {confirmed : Bool} {phase : FeedPhase}
    {feed : Feed S} (hk : w.consumers i = some k) (hphase : k.phase = .inFeed cs f confirmed phase)
    (hfeed : w.catalog.feeds f = some feed) (hclosed : feed.closed = true) :
    ∃ s, w.catalog.catalogStreams cs = some s ∧ s.currentFeed ≠ some f ∧
      (s.currentFeed = none → ¬ w.Withdrawing cs → RemovalPublished cacheSize w cs) := by
  have hstream : k.phase.stream = some cs := by rw [hphase]; rfl
  have hstreamOf := (h.invariant.consumers i k hk).streamOf hstream
  obtain ⟨s, hs, hid⟩ := Option.map_eq_some_iff.mp hstreamOf
  refine ⟨s, hs, ?_, ?_⟩
  · intro hcurrent
    exact h.catalog.leaving f (Or.inl ⟨feed, hfeed, hclosed⟩) cs s hs (Or.inr hcurrent)
  · intro hnone hwithdrawing
    cases h.catalog.stages cs s hs with
    | adding hcritical _ _ _ _ => exact absurd hcritical (h.lookedUp i k cs hk hstream _)
    | added _ _ hcurrent _ _ => cases hnone.symm.trans hcurrent
    | removing _ _ hcurrent _ _ => cases hnone.symm.trans hcurrent
    | @removed g types hcritical hg _ _ hlisted _ =>
        obtain ⟨leaving, hleaving, heq⟩ := Option.map_eq_some_iff.mp hg
        refine absurd ⟨g, leaving, hcritical, hleaving, ?_⟩ hwithdrawing
        rwa [(Prod.mk.inj heq).1]
    | settled _ hsettled =>
        cases hsettled with
        | present _ hcurrent _ _ => cases hnone.symm.trans hcurrent
        | gone _ _ hunlisted =>
            rw [hid] at hunlisted
            exact removalPublished_of_unlisted hreached hstreamOf hunlisted

/-- A feed that has been closed stays closed. -/
theorem closed_of_reaches {f : FeedRef} {feed : Feed S} (h : w.Kept) (hrun : Reaches w w')
    (hfeed : w.catalog.feeds f = some feed) (hclosed : feed.closed = true) :
    ∃ feed', w'.catalog.feeds f = some feed' ∧ feed'.closed = true := by
  have hpreserves : ∀ v v' : World S W C,
      (v.Kept ∧ ∃ feed, v.catalog.feeds f = some feed ∧ feed.closed = true) → Step v v' →
        v'.Kept ∧ ∃ feed, v'.catalog.feeds f = some feed ∧ feed.closed = true := by
    intro v v' hv hstep
    obtain ⟨hkept, feed, hfeed, hclosed⟩ := hv
    obtain ⟨feed', hfeed', -, hkeeps⟩ := (hstep.change hkept.invariant).feed_kept hfeed
    exact ⟨hkept.step hstep, feed', hfeed', (hkeeps hclosed).1⟩
  exact (run_preserves hpreserves hrun ⟨h, feed, hfeed, hclosed⟩).2

/-- The catalog lists and publishes the streams that have feeds, and serves consumers
from feeds that are not closed. -/
theorem catalog_integrity (h : Reaches (start cacheSize) w) : CatalogIntegrity cacheSize w := by
  have hkept := kept_of_reaches h
  have hlisted : ∀ cs s, w.catalog.catalogStreams cs = some s → s.availableFeeds.Nonempty →
      w.catalog.streams s.id = some cs :=
    fun cs s hs hnonempty => (hkept.catalog.stages cs s hs).listed hnonempty
  refine ⟨?_, ?_, ?_, ?_, ?_, ?_, ?_⟩
  · intro hfree id
    refine ⟨fun hid => Option.ne_none_iff_exists'.mp (hkept.catalog.published id hid), ?_⟩
    rintro ⟨cs, hstream⟩
    obtain ⟨s, f, -, -, -, -, hpublished⟩ := hkept.present hfree hstream
    exact hpublished
  · intro hfree id
    refine ⟨?_, ?_⟩
    · rintro ⟨cs, hstream⟩
      obtain ⟨s, f, hs, hid, -, hmember, -⟩ := hkept.present hfree hstream
      exact ⟨cs, s, hs, hid, f, hmember⟩
    · rintro ⟨cs, s, hs, rfl, hnonempty⟩
      exact ⟨cs, hlisted cs s hs hnonempty⟩
  · intro hfree id cs hstream
    obtain ⟨s, f, hs, hid, hcurrent, hmember, -⟩ := hkept.present hfree hstream
    exact ⟨s, f, hs, hid, hcurrent, hmember⟩
  · intro cs s f hs hcurrent
    obtain ⟨types, hfeedOf⟩ := hkept.invariant.catalog.members cs s hs f (Or.inr hcurrent)
    obtain ⟨feed, hfeed, -⟩ := Option.map_eq_some_iff.mp hfeedOf
    refine ⟨feed, hfeed, ?_⟩
    by_contra hclosed
    exact hkept.catalog.leaving f (Or.inl ⟨feed, hfeed, by simpa using hclosed⟩) cs s hs
      (Or.inr hcurrent)
  · intro w' hstep cs s f hs hcurrent
    exact (hstep.change hkept.invariant).current hkept.catalog hs hcurrent
  · intro i k cs f confirmed phase feed hk hphase hfeed hclosed
    exact hkept.observed h hk hphase hfeed hclosed
  · intro f feed hfeed hclosed w' hrun i k c k' cs cs' confirmed phase _ hstep hbefore hafter
    obtain ⟨feed', hfeed', hclosed'⟩ := closed_of_reaches hkept hrun hfeed hclosed
    obtain ⟨s, hs, hcurrent⟩ := hstep.entered hbefore hafter
    exact (kept_of_reaches (h.trans hrun)).catalog.leaving f (Or.inl ⟨feed', hfeed', hclosed'⟩)
      cs s hs (Or.inr hcurrent)

/-- A consumer whose feed is closed, and that finds no other one, returns. -/
theorem notFound_of_closed {i : C} {k : Consumer} {cs : StreamRef} {f : FeedRef}
    {confirmed : Bool} {version : Nat} {feed : Feed S} {s : CatalogStream}
    (hk : w.consumers i = some k)
    (hphase : k.phase = .inFeed cs f confirmed (.wait version))
    (hfeed : w.catalog.feeds f = some feed) (hclosed : feed.closed = true)
    (hs : w.catalog.catalogStreams cs = some s) (hcurrent : s.currentFeed = none) :
    ∃ w', Reaches w w' ∧ w'.catalog = w.catalog ∧
      w'.consumers i = some { k with phase := .returned .streamNotFound } := by
  have h := World.Reaches.consumed (w := w) .refl i hk (.waitClosed hphase hfeed hclosed)
  have h := h.consumed i (Function.update_self ..) (.again rfl)
  have h := h.consumed i (Function.update_self ..) (.noFeed rfl hs hcurrent)
  exact ⟨_, h, rfl, Function.update_self ..⟩

end World

/-! ## A run -/

/-- A consumer waits in a feed that is closed, while no feed is current. -/
def LateConsumer (w : World Bool Bool Unit) : Prop :=
  ∃ k version feed s, w.consumers () = some k ∧ k.streamID = uuid 100 ∧
    k.phase = .inFeed 0 0 false (.wait version) ∧ w.catalog.feeds 0 = some feed ∧
    feed.closed = true ∧ w.catalog.catalogStreams 0 = some s ∧ s.currentFeed = none

/-- A consumer waits in a feed that is closed, and another feed has become the current
one.  No call holds the mutex. -/
structure Replaced (w : World Bool Bool Unit) : Prop where
  free : w.catalog.critical = none
  consumer : ∃ k version, w.consumers () = some k ∧ k.streamID = uuid 100 ∧
    k.phase = .inFeed 0 0 false (.wait version)
  closed : ∃ feed, w.catalog.feeds 0 = some feed ∧ feed.closed = true
  stream : w.catalog.catalogStreams 0 = some ⟨uuid 100, {1}, some 1⟩
  listed : w.catalog.streams (uuid 100) = some 0
  published : uuid 100 ∈ w.catalog.streamIDs
  feed : ∃ feed, w.catalog.feeds 1 = some feed ∧ feed.id = uuid 100
  watch : ∃ watch, w.watches true = some watch ∧ watch.phase = .watching ∧
    watch.feeds = [(uuid 100, 1)] ∧ ∀ id, watch.deliveries id = none

/-- Two sources deliver the same stream.  The first one is removed while a consumer is
in its feed. -/
theorem replaced_reached : ∃ w, World.Reaches (World.start 1) w ∧ Replaced w := by
  obtain ⟨w, h, hfed⟩ := fed_reached (C := Unit) false false
  have hsegment : secondSegment.Of (w.logs (uuid 100)) none := by
    rw [hfed.log]
    exact secondSegment_of
  have hcache : Cache.new w.catalog.cacheSize secondSegment.begin = Cache.new 1 1 := by
    rw [hfed.cacheSize]
    rfl
  -- The second source delivers the stream as well.
  have h : World.Reaches _ _ := .tail h (@World.Step.watch Bool Bool Unit _ _ _ true true none
    (hfed.watches true (by decide)) (by rw [hfed.cacheSize]; exact Nat.one_pos))
  have h := h.watched true rfl (@Watch.Step.deliver Bool _ _ _ secondSegment rfl rfl hsegment)
  have h := h.watched true rfl (@Watch.Step.add Bool _ _ _ (uuid 100) 1 secondSegment _ 0 _ rfl
    rfl hfed.free hfed.unused hcache (Or.inl ⟨hfed.listed, hfed.stream⟩))
  have h := h.watched true rfl
    (@Watch.Step.addReturn Bool _ _ _ (uuid 100) 1 secondSegment rfl rfl)
  have h := h.watched true rfl
    (@Watch.Step.check Bool _ _ _ (uuid 100) 1 secondSegment _ rfl rfl rfl)
  have h := h.watched true rfl
    (@Watch.Step.align Bool _ _ _ (uuid 100) 1 secondSegment _ rfl rfl rfl)
  have h := h.watched true rfl
    (@Watch.Step.append Bool _ _ _ (uuid 100) 1 secondSegment _ _ rfl rfl rfl)
  -- A consumer waits in the feed of the first one.
  have h : World.Reaches _ _ := .tail h (@World.Step.consume Bool Bool Unit _ _ _ () (uuid 100)
    {uuid 2, uuid 4} 2 (hfed.consumers ()) (by decide))
  have h := h.consumed () rfl (.found rfl rfl rfl)
  have h := h.consumed () rfl (.enter rfl rfl rfl hfed.feed rfl)
  have h := h.consumed () rfl (.load rfl hfed.feed)
  -- The first feed is removed.
  have h := h.watched false hfed.watch (@Watch.Step.stop Bool _ _ _ rfl fun _ => rfl)
  have h := h.watched false rfl
    (@Watch.Step.remove Bool _ _ _ 0 [] _ 0 _ rfl rfl hfed.feed rfl rfl)
  have h := h.watched false rfl
    (@Watch.Step.removeStore Bool _ _ _ 0 [] 0 _ 1 rfl rfl rfl (by decide))
  have h := h.watched false rfl (@Watch.Step.removeClose Bool _ _ _ 0 [] _ rfl rfl hfed.feed)
  have h := h.watched false rfl (@Watch.Step.removeReturn Bool _ _ _ 0 [] rfl rfl)
  exact ⟨_, h, rfl, ⟨_, _, rfl, rfl, rfl⟩, ⟨_, rfl, rfl⟩, rfl, rfl, hfed.published, ⟨_, rfl, rfl⟩,
    ⟨_, rfl, rfl, rfl, Watch.Only.start.set.set.set.add.set.set.idle⟩⟩

/-- Before the consumer observes that its feed is closed, the second feed is removed as
well. -/
theorem Replaced.removed {w : World Bool Bool Unit} (h : Replaced w) :
    ∃ v v' : World Bool Bool Unit, World.Reaches w v ∧ World.Reaches w v' ∧
      LateConsumer v ∧ v.catalog.streamOf 0 = some (uuid 100) ∧
      v.catalog.streams (uuid 100) = some 0 ∧ uuid 100 ∈ v.catalog.streamIDs ∧
      LateConsumer v' ∧ v'.catalog.critical = none := by
  obtain ⟨k, version, hk, hid, hphase⟩ := h.consumer
  obtain ⟨closed, hclosed, hisClosed⟩ := h.closed
  obtain ⟨feed, hfeed, hfeedID⟩ := h.feed
  obtain ⟨watch, hwatch, hwatching, hfeeds, hidle⟩ := h.watch
  have hlisted : w.catalog.streams feed.id = some 0 := by rw [hfeedID]; exact h.listed
  have hremoving : WatchPhase.removing (watch.feeds.map Prod.snd) = .removing [1] := by
    rw [hfeeds]
    rfl
  have hrun := World.Reaches.watched (w := w) .refl true hwatch (.stop hwatching hidle)
  have hrun := hrun.watched true rfl
    (@Watch.Step.remove Bool _ _ _ 1 [] _ 0 _ hremoving h.free hfeed hlisted h.stream)
  have hrun := hrun.watched true rfl
    (@Watch.Step.removeLast Bool _ _ _ 1 [] 0 _ hremoving rfl rfl rfl)
  have hrest := hrun.watched true rfl
    (@Watch.Step.removePublish Bool _ _ _ 1 [] _ hremoving rfl hfeed)
  have hrest := hrest.watched true rfl
    (@Watch.Step.removeClose Bool _ _ _ 1 [] _ hremoving rfl hfeed)
  have hrest := hrest.watched true rfl
    (@Watch.Step.removeReturn Bool _ _ _ 1 [] hremoving rfl)
  exact ⟨_, _, hrun, hrest,
    ⟨k, version, closed, _, hk, hid, hphase, hclosed, hisClosed, rfl, rfl⟩,
    rfl, h.listed, h.published,
    ⟨k, version, closed, _, hk, hid, hphase, hclosed, hisClosed, rfl, rfl⟩,
    rfl⟩

/-- A consumer that is late finds the second feed, or finds none after that has been
published. -/
theorem catalog_integrity_late : ∃ w v : World Bool Bool Unit,
    Replaced w ∧ World.CatalogIntegrity 1 w ∧ LateConsumer v ∧ v.catalog.critical = none ∧
      World.CatalogIntegrity 1 v ∧ World.RemovalPublished 1 v 0 := by
  obtain ⟨w, h, hreplaced⟩ := replaced_reached
  obtain ⟨-, v, -, hrun, -, -, -, -, hlate, hfree⟩ := hreplaced.removed
  have hintegrity := World.catalog_integrity (h.trans hrun)
  refine ⟨w, v, hreplaced, World.catalog_integrity h, hlate, hfree, hintegrity, ?_⟩
  obtain ⟨k, version, feed, s, hk, -, hphase, hfeed, hclosed, hs, hnone⟩ := hlate
  obtain ⟨s', hs', -, hpublished⟩ :=
    hintegrity.observed () k 0 0 false _ feed hk hphase hfeed hclosed
  cases hs.symm.trans hs'
  apply hpublished hnone
  rintro ⟨f, leaving, hcritical, -⟩
  cases hfree.symm.trans hcritical

/-- The consumer observes that its feed is closed before the removal of the stream is
published, and returns although the stream is still published. -/
theorem closure_observed_early : ∃ w w' : World Bool Bool Unit,
    World.Reaches (World.start 1) w ∧ LateConsumer w ∧ ¬ World.RemovalPublished 1 w 0 ∧
      World.Reaches w w' ∧
      (∃ k, w'.consumers () = some k ∧ k.streamID = uuid 100 ∧
        k.phase = .returned .streamNotFound) ∧
      uuid 100 ∈ w'.catalog.streamIDs := by
  obtain ⟨w₀, h₀, hreplaced⟩ := replaced_reached
  obtain ⟨w, -, hrun, -, hlate, hs, hlisted, hpublished, -⟩ := hreplaced.removed
  have h := h₀.trans hrun
  obtain ⟨k, version, feed, s, hk, hid, hphase, hfeed, hclosed, hstream, hcurrent⟩ := hlate
  obtain ⟨w', h', hcatalog, hreturned⟩ :=
    World.notFound_of_closed hk hphase hfeed hclosed hstream hcurrent
  refine ⟨w, w', h, ⟨k, version, feed, s, hk, hid, hphase, hfeed, hclosed, hstream, hcurrent⟩,
    World.not_removalPublished (uuid 100) hs hlisted, h', ⟨_, hreturned, hid, rfl⟩, ?_⟩
  rwa [hcatalog]

end Runkit.EventStream
