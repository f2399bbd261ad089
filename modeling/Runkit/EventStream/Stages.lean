/-
  EventStream/Stages.lean --- how streams come into the catalog and leave it.

  `Catalog.add` and `Catalog.remove` change the set of streams, the current feed of
  a stream and the published set one after the other.  `Change` says once what a
  step of any goroutine can do to the catalog.  Each `catalogStream` is at all times
  in one of a few stages (`Stage`), which say how far a change has got, and each
  change keeps that so (`Change.kept`).
-/
import Runkit.EventStream.Delivery

set_option autoImplicit false

namespace Runkit.EventStream

open Runkit.Foundation

variable {S W C : Type}

/-! ## What a step can do to the catalog -/

namespace Catalog

/-- What a step of any goroutine can do to the catalog. -/
inductive Change : Catalog S → Catalog S → Prop where
  | same {c : Catalog S} : Change c c
  /-- The cache of a feed, or the number of reads in progress, which does not grow
  once the feed is closed. -/
  | feed {c : Catalog S} {f : FeedRef} {feed feed' : Feed S} (hfeed : c.feeds f = some feed)
      (hid : feed'.id = feed.id) (hsource : feed'.source = feed.source)
      (htypes : feed'.types = feed.types) (hclosed : feed'.closed = feed.closed)
      (hreads : feed.closed = true → feed'.reads ≤ feed.reads) :
      Change c (c.setFeed f feed')
  | add {c : Catalog S} {cs : StreamRef} {s : CatalogStream} {f : FeedRef} {feed : Feed S}
      (hfree : c.critical = none) (hfresh : c.feeds f = none) (hopen : feed.closed = false)
      (hprovides : c.Provides feed.id cs s) :
      Change c (c.insertFeed cs s f feed)
  | addStore {c : Catalog S} {cs : StreamRef} {s : CatalogStream} {f : FeedRef}
      (hcritical : c.critical = some (.addStore cs f)) (hstream : c.catalogStreams cs = some s) :
      Change c
        { c.setStream cs { s with currentFeed := some f } with
          critical := some (.addPublish f) }
  | addPublish {c : Catalog S} {f : FeedRef} {id : UUID} {types : TypeFilter}
      (hcritical : c.critical = some (.addPublish f)) (hfeed : c.feedOf f = some (id, types)) :
      Change c
        { c with
          streamIDs := insert id c.streamIDs
          critical := some (.addReturn f) }
  | addReturn {c : Catalog S} {f : FeedRef} (hcritical : c.critical = some (.addReturn f)) :
      Change c { c with critical := none }
  | remove {c : Catalog S} {f : FeedRef} {feed : Feed S} {cs : StreamRef} {s : CatalogStream}
      (hfree : c.critical = none) (hfeed : c.feeds f = some feed)
      (hstreams : c.streams feed.id = some cs) (hstream : c.catalogStreams cs = some s) :
      Change c (c.deleteFeed cs s f)
  | removeStore {c : Catalog S} {f next : FeedRef} {cs : StreamRef} {s : CatalogStream}
      (hcritical : c.critical = some (.removeStore cs f)) (hstream : c.catalogStreams cs = some s)
      (hnext : next ∈ s.availableFeeds) :
      Change c
        { c.setStream cs { s with currentFeed := some next } with
          critical := some (.removeClose f) }
  | removeLast {c : Catalog S} {f : FeedRef} {cs : StreamRef} {s : CatalogStream}
      (hcritical : c.critical = some (.removeStore cs f)) (hstream : c.catalogStreams cs = some s)
      (hnone : s.availableFeeds = ∅) :
      Change c
        { c.setStream cs { s with currentFeed := none } with
          critical := some (.removePublish f) }
  | removePublish {c : Catalog S} {f : FeedRef} {feed : Feed S}
      (hcritical : c.critical = some (.removePublish f)) (hfeed : c.feeds f = some feed) :
      Change c
        { c with
          streams := Function.update c.streams feed.id none
          streamIDs := c.streamIDs.erase feed.id
          critical := some (.removeClose f) }
  | removeClose {c : Catalog S} {f : FeedRef} {feed : Feed S}
      (hcritical : c.critical = some (.removeClose f)) (hfeed : c.feeds f = some feed) :
      Change c
        { c.setFeed f { feed with closed := true } with critical := some (.removeReturn f) }
  | removeReturn {c : Catalog S} {f : FeedRef}
      (hcritical : c.critical = some (.removeReturn f)) :
      Change c { c with critical := none }

end Catalog

theorem Watch.Step.change {logs : UUID → EventLog} {c c' : Catalog S} {w w' : Watch S}
    (hstep : Watch.Step logs c w c' w') (hw : w.Valid logs c) : c.Change c' := by
  cases hstep with
  | deliver _ _ _ => exact .same
  | find _ _ => exact .same
  | add _ _ hfree hfresh _ hstream => exact .add hfree hfresh rfl hstream
  | addStore _ hcritical hstream => exact .addStore hcritical hstream
  | addPublish hdelivery hcritical =>
      exact .addPublish hcritical (hw.targets _ _ _ hdelivery rfl)
  | addReturn _ hcritical => exact .addReturn hcritical
  | skip _ _ _ => exact .same
  | check _ _ _ => exact .same
  | reset _ hfeed _ => exact .feed hfeed rfl rfl rfl rfl fun _ => Nat.le_refl _
  | align _ _ _ => exact .same
  | append _ hfeed _ => exact .feed hfeed rfl rfl rfl rfl fun _ => Nat.le_refl _
  | stop _ _ => exact .same
  | remove _ hfree hfeed hstreams hstream => exact .remove hfree hfeed hstreams hstream
  | removeStore _ hcritical hstream hnext => exact .removeStore hcritical hstream hnext
  | removeLast _ hcritical hstream hnone => exact .removeLast hcritical hstream hnone
  | removePublish _ hcritical hfeed => exact .removePublish hcritical hfeed
  | removeClose _ hcritical hfeed => exact .removeClose hcritical hfeed
  | removeReturn _ hcritical => exact .removeReturn hcritical
  | drain _ => exact .same
  | wait _ _ _ => exact .same
  | finish _ => exact .same

theorem Consumer.Step.change {log : EventLog} {c c' : Catalog S} {k k' : Consumer}
    (hstep : Consumer.Step log c k c' k') : c.Change c' := by
  cases hstep with
  | startRead _ hfeed hopen =>
      refine .feed hfeed rfl rfl rfl rfl ?_
      intro hclosed
      cases hopen.symm.trans hclosed
  | readReject _ hfeed => exact .feed hfeed rfl rfl rfl rfl fun _ => Nat.sub_le _ _
  | readReturn _ hfeed => exact .feed hfeed rfl rfl rfl rfl fun _ => Nat.sub_le _ _
  | _ => exact .same

theorem World.Step.change [DecidableEq W] [DecidableEq C] {w w' : World S W C}
    (hstep : World.Step w w') (hinv : w.Invariant) : w.catalog.Change w'.catalog := by
  cases hstep with
  | grow _ => exact .same
  | watch _ _ => exact .same
  | watchStep hwatch hstep => exact hstep.change (hinv.watches _ _ hwatch)
  | consume _ _ => exact .same
  | consumeStep _ hstep => exact hstep.change

/-! ## The stages of a `catalogStream` -/

/-- The `catalogStream` whose current feed is about to be stored. -/
def Critical.stores : Critical → Option StreamRef
  | .addStore cs _ => some cs
  | .removeStore cs _ => some cs
  | _ => none

/-- Nothing remains to be stored or published. -/
def Critical.settles : Critical → Bool
  | .addReturn _ => true
  | .removeClose _ => true
  | .removeReturn _ => true
  | _ => false

namespace Catalog

/-- A `catalogStream` that no goroutine is changing. -/
inductive Settled (c : Catalog S) (cs : StreamRef) (s : CatalogStream) : Prop where
  | present {f : FeedRef} (hmember : f ∈ s.availableFeeds) (hcurrent : s.currentFeed = some f)
      (hlisted : c.streams s.id = some cs) (hpublished : s.id ∈ c.streamIDs)
  | gone (hnone : s.availableFeeds = ∅) (hcurrent : s.currentFeed = none)
      (hunlisted : c.streams s.id ≠ some cs)

/-- Its current feed is about to be stored. -/
def Storing (c : Catalog S) (cs : StreamRef) : Prop :=
  ∃ k, c.critical = some k ∧ k.stores = some cs

/-- How far `Catalog.add` or `Catalog.remove` has got with a `catalogStream`. -/
inductive Stage (c : Catalog S) (cs : StreamRef) (s : CatalogStream) : Prop where
  | adding {f : FeedRef} (hcritical : c.critical = some (.addStore cs f))
      (havailable : s.availableFeeds = {f}) (hcurrent : s.currentFeed = none)
      (hlisted : c.streams s.id = some cs) (hunpublished : s.id ∉ c.streamIDs)
  | added {f : FeedRef} (hcritical : c.critical = some (.addPublish f))
      (havailable : s.availableFeeds = {f}) (hcurrent : s.currentFeed = some f)
      (hlisted : c.streams s.id = some cs) (hunpublished : s.id ∉ c.streamIDs)
  | removing {f : FeedRef} (hcritical : c.critical = some (.removeStore cs f))
      (hremoved : f ∉ s.availableFeeds) (hcurrent : s.currentFeed = some f)
      (hlisted : c.streams s.id = some cs) (hpublished : s.id ∈ c.streamIDs)
  | removed {f : FeedRef} {types : TypeFilter}
      (hcritical : c.critical = some (.removePublish f))
      (hfeed : c.feedOf f = some (s.id, types)) (hnone : s.availableFeeds = ∅)
      (hcurrent : s.currentFeed = none) (hlisted : c.streams s.id = some cs)
      (hpublished : s.id ∈ c.streamIDs)
  | settled (hidle : ¬ c.Storing cs) (hsettled : c.Settled cs s)

/-- The feed is closed or about to be closed. -/
def Leaving (c : Catalog S) (f : FeedRef) : Prop :=
  (∃ feed, c.feeds f = some feed ∧ feed.closed = true) ∨
    c.critical = some (.removePublish f) ∨ c.critical = some (.removeClose f)

/-- What holds of the streams of the catalog at all times. -/
structure Kept (c : Catalog S) : Prop where
  stages : ∀ cs s, c.catalogStreams cs = some s → c.Stage cs s
  published : ∀ id ∈ c.streamIDs, c.streams id ≠ none
  /-- No `catalogStream` refers to a feed that is leaving. -/
  leaving : ∀ f, c.Leaving f → ∀ cs s, c.catalogStreams cs = some s → ¬ s.refersTo f
  /-- A stream that is about to be published is in the catalog. -/
  adding : ∀ f id types, c.critical = some (.addPublish f) → c.feedOf f = some (id, types) →
    c.streams id ≠ none
  /-- A stream that is about to be deleted has no feeds. -/
  removing : ∀ f id types cs s, c.critical = some (.removePublish f) →
    c.feedOf f = some (id, types) → c.streams id = some cs → c.catalogStreams cs = some s →
      s.availableFeeds = ∅

variable {logs : UUID → EventLog} {c c' : Catalog S} {cs cs' : StreamRef}
  {s s' : CatalogStream}

theorem Settled.mono (h : c.Settled cs s)
    (hstreams : c'.streams s.id = some cs ↔ c.streams s.id = some cs)
    (hpublished : s.id ∈ c.streamIDs → s.id ∈ c'.streamIDs) : c'.Settled cs s := by
  cases h with
  | present hmember hcurrent hlisted hids =>
      exact .present hmember hcurrent (hstreams.mpr hlisted) (hpublished hids)
  | gone hnone hcurrent hunlisted =>
      exact .gone hnone hcurrent fun hlisted => hunlisted (hstreams.mp hlisted)

/-- Nobody holds the mutex, or nothing remains to be stored or published. -/
def Idle (c : Catalog S) : Prop :=
  ∀ k, c.critical = some k → k.settles = true

theorem idle_of_free (hfree : c.critical = none) : c.Idle := by
  intro k hk
  cases hfree.symm.trans hk

theorem Idle.not_storing (h : c.Idle) : ¬ c.Storing cs := by
  rintro ⟨k, hk, hstores⟩
  have hsettles := h k hk
  cases k with
  | addStore _ _ => cases hsettles
  | removeStore _ _ => cases hsettles
  | _ => cases hstores

theorem Stage.settled_of_idle (h : c.Stage cs s) (hidle : c.Idle) : c.Settled cs s := by
  cases h with
  | adding hcritical _ _ _ _ => cases hidle _ hcritical
  | added hcritical _ _ _ _ => cases hidle _ hcritical
  | removing hcritical _ _ _ _ => cases hidle _ hcritical
  | removed hcritical _ _ _ _ _ => cases hidle _ hcritical
  | settled _ hsettled => exact hsettled

/-- While another `catalogStream` is about to be stored, this one is settled. -/
theorem Stage.settled_of_other (h : c.Stage cs s) (hstoring : c.Storing cs')
    (hne : cs ≠ cs') : c.Settled cs s := by
  obtain ⟨k, hk, hstores⟩ := hstoring
  cases h with
  | adding hcritical _ _ _ _ =>
      cases hk.symm.trans hcritical
      exact absurd (Option.some.inj hstores) hne
  | added hcritical _ _ _ _ =>
      cases hk.symm.trans hcritical
      cases hstores
  | removing hcritical _ _ _ _ =>
      cases hk.symm.trans hcritical
      exact absurd (Option.some.inj hstores) hne
  | removed hcritical _ _ _ _ _ =>
      cases hk.symm.trans hcritical
      cases hstores
  | settled _ hsettled => exact hsettled

/-- The stage of the stream that `Catalog.add` is about to store. -/
theorem Stage.of_addStore {f : FeedRef} (h : c.Stage cs s)
    (hcritical : c.critical = some (.addStore cs f)) :
    s.availableFeeds = {f} ∧ s.currentFeed = none ∧ c.streams s.id = some cs ∧
      s.id ∉ c.streamIDs := by
  cases h with
  | adding hcritical' havailable hcurrent hlisted hunpublished =>
      cases hcritical.symm.trans hcritical'
      exact ⟨havailable, hcurrent, hlisted, hunpublished⟩
  | added hcritical' _ _ _ _ => cases hcritical.symm.trans hcritical'
  | removing hcritical' _ _ _ _ => cases hcritical.symm.trans hcritical'
  | removed hcritical' _ _ _ _ _ => cases hcritical.symm.trans hcritical'
  | settled hidle _ => exact absurd ⟨_, hcritical, rfl⟩ hidle

/-- The stage of the stream that `Catalog.remove` is about to store. -/
theorem Stage.of_removeStore {f : FeedRef} (h : c.Stage cs s)
    (hcritical : c.critical = some (.removeStore cs f)) :
    f ∉ s.availableFeeds ∧ s.currentFeed = some f ∧ c.streams s.id = some cs ∧
      s.id ∈ c.streamIDs := by
  cases h with
  | adding hcritical' _ _ _ _ => cases hcritical.symm.trans hcritical'
  | added hcritical' _ _ _ _ => cases hcritical.symm.trans hcritical'
  | removing hcritical' hremoved hcurrent hlisted hpublished =>
      cases hcritical.symm.trans hcritical'
      exact ⟨hremoved, hcurrent, hlisted, hpublished⟩
  | removed hcritical' _ _ _ _ _ => cases hcritical.symm.trans hcritical'
  | settled hidle _ => exact absurd ⟨_, hcritical, rfl⟩ hidle

/-- A stream that has a feed is listed under its ID. -/
theorem Stage.listed (h : c.Stage cs s) (hs : s.availableFeeds.Nonempty) :
    c.streams s.id = some cs := by
  cases h with
  | adding _ _ _ hlisted _ => exact hlisted
  | added _ _ _ hlisted _ => exact hlisted
  | removing _ _ _ hlisted _ => exact hlisted
  | removed _ _ _ _ hlisted _ => exact hlisted
  | settled _ hsettled =>
      cases hsettled with
      | present _ _ hlisted _ => exact hlisted
      | gone hnone _ _ =>
          rw [hnone] at hs
          exact absurd hs Finset.not_nonempty_empty

/-! ## Each change keeps the stages -/

theorem Kept.empty (cacheSize : Nat) : (Catalog.empty cacheSize : Catalog S).Kept where
  stages := by intro cs s h; cases h
  published := by intro id h; exact absurd h (Finset.notMem_empty id)
  leaving := by intro f _ cs s h; cases h
  adding := by intro f id types h; cases h
  removing := by intro f id types cs s h; cases h

/-- Going on when nothing remains to be stored or published. -/
theorem Kept.relabel (h : c.Kept) (hidle : c.Idle) (hidle' : c'.Idle)
    (hstreams : c'.streams = c.streams) (hids : c'.streamIDs = c.streamIDs)
    (hcatalogStreams : c'.catalogStreams = c.catalogStreams)
    (hleaving : ∀ f, c'.Leaving f → c.Leaving f) : c'.Kept where
  stages := by
    intro cs s hs
    rw [hcatalogStreams] at hs
    refine .settled hidle'.not_storing (((h.stages cs s hs).settled_of_idle hidle).mono ?_ ?_)
    · rw [hstreams]
    · rw [hids]
      exact id
  published := by
    rw [hids, hstreams]
    exact h.published
  leaving := by
    intro f hf cs s hs
    rw [hcatalogStreams] at hs
    exact h.leaving f (hleaving f hf) cs s hs
  adding := by
    intro f id types hcritical
    cases hidle' _ hcritical
  removing := by
    intro f id types cs s hcritical
    cases hidle' _ hcritical

/-- Changing a feed, but neither its stream nor whether it is closed. -/
theorem Kept.setFeed {f : FeedRef} {feed feed' : Feed S} (h : c.Kept)
    (hfeed : c.feeds f = some feed) (hid : feed'.id = feed.id)
    (htypes : feed'.types = feed.types) (hclosed : feed'.closed = feed.closed) :
    (c.setFeed f feed').Kept := by
  have hfeedOf : ∀ g, (c.setFeed f feed').feedOf g = c.feedOf g := by
    intro g
    by_cases heq : g = f
    · subst heq
      rw [feedOf_eq hfeed, feedOf_eq (c := c.setFeed g feed') (Function.update_self ..), hid,
        htypes]
    · rw [feedOf, setFeed_feeds, Function.update_of_ne heq, feedOf]
  refine ⟨?_, h.published, ?_, ?_, ?_⟩
  · intro cs s hs
    cases h.stages cs s hs with
    | adding hcritical havailable hcurrent hlisted hunpublished =>
        exact .adding hcritical havailable hcurrent hlisted hunpublished
    | added hcritical havailable hcurrent hlisted hunpublished =>
        exact .added hcritical havailable hcurrent hlisted hunpublished
    | removing hcritical hremoved hcurrent hlisted hpublished =>
        exact .removing hcritical hremoved hcurrent hlisted hpublished
    | removed hcritical hold hnone hcurrent hlisted hpublished =>
        exact .removed hcritical ((hfeedOf _).trans hold) hnone hcurrent hlisted hpublished
    | settled hidle hsettled => exact .settled hidle (hsettled.mono .rfl id)
  · intro g hg cs s hs
    refine h.leaving g ?_ cs s hs
    obtain ⟨other, hother, hotherClosed⟩ | hcritical := hg
    · obtain ⟨rfl, hnew⟩ | ⟨-, hold⟩ := update_eq_some hother
      · cases hnew
        exact Or.inl ⟨feed, hfeed, hclosed ▸ hotherClosed⟩
      · exact Or.inl ⟨other, hold, hotherClosed⟩
    · exact Or.inr hcritical
  · intro g id types hcritical hg
    rw [hfeedOf] at hg
    exact h.adding g id types hcritical hg
  · intro g id types cs s hcritical hg
    rw [hfeedOf] at hg
    exact h.removing g id types cs s hcritical hg

/-- A feed of a stream is not referred to by a settled `catalogStream` other than the
one that is listed. -/
theorem Settled.not_refersTo {f : FeedRef} {id : UUID} {types : TypeFilter}
    (hsettled : c.Settled cs' s') (hinv : CatalogInvariant logs c)
    (hs' : c.catalogStreams cs' = some s') (hne : cs' ≠ cs)
    (hlisted : c.streams id = some cs) (hfeed : c.feedOf f = some (id, types)) :
    ¬ s'.refersTo f := by
  intro hf
  obtain ⟨types', hfeed'⟩ := hinv.members cs' s' hs' f hf
  have hid : s'.id = id := by
    rw [hfeed] at hfeed'
    exact (Prod.mk.inj (Option.some.inj hfeed')).1.symm
  cases hsettled with
  | present _ _ hlisted' _ =>
      rw [hid, hlisted] at hlisted'
      exact hne (Option.some.inj hlisted').symm
  | gone hnone hcurrent _ =>
      obtain hmember | hcurrent' := hf
      · rw [hnone] at hmember
        exact absurd hmember (Finset.notMem_empty f)
      · cases hcurrent.symm.trans hcurrent'

/-- Changing which feeds a listed `catalogStream` refers to, while the others are
settled. -/
theorem Kept.setStream {k : Critical} (h : c.Kept) (hs : c.catalogStreams cs = some s)
    (hlisted : c.streams s.id = some cs)
    (hothers : ∀ cs' s', cs' ≠ cs → c.catalogStreams cs' = some s' → c.Settled cs' s')
    (hstage : { c.setStream cs s' with critical := some k }.Stage cs s')
    (hrefers : ∀ f, s'.refersTo f → s.refersTo f)
    (hk : ∀ cs', k.stores = some cs' → cs' = cs)
    (hleaving : ∀ f, k = .removePublish f ∨ k = .removeClose f →
      ¬ s'.refersTo f ∧ ∃ types, c.feedOf f = some (s.id, types))
    (hadding : ∀ f, k = .addPublish f → ∃ types, c.feedOf f = some (s.id, types))
    (hremoving : ∀ f, k = .removePublish f → s'.availableFeeds = ∅)
    (hinv : CatalogInvariant logs c) :
    { c.setStream cs s' with critical := some k }.Kept := by
  refine ⟨?_, h.published, ?_, ?_, ?_⟩
  · intro cs₁ s₁ hs₁
    obtain ⟨rfl, hnew⟩ | ⟨hne, hold⟩ := update_eq_some hs₁
    · cases hnew
      exact hstage
    · refine .settled ?_ ((hothers cs₁ s₁ hne hold).mono .rfl id)
      rintro ⟨k', hk', hstores⟩
      cases hk'
      exact hne (hk cs₁ hstores)
  · intro f hf cs₁ s₁ hs₁ hrefers₁
    obtain hclosed | hcritical := hf
    · obtain ⟨rfl, hnew⟩ | ⟨-, hold⟩ := update_eq_some hs₁
      · cases hnew
        exact h.leaving f (Or.inl hclosed) cs₁ s hs (hrefers f hrefers₁)
      · exact h.leaving f (Or.inl hclosed) cs₁ s₁ hold hrefers₁
    · obtain ⟨hgone, types, hfeed⟩ :=
        hleaving f (hcritical.imp Option.some.inj Option.some.inj)
      obtain ⟨rfl, hnew⟩ | ⟨hne, hold⟩ := update_eq_some hs₁
      · cases hnew
        exact hgone hrefers₁
      · exact (hothers cs₁ s₁ hne hold).not_refersTo hinv hold hne hlisted hfeed hrefers₁
  · intro f id types hcritical hfeed
    obtain ⟨types', hfeed'⟩ := hadding f (Option.some.inj hcritical)
    change c.feedOf f = some (id, types) at hfeed
    rw [hfeed'] at hfeed
    cases hfeed
    change c.streams s.id ≠ none
    rw [hlisted]
    exact Option.some_ne_none cs
  · intro f id types cs₁ s₁ hcritical hfeed hlisted₁ hs₁
    have hk' := Option.some.inj hcritical
    obtain ⟨-, types', hfeed'⟩ := hleaving f (Or.inl hk')
    change c.feedOf f = some (id, types) at hfeed
    rw [hfeed'] at hfeed
    cases hfeed
    cases hlisted.symm.trans hlisted₁
    rw [setStream_catalogStreams, Function.update_self] at hs₁
    cases hs₁
    exact hremoving f hk'

theorem insertFeed_storing {f : FeedRef} {feed : Feed S}
    (h : (c.insertFeed cs s f feed).Storing cs') :
    cs' = cs ∧ (insert f s.availableFeeds).card = 1 := by
  obtain ⟨k, hk, hstores⟩ := h
  cases hk
  split at hstores
  · rename_i hcard
    exact ⟨(Option.some.inj hstores).symm, hcard⟩
  · cases hstores

theorem insertFeed_critical {f : FeedRef} {feed : Feed S} {k : Critical}
    (h : (c.insertFeed cs s f feed).critical = some k) : k = .addStore cs f ∨ k = .addReturn f := by
  have hk := Option.some.inj h
  split at hk
  · exact Or.inl hk.symm
  · exact Or.inr hk.symm

/-- A stream that is listed while nothing is being changed has a feed, so that a feed
that is added is not its first one. -/
theorem Kept.not_first {f : FeedRef} (h : c.Kept) (hfree : c.critical = none)
    (hs : c.catalogStreams cs = some s) (hlisted : c.streams s.id = some cs)
    (hnew : f ∉ s.availableFeeds) : (insert f s.availableFeeds).card ≠ 1 := by
  rw [Finset.card_insert_of_notMem hnew]
  cases (h.stages cs s hs).settled_of_idle (idle_of_free hfree) with
  | @present g hmember _ _ _ =>
      have hpos := Finset.card_pos.mpr ⟨g, hmember⟩
      omega
  | gone _ _ hunlisted => exact absurd hlisted hunlisted

theorem insertFeed_streams_self {f : FeedRef} {feed : Feed S} :
    (c.insertFeed cs s f feed).streams feed.id = some cs :=
  Function.update_self ..

theorem insertFeed_streams_of_ne {f : FeedRef} {feed : Feed S} {id : UUID} (hne : id ≠ feed.id) :
    (c.insertFeed cs s f feed).streams id = c.streams id :=
  Function.update_of_ne hne _ _

/-- The stream that a feed is added to has feeds already, so that the mutex is about to
be released, or it is new. -/
theorem Kept.insertFeed_stage {f : FeedRef} {feed : Feed S} (h : c.Kept)
    (hinv : CatalogInvariant logs c) (hfree : c.critical = none) (hfresh : c.feeds f = none)
    (hprovides : c.Provides feed.id cs s) :
    (c.insertFeed cs s f feed).Stage cs
      { s with availableFeeds := insert f s.availableFeeds } := by
  have hid := hinv.provides_id hprovides
  have hlisted : (c.insertFeed cs s f feed).streams s.id = some cs := by
    rw [hid, insertFeed_streams_self]
  have hnew : f ∉ s.availableFeeds := by
    intro hmem
    obtain ⟨types, hfeed⟩ := hinv.provides_refersTo hprovides (Or.inl hmem)
    rw [feedOf, hfresh] at hfeed
    cases hfeed
  obtain ⟨hstream, hs⟩ | ⟨hnone, -, rfl⟩ := hprovides
  · have hcard := h.not_first hfree hs (by rwa [hid]) hnew
    cases (h.stages cs s hs).settled_of_idle (idle_of_free hfree) with
    | @present g hmember hcurrent _ hpublished =>
        refine .settled ?_ (.present (Finset.mem_insert_of_mem hmember) hcurrent hlisted
          hpublished)
        exact fun hstoring => hcard (insertFeed_storing hstoring).2
    | gone _ _ hunlisted =>
        rw [hid] at hunlisted
        exact absurd hstream hunlisted
  · refine .adding (f := f) ?_ rfl rfl hlisted ?_
    · change some (if (insert f (∅ : Finset FeedRef)).card = 1 then _ else _) = _
      rw [if_pos (by simp)]
    · intro hmem
      exact h.published feed.id hmem hnone

/-- The other streams are settled, and stay so. -/
theorem Kept.insertFeed_other {f : FeedRef} {feed : Feed S} (h : c.Kept)
    (hfree : c.critical = none) (hprovides : c.Provides feed.id cs s) (hne : cs' ≠ cs)
    (hs' : c.catalogStreams cs' = some s') : (c.insertFeed cs s f feed).Stage cs' s' := by
  have hsettled := (h.stages cs' s' hs').settled_of_idle (idle_of_free hfree)
  refine .settled (fun hstoring => hne (insertFeed_storing hstoring).1) (hsettled.mono ?_ id)
  by_cases heq : s'.id = feed.id
  · have hunlisted : c.streams feed.id ≠ some cs' := by
      intro hlisted
      obtain ⟨hstream, -⟩ | ⟨hnone, -⟩ := hprovides
      · exact hne (Option.some.inj (hstream.symm.trans hlisted)).symm
      · cases hnone.symm.trans hlisted
    rw [heq, insertFeed_streams_self]
    exact ⟨fun h => absurd (Option.some.inj h).symm hne, fun h => absurd h hunlisted⟩
  · rw [insertFeed_streams_of_ne heq]

/-- A feed that has been closed is not referred to, nor is it the one that is added. -/
theorem Kept.insertFeed_leaving {f g : FeedRef} {feed closed : Feed S} (h : c.Kept)
    (hopen : feed.closed = false) (hprovides : c.Provides feed.id cs s)
    (hfeed : (c.insertFeed cs s f feed).feeds g = some closed) (hclosed : closed.closed = true)
    (hs' : (c.insertFeed cs s f feed).catalogStreams cs' = some s') : ¬ s'.refersTo g := by
  intro hrefers
  obtain ⟨rfl, hset⟩ | ⟨hne, hold⟩ := update_eq_some hfeed
  · cases hset
    cases hopen.symm.trans hclosed
  have hleaving := h.leaving g (Or.inl ⟨closed, hold, hclosed⟩)
  obtain ⟨rfl, hset⟩ | ⟨-, hold'⟩ := update_eq_some hs'
  · cases hset
    have hrefers' : s.refersTo g :=
      hrefers.imp (fun hmem => Finset.mem_of_mem_insert_of_ne hmem hne) id
    obtain ⟨-, hs⟩ | ⟨-, -, rfl⟩ := hprovides
    · exact hleaving _ s hs hrefers'
    · obtain hmem | hcurrent := hrefers'
      · exact absurd hmem (Finset.notMem_empty g)
      · cases hcurrent
  · exact hleaving cs' s' hold' hrefers

theorem Kept.insertFeed {f : FeedRef} {feed : Feed S} (h : c.Kept)
    (hinv : CatalogInvariant logs c) (hfree : c.critical = none) (hfresh : c.feeds f = none)
    (hopen : feed.closed = false) (hprovides : c.Provides feed.id cs s) :
    (c.insertFeed cs s f feed).Kept := by
  refine ⟨?_, ?_, ?_, ?_, ?_⟩
  · intro cs₁ s₁ hs₁
    obtain ⟨rfl, hset⟩ | ⟨hne, hold⟩ := update_eq_some hs₁
    · cases hset
      exact h.insertFeed_stage hinv hfree hfresh hprovides
    · exact h.insertFeed_other hfree hprovides hne hold
  · intro id hmem
    by_cases heq : id = feed.id
    · rw [heq, insertFeed_streams_self]
      exact Option.some_ne_none cs
    · rw [insertFeed_streams_of_ne heq]
      exact h.published id hmem
  · intro g hg cs₁ s₁ hs₁
    obtain ⟨other, hother, hclosed⟩ | hcritical | hcritical := hg
    · exact h.insertFeed_leaving hopen hprovides hother hclosed hs₁
    · obtain hk | hk := insertFeed_critical hcritical <;> cases hk
    · obtain hk | hk := insertFeed_critical hcritical <;> cases hk
  · intro g id types hcritical
    obtain hk | hk := insertFeed_critical hcritical <;> cases hk
  · intro g id types cs₁ s₁ hcritical
    obtain hk | hk := insertFeed_critical hcritical <;> cases hk

theorem Kept.addStore {f : FeedRef} (h : c.Kept) (hinv : CatalogInvariant logs c)
    (hcritical : c.critical = some (.addStore cs f)) (hs : c.catalogStreams cs = some s) :
    { c.setStream cs { s with currentFeed := some f } with
      critical := some (.addPublish f) }.Kept := by
  obtain ⟨havailable, -, hlisted, hunpublished⟩ := (h.stages cs s hs).of_addStore hcritical
  have hmember : f ∈ s.availableFeeds := by
    rw [havailable]
    exact Finset.mem_singleton_self f
  refine h.setStream hs hlisted ?_ ?_ ?_ ?_ ?_ ?_ ?_ hinv
  · intro cs' s' hne hs'
    exact (h.stages cs' s' hs').settled_of_other ⟨_, hcritical, rfl⟩ hne
  · exact .added rfl havailable rfl hlisted hunpublished
  · rintro g (hmem | hcurrent)
    · exact Or.inl hmem
    · cases hcurrent
      exact Or.inl hmember
  · exact nofun
  · exact nofun
  · intro g heq
    cases heq
    exact hinv.members cs s hs f (Or.inl hmember)
  · exact nofun

theorem Kept.addPublish {f : FeedRef} {id : UUID} {types : TypeFilter} (h : c.Kept)
    (hinv : CatalogInvariant logs c) (hcritical : c.critical = some (.addPublish f))
    (hfeed : c.feedOf f = some (id, types)) :
    { c with streamIDs := insert id c.streamIDs, critical := some (.addReturn f) }.Kept := by
  have hidle : ({ c with streamIDs := insert id c.streamIDs, critical := some (.addReturn f) } :
      Catalog S).Idle := by
    intro k hk
    cases hk
    rfl
  refine ⟨?_, ?_, ?_, nofun, nofun⟩
  · intro cs s hs
    refine .settled hidle.not_storing ?_
    cases h.stages cs s hs with
    | adding hcritical' _ _ _ _ => cases hcritical.symm.trans hcritical'
    | added hcritical' havailable hcurrent hlisted _ =>
        cases hcritical.symm.trans hcritical'
        have hmember : f ∈ s.availableFeeds := by
          rw [havailable]
          exact Finset.mem_singleton_self f
        obtain ⟨types', hfeed'⟩ := hinv.members cs s hs f (Or.inl hmember)
        rw [hfeed] at hfeed'
        cases hfeed'
        exact .present hmember hcurrent hlisted (Finset.mem_insert_self _ _)
    | removing hcritical' _ _ _ _ => cases hcritical.symm.trans hcritical'
    | removed hcritical' _ _ _ _ _ => cases hcritical.symm.trans hcritical'
    | settled _ hsettled => exact hsettled.mono .rfl Finset.mem_insert_of_mem
  · intro id' hid'
    obtain rfl | hold := Finset.mem_insert.mp hid'
    · exact h.adding f id' types hcritical hfeed
    · exact h.published id' hold
  · intro g hg
    refine h.leaving g ?_
    obtain hclosed | heq | heq := hg
    · exact Or.inl hclosed
    · cases heq
    · cases heq

theorem Kept.deleteFeed {f : FeedRef} {feed : Feed S} (h : c.Kept)
    (hinv : CatalogInvariant logs c) (hfree : c.critical = none)
    (hfeed : c.feeds f = some feed) (hstreams : c.streams feed.id = some cs)
    (hs : c.catalogStreams cs = some s) : (c.deleteFeed cs s f).Kept := by
  have hid : s.id = feed.id := by
    have hstream := hinv.streams feed.id cs hstreams
    rw [streamOf_eq hs] at hstream
    exact Option.some.inj hstream
  have hlisted : c.streams s.id = some cs := by rwa [hid]
  have hfeedOf : ∃ types, c.feedOf f = some (s.id, types) := by
    rw [hid]
    exact ⟨feed.types, feedOf_eq hfeed⟩
  have hsettled := fun cs' s' (hs' : c.catalogStreams cs' = some s') =>
    (h.stages cs' s' hs').settled_of_idle (idle_of_free hfree)
  have hrefers : ∀ g, ({ s with availableFeeds := s.availableFeeds.erase f } :
      CatalogStream).refersTo g → s.refersTo g :=
    fun g hg => hg.imp_left Finset.mem_of_mem_erase
  cases hsettled cs s hs with
  | gone _ _ hunlisted => exact absurd hlisted hunlisted
  | @present g hmember hcurrent _ hpublished =>
      by_cases hsame : s.currentFeed = some f
      · have hk : (if s.currentFeed = some f then Critical.removeStore cs f else .removeClose f) =
            .removeStore cs f := if_pos hsame
        unfold Catalog.deleteFeed
        rw [hk]
        refine h.setStream hs hlisted (fun cs' s' _ => hsettled cs' s') ?_ hrefers ?_ ?_ ?_ ?_
          hinv
        · exact .removing rfl (Finset.notMem_erase f _) hsame hlisted hpublished
        · exact fun cs' heq => (Option.some.inj heq).symm
        · exact nofun
        · exact nofun
        · exact nofun
      · have hk : (if s.currentFeed = some f then Critical.removeStore cs f else .removeClose f) =
            .removeClose f := if_neg hsame
        unfold Catalog.deleteFeed
        rw [hk]
        have hne : g ≠ f := by
          rintro rfl
          exact hsame hcurrent
        refine h.setStream hs hlisted (fun cs' s' _ => hsettled cs' s') ?_ hrefers ?_ ?_ ?_ ?_
          hinv
        · refine .settled ?_ (.present (Finset.mem_erase_of_ne_of_mem hne hmember) hcurrent
            hlisted hpublished)
          rintro ⟨k, hk, hstores⟩
          cases hk
          cases hstores
        · exact nofun
        · rintro g' (heq | heq)
          · cases heq
          · cases heq
            refine ⟨?_, hfeedOf⟩
            rintro (hmem | hcurrent')
            · exact Finset.notMem_erase f _ hmem
            · exact hsame hcurrent'
        · exact nofun
        · exact nofun

theorem Kept.removeStore {f next : FeedRef} (h : c.Kept) (hinv : CatalogInvariant logs c)
    (hcritical : c.critical = some (.removeStore cs f)) (hs : c.catalogStreams cs = some s)
    (hnext : next ∈ s.availableFeeds) :
    { c.setStream cs { s with currentFeed := some next } with
      critical := some (.removeClose f) }.Kept := by
  obtain ⟨hremoved, hcurrent, hlisted, hpublished⟩ :=
    (h.stages cs s hs).of_removeStore hcritical
  refine h.setStream hs hlisted ?_ ?_ ?_ ?_ ?_ ?_ ?_ hinv
  · intro cs' s' hne hs'
    exact (h.stages cs' s' hs').settled_of_other ⟨_, hcritical, rfl⟩ hne
  · refine .settled ?_ (.present hnext rfl hlisted hpublished)
    rintro ⟨k, hk, hstores⟩
    cases hk
    cases hstores
  · rintro g (hmem | hcurrent')
    · exact Or.inl hmem
    · cases hcurrent'
      exact Or.inl hnext
  · exact nofun
  · rintro g (heq | heq)
    · cases heq
    · cases heq
      refine ⟨?_, hinv.members cs s hs f (Or.inr hcurrent)⟩
      rintro (hmem | hcurrent')
      · exact hremoved hmem
      · cases hcurrent'
        exact hremoved hnext
  · exact nofun
  · exact nofun

theorem Kept.removeLast {f : FeedRef} (h : c.Kept) (hinv : CatalogInvariant logs c)
    (hcritical : c.critical = some (.removeStore cs f)) (hs : c.catalogStreams cs = some s)
    (hnone : s.availableFeeds = ∅) :
    { c.setStream cs { s with currentFeed := none } with
      critical := some (.removePublish f) }.Kept := by
  obtain ⟨hremoved, hcurrent, hlisted, hpublished⟩ :=
    (h.stages cs s hs).of_removeStore hcritical
  obtain ⟨types, hfeed⟩ := hinv.members cs s hs f (Or.inr hcurrent)
  refine h.setStream hs hlisted ?_ ?_ ?_ ?_ ?_ ?_ ?_ hinv
  · intro cs' s' hne hs'
    exact (h.stages cs' s' hs').settled_of_other ⟨_, hcritical, rfl⟩ hne
  · exact .removed rfl hfeed hnone rfl hlisted hpublished
  · rintro g (hmem | hcurrent')
    · exact Or.inl hmem
    · cases hcurrent'
  · exact nofun
  · rintro g (heq | heq)
    · cases heq
      refine ⟨?_, types, hfeed⟩
      rintro (hmem | hcurrent')
      · exact hremoved hmem
      · cases hcurrent'
    · cases heq
  · exact nofun
  · exact fun _ _ => hnone

theorem Kept.removePublish {f : FeedRef} {feed : Feed S} (h : c.Kept)
    (hcritical : c.critical = some (.removePublish f)) (hfeed : c.feeds f = some feed) :
    { c with
      streams := Function.update c.streams feed.id none
      streamIDs := c.streamIDs.erase feed.id
      critical := some (.removeClose f) }.Kept := by
  have hfeedOf := feedOf_eq hfeed
  have hidle : ({ c with
      streams := Function.update c.streams feed.id none
      streamIDs := c.streamIDs.erase feed.id
      critical := some (.removeClose f) } : Catalog S).Idle := by
    intro k hk
    cases hk
    rfl
  refine ⟨?_, ?_, ?_, nofun, nofun⟩
  · intro cs s hs
    refine .settled hidle.not_storing ?_
    cases h.stages cs s hs with
    | adding hcritical' _ _ _ _ => cases hcritical.symm.trans hcritical'
    | added hcritical' _ _ _ _ => cases hcritical.symm.trans hcritical'
    | removing hcritical' _ _ _ _ => cases hcritical.symm.trans hcritical'
    | removed hcritical' hfeed' hnone hcurrent hlisted _ =>
        cases hcritical.symm.trans hcritical'
        rw [hfeedOf] at hfeed'
        refine .gone hnone hcurrent ?_
        have hid : feed.id = s.id := (Prod.mk.inj (Option.some.inj hfeed')).1
        change Function.update c.streams feed.id none s.id ≠ some cs
        rw [hid, Function.update_self]
        exact nofun
    | settled _ hsettled =>
        by_cases heq : s.id = feed.id
        · cases hsettled with
          | present hmember _ hlisted _ =>
              rw [heq] at hlisted
              rw [h.removing f feed.id feed.types cs s hcritical hfeedOf hlisted hs] at hmember
              exact absurd hmember (Finset.notMem_empty _)
          | gone hnone hcurrent _ =>
              refine .gone hnone hcurrent ?_
              change Function.update c.streams feed.id none s.id ≠ some cs
              rw [heq, Function.update_self]
              exact nofun
        · refine hsettled.mono ?_ fun hmem => Finset.mem_erase_of_ne_of_mem heq hmem
          change Function.update c.streams feed.id none s.id = some cs ↔ _
          rw [Function.update_of_ne heq]
  · intro id hid
    obtain ⟨hne, hold⟩ := Finset.mem_erase.mp hid
    change Function.update c.streams feed.id none id ≠ none
    rw [Function.update_of_ne hne]
    exact h.published id hold
  · intro g hg
    refine h.leaving g ?_
    obtain hclosed | heq | heq := hg
    · exact Or.inl hclosed
    · cases heq
    · cases heq
      exact Or.inr (Or.inl hcritical)

theorem Kept.removeClose {f : FeedRef} {feed : Feed S} (h : c.Kept)
    (hcritical : c.critical = some (.removeClose f)) :
    { c.setFeed f { feed with closed := true } with critical := some (.removeReturn f) }.Kept := by
  refine h.relabel ?_ ?_ rfl rfl rfl ?_
  · intro k hk
    cases hcritical.symm.trans hk
    rfl
  · intro k hk
    cases hk
    rfl
  · rintro g (⟨other, hother, hclosed⟩ | heq | heq)
    · obtain ⟨rfl, -⟩ | ⟨-, hold⟩ := update_eq_some hother
      · exact Or.inr (Or.inr hcritical)
      · exact Or.inl ⟨other, hold, hclosed⟩
    · cases heq
    · cases heq

/-- The mutex is released. -/
theorem Kept.release {k : Critical} (h : c.Kept) (hcritical : c.critical = some k)
    (hk : k.settles = true) : ({ c with critical := none } : Catalog S).Kept := by
  refine h.relabel ?_ (idle_of_free rfl) rfl rfl rfl ?_
  · intro k' hk'
    cases hcritical.symm.trans hk'
    exact hk
  · rintro g (hclosed | heq | heq)
    · exact Or.inl hclosed
    · cases heq
    · cases heq

theorem Change.kept (hchange : c.Change c') (h : c.Kept) (hinv : CatalogInvariant logs c) :
    c'.Kept := by
  cases hchange with
  | same => exact h
  | feed hfeed hid _ htypes hclosed _ => exact h.setFeed hfeed hid htypes hclosed
  | add hfree hfresh hopen hprovides => exact h.insertFeed hinv hfree hfresh hopen hprovides
  | addStore hcritical hstream => exact h.addStore hinv hcritical hstream
  | addPublish hcritical hfeed => exact h.addPublish hinv hcritical hfeed
  | addReturn hcritical => exact h.release hcritical rfl
  | remove hfree hfeed hstreams hstream => exact h.deleteFeed hinv hfree hfeed hstreams hstream
  | removeStore hcritical hstream hnext => exact h.removeStore hinv hcritical hstream hnext
  | removeLast hcritical hstream hnone => exact h.removeLast hinv hcritical hstream hnone
  | removePublish hcritical hfeed => exact h.removePublish hcritical hfeed
  | removeClose hcritical hfeed => exact h.removeClose hcritical
  | removeReturn hcritical => exact h.release hcritical rfl

theorem Change.evolves (hchange : c.Change c') : c.Evolves c' := by
  have hset : ∀ {cs : StreamRef} {s : CatalogStream} {available : Finset FeedRef}
      {current : Option FeedRef} {critical : Option Critical}, c.catalogStreams cs = some s →
      c.Evolves { c.setStream cs ⟨s.id, available, current⟩ with critical := critical } := by
    intro cs s available current critical hs
    have hevolves : c.Evolves (c.setStream cs ⟨s.id, available, current⟩) := by
      refine .setStream ?_
      intro old hold
      cases hs.symm.trans hold
      rfl
    exact ⟨hevolves.feeds, hevolves.streams⟩
  have hfeed : ∀ {f : FeedRef} {feed feed' : Feed S}, c.feeds f = some feed →
      feed'.id = feed.id → feed'.types = feed.types → c.Evolves (c.setFeed f feed') := by
    intro f feed feed' hfeed hid htypes
    refine .setFeed ?_
    intro old hold
    cases hfeed.symm.trans hold
    exact ⟨hid, htypes⟩
  cases hchange with
  | same => exact .refl c
  | feed hfeed' hid _ htypes _ _ => exact hfeed hfeed' hid htypes
  | add _ hfresh _ hprovides => exact .insertFeed hfresh hprovides
  | addStore _ hstream => exact hset hstream
  | addPublish _ _ => exact .of_eq rfl rfl
  | addReturn _ => exact .of_eq rfl rfl
  | remove _ _ _ hstream => exact hset hstream
  | removeStore _ hstream _ => exact hset hstream
  | removeLast _ hstream _ => exact hset hstream
  | removePublish _ _ => exact .of_eq rfl rfl
  | @removeClose f feed _ hfeed' =>
      have hevolves : c.Evolves (c.setFeed f { feed with closed := true }) := hfeed hfeed' rfl rfl
      exact ⟨hevolves.feeds, hevolves.streams⟩
  | removeReturn _ => exact .of_eq rfl rfl

/-- Only the first feed of a new `catalogStream` is stored by `Catalog.add`. -/
theorem Change.addStore_new {f : FeedRef} (hchange : c.Change c') (h : c.Kept)
    (hinv : CatalogInvariant logs c) (hcritical : c'.critical = some (.addStore cs f)) :
    c.critical = some (.addStore cs f) ∨ c.catalogStreams cs = none := by
  cases hchange with
  | same => exact Or.inl hcritical
  | feed _ _ _ _ _ _ => exact Or.inl hcritical
  | @add cs' s' g feed hfree hfresh _ hprovides =>
      obtain ⟨rfl, hcard⟩ := insertFeed_storing ⟨_, hcritical, rfl⟩
      have hid := hinv.provides_id hprovides
      have hnew : g ∉ s'.availableFeeds := by
        intro hmem
        obtain ⟨types, hfeed⟩ := hinv.provides_refersTo hprovides (Or.inl hmem)
        rw [feedOf, hfresh] at hfeed
        cases hfeed
      obtain ⟨hstream, hs⟩ | ⟨-, hnone, -⟩ := hprovides
      · exact absurd hcard (h.not_first hfree hs (by rwa [hid]) hnew)
      · exact Or.inr hnone
  | @remove g feed cs' s' _ _ _ _ =>
      have hk := Option.some.inj hcritical
      split at hk <;> cases hk
  | _ => cases hcritical

/-- The current feed is replaced only by `Catalog.remove` of that feed. -/
theorem Change.current {f : FeedRef} (hchange : c.Change c') (h : c.Kept)
    (hs : c.catalogStreams cs = some s) (hcurrent : s.currentFeed = some f) :
    (∃ s', c'.catalogStreams cs = some s' ∧ s'.currentFeed = some f) ∨
      c.critical = some (.removeStore cs f) := by
  have hupdate : ∀ {cs' : StreamRef} {s' : CatalogStream} {c' : Catalog S},
      c'.catalogStreams = Function.update c.catalogStreams cs' (some s') →
      (cs' = cs → s'.currentFeed = some f) →
      ∃ s', c'.catalogStreams cs = some s' ∧ s'.currentFeed = some f := by
    intro cs' s' c' hupdate hsame
    rw [hupdate]
    by_cases heq : cs = cs'
    · subst heq
      exact ⟨s', Function.update_self .., hsame rfl⟩
    · exact ⟨s, by rw [Function.update_of_ne heq, hs], hcurrent⟩
  cases hchange with
  | @add cs' s' _ _ hfree _ _ hprovides =>
      refine Or.inl (hupdate rfl ?_)
      rintro rfl
      obtain ⟨-, hs'⟩ | ⟨-, hnone, -⟩ := hprovides
      · cases hs.symm.trans hs'
        exact hcurrent
      · cases hs.symm.trans hnone
  | @addStore cs' s' g hcritical hstream =>
      refine Or.inl (hupdate rfl ?_)
      rintro rfl
      cases hs.symm.trans hstream
      obtain ⟨-, hnone, -, -⟩ := (h.stages cs' s hs).of_addStore hcritical
      cases hcurrent.symm.trans hnone
  | @remove g feed cs' s' _ _ _ hstream =>
      refine Or.inl (hupdate rfl ?_)
      rintro rfl
      cases hs.symm.trans hstream
      exact hcurrent
  | @removeStore g next cs' s' hcritical hstream _ =>
      by_cases heq : cs' = cs
      · subst heq
        obtain ⟨-, hcurrent', -, -⟩ := (h.stages cs' s hs).of_removeStore hcritical
        cases hcurrent.symm.trans hcurrent'
        exact Or.inr hcritical
      · exact Or.inl (hupdate rfl fun hsame => absurd hsame heq)
  | @removeLast g cs' s' hcritical hstream _ =>
      by_cases heq : cs' = cs
      · subst heq
        obtain ⟨-, hcurrent', -, -⟩ := (h.stages cs' s hs).of_removeStore hcritical
        cases hcurrent.symm.trans hcurrent'
        exact Or.inr hcritical
      · exact Or.inl (hupdate rfl fun hsame => absurd hsame heq)
  | _ => exact Or.inl ⟨s, hs, hcurrent⟩

/-- A feed keeps its source, and once it is closed it stays closed and no more reads
begin. -/
theorem Change.feed_kept {f : FeedRef} {feed : Feed S} (hchange : c.Change c')
    (hfeed : c.feeds f = some feed) :
    ∃ feed', c'.feeds f = some feed' ∧ feed'.source = feed.source ∧
      (feed.closed = true → feed'.closed = true ∧ feed'.reads ≤ feed.reads) := by
  have hsame : feed.closed = true → feed.closed = true ∧ feed.reads ≤ feed.reads :=
    fun hclosed => ⟨hclosed, Nat.le_refl _⟩
  have hupdate : ∀ {g : FeedRef} {feed' : Feed S},
      (g = f → feed'.source = feed.source ∧
        (feed.closed = true → feed'.closed = true ∧ feed'.reads ≤ feed.reads)) →
      ∃ feed'', Function.update c.feeds g (some feed') f = some feed'' ∧
        feed''.source = feed.source ∧
        (feed.closed = true → feed''.closed = true ∧ feed''.reads ≤ feed.reads) := by
    intro g feed' hnew
    by_cases heq : f = g
    · subst heq
      exact ⟨feed', Function.update_self .., hnew rfl⟩
    · exact ⟨feed, by rw [Function.update_of_ne heq, hfeed], rfl, hsame⟩
  cases hchange with
  | feed hold _ hsource _ hclosed hreads =>
      apply hupdate
      rintro rfl
      cases hfeed.symm.trans hold
      exact ⟨hsource, fun h => ⟨by rwa [hclosed], hreads h⟩⟩
  | add _ hfresh _ _ =>
      apply hupdate
      rintro rfl
      cases hfeed.symm.trans hfresh
  | removeClose _ hold =>
      apply hupdate
      rintro rfl
      cases hfeed.symm.trans hold
      exact ⟨rfl, fun _ => ⟨rfl, Nat.le_refl _⟩⟩
  | _ => exact ⟨feed, hfeed, rfl, hsame⟩

/-- A stream that is not listed never becomes so again. -/
theorem Change.unlisted {id : UUID} (hchange : c.Change c') (hs : c.streamOf cs = some id)
    (hunlisted : c.streams id ≠ some cs) : c'.streams id ≠ some cs := by
  cases hchange with
  | @add cs' s' f feed _ _ _ hprovides =>
      intro hlisted
      by_cases heq : id = feed.id
      · subst heq
        have hupdated : (c.insertFeed cs' s' f feed).streams feed.id = some cs' :=
          Function.update_self ..
        cases hlisted.symm.trans hupdated
        obtain ⟨hstream, -⟩ | ⟨-, hnone, -⟩ := hprovides
        · exact hunlisted hstream
        · rw [streamOf, hnone] at hs
          cases hs
      · have hkept : (c.insertFeed cs' s' f feed).streams id = c.streams id :=
          Function.update_of_ne heq _ _
        exact hunlisted (hkept.symm.trans hlisted)
  | @removePublish f feed _ _ =>
      change Function.update c.streams feed.id none id ≠ some cs
      by_cases heq : id = feed.id
      · rw [heq, Function.update_self]
        exact (Option.some_ne_none cs).symm
      · rwa [Function.update_of_ne heq]
  | _ => exact hunlisted

/-- When a stream ceases to be listed, that is published at once. -/
theorem Change.unlisted_published {id : UUID} (hchange : c.Change c')
    (hinv : CatalogInvariant logs c) (hs : c'.streamOf cs = some id)
    (hunlisted : c'.streams id ≠ some cs) :
    (c.streamOf cs = some id ∧ c.streams id ≠ some cs) ∨ id ∉ c'.streamIDs := by
  have hupdate : ∀ {cs' : StreamRef} {s : CatalogStream} {available : Finset FeedRef}
      {current : Option FeedRef} {c' : Catalog S},
      c'.catalogStreams = Function.update c.catalogStreams cs' (some ⟨s.id, available, current⟩) →
      c.catalogStreams cs' = some s → c'.streamOf cs = some id → c.streamOf cs = some id := by
    intro cs' s available current c' hset hs hstream
    rw [streamOf, hset] at hstream
    by_cases heq : cs = cs'
    · subst heq
      rwa [Function.update_self, Option.map_some, ← streamOf_eq hs] at hstream
    · rwa [Function.update_of_ne heq] at hstream
  cases hchange with
  | @add cs' s' f feed _ _ _ hprovides =>
      have hlisted : (c.insertFeed cs' s' f feed).streams feed.id = some cs' :=
        Function.update_self ..
      have hid := hinv.provides_id hprovides
      by_cases heq : cs = cs'
      · subst heq
        rw [streamOf, Catalog.insertFeed, setStream_catalogStreams, Function.update_self] at hs
        cases Option.some.inj hs
        rw [hid] at hunlisted
        exact absurd hlisted hunlisted
      · refine Or.inl ⟨?_, ?_⟩
        · rwa [streamOf, Catalog.insertFeed, setStream_catalogStreams,
            Function.update_of_ne heq] at hs
        · intro hold
          by_cases hsame : id = feed.id
          · subst hsame
            obtain ⟨hstream, -⟩ | ⟨hnone, -⟩ := hprovides
            · exact heq (Option.some.inj (hold.symm.trans hstream))
            · cases hold.symm.trans hnone
          · have hkept : (c.insertFeed cs' s' f feed).streams id = c.streams id :=
              Function.update_of_ne hsame _ _
            exact hunlisted (hkept.trans hold)
  | addStore _ hstream => exact Or.inl ⟨hupdate rfl hstream hs, hunlisted⟩
  | remove _ _ _ hstream => exact Or.inl ⟨hupdate rfl hstream hs, hunlisted⟩
  | removeStore _ hstream _ => exact Or.inl ⟨hupdate rfl hstream hs, hunlisted⟩
  | removeLast _ hstream _ => exact Or.inl ⟨hupdate rfl hstream hs, hunlisted⟩
  | @removePublish f feed _ _ =>
      by_cases heq : id = feed.id
      · rw [heq]
        exact Or.inr (Finset.notMem_erase _ _)
      · refine Or.inl ⟨hs, ?_⟩
        change Function.update c.streams feed.id none id ≠ some cs at hunlisted
        rwa [Function.update_of_ne heq] at hunlisted
  | _ => exact Or.inl ⟨hs, hunlisted⟩

end Catalog

end Runkit.EventStream
