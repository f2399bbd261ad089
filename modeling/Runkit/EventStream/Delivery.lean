/-
  EventStream/Delivery.lean --- what consumers of the catalog are given.

  Whatever the catalog, its feeds and their sources do meanwhile, the segments that
  one call of `Catalog.Consume` passes to its consumer follow each other without a
  gap or an overlap, and hold exactly the events of the stream that were asked for.

  A consumer may see a cached segment of any feed at any moment, so the invariant is
  that every cached segment is at all times a complete piece of its stream.
-/
import Runkit.EventStream.Catalog

set_option autoImplicit false

namespace Runkit.EventStream

open Runkit.Foundation

variable {S W C : Type}

/-! ## What does not change -/

namespace Catalog

/-- The stream and the types of a feed, which never change. -/
def feedOf (c : Catalog S) (f : FeedRef) : Option (UUID × TypeFilter) :=
  (c.feeds f).map fun feed => (feed.id, feed.types)

/-- The stream of a `catalogStream`, which never changes. -/
def streamOf (c : Catalog S) (cs : StreamRef) : Option UUID :=
  (c.catalogStreams cs).map CatalogStream.id

/-- Everything that was there is still there. -/
structure Evolves (c c' : Catalog S) : Prop where
  feeds : ∀ f v, c.feedOf f = some v → c'.feedOf f = some v
  streams : ∀ cs id, c.streamOf cs = some id → c'.streamOf cs = some id

theorem Evolves.refl (c : Catalog S) : c.Evolves c := ⟨fun _ _ h => h, fun _ _ h => h⟩

theorem Evolves.trans {a b c : Catalog S} (h : a.Evolves b) (h' : b.Evolves c) : a.Evolves c :=
  ⟨fun f v hv => h'.feeds f v (h.feeds f v hv),
    fun cs id hid => h'.streams cs id (h.streams cs id hid)⟩

/-- Only the feeds and the `catalogStream`s count. -/
theorem Evolves.of_eq {c c' : Catalog S} (hfeeds : c'.feeds = c.feeds)
    (hstreams : c'.catalogStreams = c.catalogStreams) : c.Evolves c' := by
  refine ⟨?_, ?_⟩
  · intro f v hv
    rwa [feedOf, hfeeds]
  · intro cs id hid
    rwa [streamOf, hstreams]

variable {c : Catalog S} {f : FeedRef} {feed feed' : Feed S} {cs : StreamRef}
  {s s' : CatalogStream}

theorem feedOf_eq (h : c.feeds f = some feed) : c.feedOf f = some (feed.id, feed.types) := by
  rw [feedOf, h, Option.map_some]

theorem streamOf_eq (h : c.catalogStreams cs = some s) : c.streamOf cs = some s.id := by
  rw [streamOf, h, Option.map_some]

theorem Evolves.setFeed
    (h : ∀ feed, c.feeds f = some feed → feed'.id = feed.id ∧ feed'.types = feed.types) :
    c.Evolves (c.setFeed f feed') := by
  refine ⟨?_, fun _ _ hid => hid⟩
  intro g v hv
  by_cases heq : g = f
  · subst heq
    obtain ⟨feed, hfeed, rfl⟩ := Option.map_eq_some_iff.mp hv
    obtain ⟨hid, htypes⟩ := h feed hfeed
    simp [feedOf, hid, htypes]
  · rwa [feedOf, setFeed_feeds, Function.update_of_ne heq]

theorem Evolves.setStream (h : ∀ s, c.catalogStreams cs = some s → s'.id = s.id) :
    c.Evolves (c.setStream cs s') := by
  refine ⟨fun _ _ hv => hv, ?_⟩
  intro cs' id hid
  by_cases heq : cs' = cs
  · subst heq
    obtain ⟨s, hs, rfl⟩ := Option.map_eq_some_iff.mp hid
    simp [streamOf, h s hs]
  · rwa [streamOf, setStream_catalogStreams, Function.update_of_ne heq]

theorem Evolves.insertFeed (hfresh : c.feeds f = none) (hprovides : c.Provides feed.id cs s) :
    c.Evolves (c.insertFeed cs s f feed) := by
  have hfeeds : c.Evolves (c.setFeed f feed) := by
    refine .setFeed ?_
    intro old hold
    cases hfresh.symm.trans hold
  have hstreams : (c.setFeed f feed).Evolves ((c.setFeed f feed).setStream cs
      { s with availableFeeds := insert f s.availableFeeds }) := by
    refine .setStream ?_
    intro old hold
    obtain ⟨-, hs⟩ | ⟨-, hnone, -⟩ := hprovides
    · cases hs.symm.trans hold
      rfl
    · cases hnone.symm.trans hold
  have hboth := hfeeds.trans hstreams
  exact ⟨hboth.feeds, hboth.streams⟩

end Catalog

/-! ## The catalog -/

/-- The feeds that a `catalogStream` refers to. -/
def CatalogStream.refersTo (s : CatalogStream) (f : FeedRef) : Prop :=
  f ∈ s.availableFeeds ∨ s.currentFeed = some f

/-- What holds of the catalog at all times. -/
structure CatalogInvariant (logs : UUID → EventLog) (c : Catalog S) : Prop where
  /-- Every cached segment is a complete piece of its stream. -/
  caches : ∀ f feed, c.feeds f = some feed →
    feed.cache.segment.value.Of (logs feed.id) feed.types
  streams : ∀ id cs, c.streams id = some cs → c.streamOf cs = some id
  /-- A `catalogStream` refers to feeds of its own stream only. -/
  members : ∀ cs s, c.catalogStreams cs = some s → ∀ f, s.refersTo f →
    ∃ types, c.feedOf f = some (s.id, types)
  adding : ∀ cs s f, c.critical = some (.addStore cs f) → c.catalogStreams cs = some s →
    f ∈ s.availableFeeds

namespace CatalogInvariant

variable {logs logs' : UUID → EventLog} {c c' : Catalog S} {f : FeedRef}
  {feed feed' : Feed S} {cs : StreamRef} {s s' : CatalogStream}

theorem empty (cacheSize : Nat) : CatalogInvariant logs (Catalog.empty cacheSize : Catalog S) where
  caches := by intro f feed h; cases h
  streams := by intro id cs h; cases h
  members := by intro cs s h; cases h
  adding := by intro cs s f h; cases h

theorem grow (h : CatalogInvariant logs c) (hgrow : ∀ id, (logs id).Extends (logs' id)) :
    CatalogInvariant logs' c where
  caches := fun f feed hfeed => (h.caches f feed hfeed).grow (hgrow _)
  streams := h.streams
  members := h.members
  adding := h.adding

/-- Changing a feed, but neither its stream nor its types. -/
theorem setFeed (h : CatalogInvariant logs c) (hfeed : c.feeds f = some feed)
    (hid : feed'.id = feed.id) (htypes : feed'.types = feed.types)
    (hcache : feed'.cache.segment.value.Of (logs feed'.id) feed'.types) :
    CatalogInvariant logs (c.setFeed f feed') ∧ c.Evolves (c.setFeed f feed') := by
  have hevolves : c.Evolves (c.setFeed f feed') := by
    refine .setFeed ?_
    intro old hold
    cases hfeed.symm.trans hold
    exact ⟨hid, htypes⟩
  refine ⟨⟨?_, h.streams, ?_, h.adding⟩, hevolves⟩
  · intro g other hother
    obtain ⟨-, hnew⟩ | ⟨-, hold⟩ := update_eq_some hother
    · cases hnew
      exact hcache
    · exact h.caches g other hold
  · intro cs s hs g hg
    obtain ⟨types, hv⟩ := h.members cs s hs g hg
    exact ⟨types, hevolves.feeds g _ hv⟩

/-- Changing the number of reads in progress, or closing a feed. -/
theorem setFeed_sameCache (h : CatalogInvariant logs c) (hfeed : c.feeds f = some feed)
    (hid : feed'.id = feed.id) (htypes : feed'.types = feed.types)
    (hcache : feed'.cache = feed.cache) :
    CatalogInvariant logs (c.setFeed f feed') ∧ c.Evolves (c.setFeed f feed') := by
  refine h.setFeed hfeed hid htypes ?_
  rw [hcache, hid, htypes]
  exact h.caches f feed hfeed

/-- Changing which feeds a `catalogStream` refers to, and what comes next. -/
theorem setStream (h : CatalogInvariant logs c) (hs : c.catalogStreams cs = some s)
    (hid : s'.id = s.id) (hrefers : ∀ f, s'.refersTo f → s.refersTo f) {critical : Critical}
    (hcritical : ∀ cs f, critical ≠ .addStore cs f) :
    CatalogInvariant logs { c.setStream cs s' with critical := some critical } ∧
      c.Evolves { c.setStream cs s' with critical := some critical } := by
  have hevolves : c.Evolves (c.setStream cs s') := by
    refine .setStream ?_
    intro old hold
    cases hs.symm.trans hold
    exact hid
  refine ⟨⟨h.caches, ?_, ?_, ?_⟩, ⟨hevolves.feeds, hevolves.streams⟩⟩
  · intro id cs' hstream
    exact hevolves.streams _ _ (h.streams id cs' hstream)
  · intro cs' other hother g hg
    obtain ⟨rfl, hnew⟩ | ⟨-, hold⟩ := update_eq_some hother
    · cases hnew
      rw [hid]
      exact h.members _ s hs g (hrefers g hg)
    · exact h.members cs' other hold g hg
  · intro cs' other g hadd
    exact absurd (Option.some.inj hadd) (hcritical cs' g)

/-- Changing neither the feeds nor what refers to them. -/
theorem relabel (h : CatalogInvariant logs c) (hfeeds : c'.feeds = c.feeds)
    (hcatalogStreams : c'.catalogStreams = c.catalogStreams)
    (hstreams : ∀ id cs, c'.streams id = some cs → c.streams id = some cs)
    (hcritical : ∀ cs f, c'.critical ≠ some (.addStore cs f)) :
    CatalogInvariant logs c' ∧ c.Evolves c' := by
  have hevolves : c.Evolves c' := .of_eq hfeeds hcatalogStreams
  refine ⟨⟨?_, ?_, ?_, ?_⟩, hevolves⟩
  · rw [hfeeds]
    exact h.caches
  · intro id cs hstream
    exact hevolves.streams _ _ (h.streams id cs (hstreams id cs hstream))
  · intro cs s hs f hf
    rw [hcatalogStreams] at hs
    obtain ⟨types, hv⟩ := h.members cs s hs f hf
    exact ⟨types, hevolves.feeds f _ hv⟩
  · intro cs s f hadd
    exact absurd hadd (hcritical cs f)

/-- The `catalogStream` that a feed is added to is one of the stream. -/
theorem provides_id {id : UUID} (h : CatalogInvariant logs c) (hprovides : c.Provides id cs s) :
    s.id = id := by
  obtain ⟨hstream, hs⟩ | ⟨-, -, rfl⟩ := hprovides
  · have hid := h.streams id cs hstream
    rw [Catalog.streamOf_eq hs] at hid
    exact Option.some.inj hid
  · rfl

/-- What a `catalogStream` refers to before a feed is added to it. -/
theorem provides_refersTo {id : UUID} (h : CatalogInvariant logs c)
    (hprovides : c.Provides id cs s) (hf : s.refersTo f) :
    ∃ types, c.feedOf f = some (s.id, types) := by
  obtain ⟨-, hs⟩ | ⟨-, -, rfl⟩ := hprovides
  · exact h.members cs s hs f hf
  · obtain hmem | hcurrent := hf
    · exact absurd hmem (Finset.notMem_empty f)
    · cases hcurrent

theorem insertFeed (h : CatalogInvariant logs c) (hfresh : c.feeds f = none)
    (hprovides : c.Provides feed.id cs s)
    (hcache : feed.cache.segment.value.Of (logs feed.id) feed.types) :
    CatalogInvariant logs (c.insertFeed cs s f feed) ∧ c.Evolves (c.insertFeed cs s f feed) := by
  have hid := h.provides_id hprovides
  have hevolves : c.Evolves (c.insertFeed cs s f feed) := .insertFeed hfresh hprovides
  refine ⟨⟨?_, ?_, ?_, ?_⟩, hevolves⟩
  · intro g other hother
    obtain ⟨-, hnew⟩ | ⟨-, hold⟩ := update_eq_some hother
    · cases hnew
      exact hcache
    · exact h.caches g other hold
  · intro id cs' hstream
    obtain ⟨rfl, hnew⟩ | ⟨-, hold⟩ := update_eq_some hstream
    · cases hnew
      have hset : (c.insertFeed cs s f feed).streamOf cs = some s.id :=
        Catalog.streamOf_eq (s := { s with availableFeeds := insert f s.availableFeeds })
          (Function.update_self ..)
      rwa [hid] at hset
    · exact hevolves.streams _ _ (h.streams id cs' hold)
  · intro cs' other hother g hg
    obtain ⟨rfl, hnew⟩ | ⟨-, hold⟩ := update_eq_some hother
    · cases hnew
      by_cases heq : g = f
      · subst heq
        refine ⟨feed.types, ?_⟩
        rw [hid]
        exact Catalog.feedOf_eq (Function.update_self ..)
      · have hold : s.refersTo g := by
          obtain hmem | hcurrent := hg
          · exact Or.inl (Finset.mem_of_mem_insert_of_ne hmem heq)
          · exact Or.inr hcurrent
        obtain ⟨types, hv⟩ := h.provides_refersTo hprovides hold
        exact ⟨types, hevolves.feeds g _ hv⟩
    · obtain ⟨types, hv⟩ := h.members cs' other hold g hg
      exact ⟨types, hevolves.feeds g _ hv⟩
  · intro cs' other g hcritical hother
    have hadd := Option.some.inj hcritical
    split at hadd
    · cases hadd
      rw [Catalog.insertFeed, Catalog.setStream_catalogStreams, Function.update_self] at hother
      cases hother
      exact Finset.mem_insert_self _ _
    · cases hadd

end CatalogInvariant

/-! ## Calls of `Catalog.Watch` -/

/-- The segment that is being delivered. -/
def Delivery.segment : Delivery → Segment
  | .finding seg => seg
  | .adding _ seg => seg
  | .appending _ seg => seg
  | .checked _ seg => seg
  | .aligned _ seg => seg

/-- The feed that the segment is delivered to, once it is known. -/
def Delivery.feed : Delivery → Option FeedRef
  | .finding _ => none
  | .adding f _ => some f
  | .appending f _ => some f
  | .checked f _ => some f
  | .aligned f _ => some f

/-- What holds of a call of `Catalog.Watch` at all times. -/
structure Watch.Valid (logs : UUID → EventLog) (c : Catalog S) (w : Watch S) : Prop where
  feeds : ∀ id f, w.feeds.lookup id = some f → c.feedOf f = some (id, w.types)
  segments : ∀ id d, w.deliveries id = some d → d.segment.Of (logs id) w.types
  targets : ∀ id d f, w.deliveries id = some d → d.feed = some f →
    c.feedOf f = some (id, w.types)

namespace Watch

variable {logs logs' : UUID → EventLog} {c c' : Catalog S} {w w' : Watch S}

theorem Valid.start (source : S) (types : TypeFilter) :
    (Watch.start source types).Valid logs c where
  feeds := by intro id f h; cases h
  segments := by intro id d h; cases h
  targets := by intro id d f h; cases h

theorem Valid.mono (h : w.Valid logs c) (hgrow : ∀ id, (logs id).Extends (logs' id))
    (hevolves : c.Evolves c') : w.Valid logs' c' where
  feeds := fun id f hf => hevolves.feeds f _ (h.feeds id f hf)
  segments := fun id d hd => (h.segments id d hd).grow (hgrow id)
  targets := fun id d f hd hf => hevolves.feeds f _ (h.targets id d f hd hf)

/-- Changing what is being delivered for one stream. -/
theorem Valid.setDelivery (h : w.Valid logs c) {id : UUID} {d : Option Delivery}
    (hsegment : ∀ d', d = some d' → d'.segment.Of (logs id) w.types)
    (htarget : ∀ d' f, d = some d' → d'.feed = some f → c.feedOf f = some (id, w.types)) :
    (w.setDelivery id d).Valid logs c where
  feeds := h.feeds
  segments := by
    intro id' d' hd'
    obtain ⟨rfl, hnew⟩ | ⟨-, hold⟩ := update_eq_some hd'
    · exact hsegment d' hnew
    · exact h.segments id' d' hold
  targets := by
    intro id' d' f hd' hf
    obtain ⟨rfl, hnew⟩ | ⟨-, hold⟩ := update_eq_some hd'
    · exact htarget d' f hnew hf
    · exact h.targets id' d' f hold hf

/-- Going on with the delivery of a segment to a feed. -/
theorem Valid.proceed (h : w.Valid logs c) {id : UUID} {d d' : Delivery}
    (hd : w.deliveries id = some d) (hsegment : d'.segment = d.segment)
    (hfeed : d'.feed = d.feed) : (w.setDelivery id (some d')).Valid logs c := by
  refine h.setDelivery ?_ ?_
  · rintro _ ⟨⟩
    rw [hsegment]
    exact h.segments id d hd
  · rintro _ f ⟨⟩ hf
    rw [hfeed] at hf
    exact h.targets id d f hd hf

theorem Valid.done (h : w.Valid logs c) {id : UUID} : (w.setDelivery id none).Valid logs c := by
  refine h.setDelivery ?_ ?_
  · rintro _ ⟨⟩
  · rintro _ _ ⟨⟩

/-- The feed that a segment is delivered to is one of the stream. -/
theorem Valid.target_eq (h : w.Valid logs c) {id : UUID} {d : Delivery} {f : FeedRef}
    {feed : Feed S} (hd : w.deliveries id = some d) (hf : d.feed = some f)
    (hfeed : c.feeds f = some feed) : feed.id = id ∧ feed.types = w.types := by
  have htarget := h.targets id d f hd hf
  rw [Catalog.feedOf_eq hfeed] at htarget
  exact Prod.mk.inj (Option.some.inj htarget)

theorem Valid.withPhase (h : w.Valid logs c) {phase : WatchPhase} :
    { w with phase := phase }.Valid logs c :=
  ⟨h.feeds, h.segments, h.targets⟩

/-- A step of a call of `Catalog.Watch` keeps what holds of the catalog and of the
call. -/
theorem Step.valid (hstep : Step logs c w c' w') (hc : CatalogInvariant logs c)
    (hw : w.Valid logs c) :
    CatalogInvariant logs c' ∧ c.Evolves c' ∧ w'.Valid logs c' := by
  have hkeep : ∀ {w' : Watch S}, w'.Valid logs c →
      CatalogInvariant logs c ∧ c.Evolves c ∧ w'.Valid logs c :=
    fun hw' => ⟨hc, .refl c, hw'⟩
  have hcatalog : ∀ {c' : Catalog S} {w' : Watch S}, w'.Valid logs c →
      CatalogInvariant logs c' ∧ c.Evolves c' →
      CatalogInvariant logs c' ∧ c.Evolves c' ∧ w'.Valid logs c' :=
    fun hw' hc' => ⟨hc'.1, hc'.2, hw'.mono (fun _ => .refl _) hc'.2⟩
  cases hstep with
  | deliver hphase hidle hseg =>
      refine hkeep (hw.setDelivery ?_ ?_)
      · rintro _ ⟨⟩
        exact hseg
      · rintro _ _ ⟨⟩ ⟨⟩
  | @find id f seg hdelivery hfeed =>
      refine hkeep (hw.setDelivery ?_ ?_)
      · rintro _ ⟨⟩
        exact hw.segments id (.finding seg) hdelivery
      · rintro _ _ ⟨⟩ ⟨⟩
        exact hw.feeds id f hfeed
  | @add id f seg cache cs s hdelivery hnew hfree hfresh hcache hstream =>
      have hseg := hw.segments id _ hdelivery
      have hempty : cache.segment.value.Of (logs id) w.types := by
        rw [Cache.new_segment hcache]
        exact .reset (Nat.le_trans hseg.ordered hseg.within)
      let feed : Feed S :=
        { id := id
          source := w.source
          types := w.types
          cache := cache
          closed := false
          reads := 0 }
      obtain ⟨hc', hevolves⟩ : CatalogInvariant logs (c.insertFeed cs s f feed) ∧
          c.Evolves (c.insertFeed cs s f feed) := hc.insertFeed hfresh hstream hempty
      refine ⟨hc', hevolves, (hw.mono (fun _ => .refl _) hevolves).setDelivery ?_ ?_⟩
      · rintro _ ⟨⟩
        exact hseg
      · rintro _ _ ⟨⟩ ⟨⟩
        exact Catalog.feedOf_eq (c := c.insertFeed cs s f _) (Function.update_self ..)
  | @addStore id f seg cs s hdelivery hcritical hstream =>
      refine hcatalog hw (hc.setStream hstream ?_ ?_ ?_)
      · rfl
      · intro g hg
        obtain hmem | hcurrent := hg
        · exact Or.inl hmem
        · cases hcurrent
          exact Or.inl (hc.adding cs s f hcritical hstream)
      · simp
  | addPublish hdelivery hcritical =>
      exact hcatalog hw (hc.relabel rfl rfl (fun _ _ h => h) (by simp))
  | @addReturn id f seg hdelivery hcritical =>
      have hproceed : (w.setDelivery id (some (.appending f seg))).Valid logs c :=
        hw.proceed hdelivery rfl rfl
      have htarget := hw.targets id _ f hdelivery rfl
      refine hcatalog ⟨?_, hproceed.segments, hproceed.targets⟩
        (hc.relabel rfl rfl (fun _ _ h => h) (by simp))
      intro id' g hg
      rw [List.lookup_cons] at hg
      split at hg
      · rename_i heq
        cases hg
        rw [eq_of_beq heq]
        exact htarget
      · exact hw.feeds id' g hg
  | skip hdelivery hfeed hclosed => exact hkeep hw.done
  | check hdelivery hfeed hopen => exact hkeep (hw.proceed hdelivery rfl rfl)
  | @reset id f seg feed hdelivery hfeed hrestart =>
      obtain ⟨rfl, htypes⟩ := hw.target_eq hdelivery rfl hfeed
      have hseg := hw.segments _ _ hdelivery
      refine hcatalog (hw.proceed hdelivery rfl rfl) (hc.setFeed hfeed rfl rfl ?_)
      exact .reset (Nat.le_trans hseg.ordered hseg.within)
  | align hdelivery hfeed hcontiguous => exact hkeep (hw.proceed hdelivery rfl rfl)
  | @append id f seg feed cache hdelivery hfeed hcache =>
      obtain ⟨rfl, htypes⟩ := hw.target_eq hdelivery rfl hfeed
      have hseg := hw.segments _ _ hdelivery
      rw [← htypes] at hseg
      obtain ⟨next, hnext, rfl⟩ := Option.map_eq_some_iff.mp hcache
      exact hcatalog hw.done
        (hc.setFeed hfeed rfl rfl ((hc.caches f feed hfeed).appended hseg hnext))
  | stop hphase hidle => exact hkeep hw.withPhase
  | @remove f rest feed cs s hphase hfree hfeed hstreams hstream =>
      refine hcatalog hw (hc.setStream hstream ?_ ?_ ?_)
      · rfl
      · intro g hg
        obtain hmem | hcurrent := hg
        · exact Or.inl (Finset.mem_of_mem_erase hmem)
        · exact Or.inr hcurrent
      · intro cs' g
        split <;> simp
  | removeStore hphase hcritical hstream hnext =>
      refine hcatalog hw (hc.setStream hstream ?_ ?_ ?_)
      · rfl
      · intro g hg
        obtain hmem | hcurrent := hg
        · exact Or.inl hmem
        · cases hcurrent
          exact Or.inl hnext
      · simp
  | removeLast hphase hcritical hstream hnone =>
      refine hcatalog hw (hc.setStream hstream ?_ ?_ ?_)
      · rfl
      · intro g hg
        obtain hmem | hcurrent := hg
        · exact Or.inl hmem
        · cases hcurrent
      · simp
  | removePublish hphase hcritical hfeed =>
      refine hcatalog hw (hc.relabel rfl rfl ?_ (by simp))
      intro id cs hstream
      obtain ⟨-, hnew⟩ | ⟨-, hold⟩ := update_eq_some hstream
      · cases hnew
      · exact hold
  | @removeClose f rest feed hphase hcritical hfeed =>
      let closed : Catalog S := c.setFeed f { feed with closed := true }
      obtain ⟨hset, hevolves⟩ : CatalogInvariant logs closed ∧ c.Evolves closed :=
        hc.setFeed_sameCache hfeed rfl rfl rfl
      obtain ⟨hlabel, hevolves'⟩ :
          CatalogInvariant logs { closed with critical := some (.removeReturn f) } ∧
            closed.Evolves { closed with critical := some (.removeReturn f) } :=
        hset.relabel rfl rfl (fun _ _ h => h) (by simp)
      exact hcatalog hw ⟨hlabel, hevolves.trans hevolves'⟩
  | removeReturn hphase hcritical =>
      exact hcatalog hw.withPhase (hc.relabel rfl rfl (fun _ _ h => h) (by simp))
  | drain hphase => exact hkeep hw.withPhase
  | wait hphase hfeed hreads => exact hkeep hw.withPhase
  | finish hphase => exact hkeep hw.withPhase

end Watch

/-! ## Calls of `Catalog.Consume` -/

/-- The segment that is being passed to the consumer. -/
def FeedPhase.segment : FeedPhase → Option Segment
  | .deliver seg => some seg
  | .readDeliver _ seg => some seg
  | _ => none

namespace Consumer

/-- The segment that is being passed to the consumer. -/
def delivering (k : Consumer) : Option Segment :=
  match k.phase with
  | .inFeed _ _ _ phase => phase.segment
  | _ => none

/-- The segment is the next one of those that the call asks for. -/
structure Next (log : EventLog) (k : Consumer) (seg : Segment) : Prop where
  stream : seg.streamID = k.streamID
  begin_eq : seg.begin = k.cp
  of : seg.Of log (some k.types)

/-- The feed is one of the stream that the call asks for, and carries its types. -/
def ServedBy (c : Catalog S) (k : Consumer) (f : FeedRef) : Prop :=
  ∃ types, c.feedOf f = some (k.streamID, types) ∧
    ∀ env, admits (some k.types) env = true → admits types env = true

/-- What holds of where the call is. -/
def PhaseValid (log : EventLog) (c : Catalog S) (k : Consumer) : ConsumePhase → Prop
  | .lookup => True
  | .loadFeed cs => c.streamOf cs = some k.streamID
  | .inFeed cs f _ phase =>
      c.streamOf cs = some k.streamID ∧ k.ServedBy c f ∧
        ∀ seg, phase.segment = some seg → k.Next log seg
  | .feedClosed cs => c.streamOf cs = some k.streamID
  | .returned _ => True

/-- What holds of a call of `Catalog.Consume` at all times. -/
structure Valid (log : EventLog) (c : Catalog S) (k : Consumer) : Prop where
  contiguous : Contiguous Segment.begin Segment.end_ k.begin k.accepted
  cp_eq : k.cp = reach Segment.end_ k.begin k.accepted
  accepted : ∀ seg ∈ k.accepted, seg.streamID = k.streamID ∧ seg.Of log (some k.types)
  phase : k.PhaseValid log c k.phase

variable {log later : EventLog} {c c' : Catalog S} {k k' : Consumer}

theorem Valid.start (streamID : UUID) (types : Finset UUID) (begin : Nat) :
    (Consumer.start streamID types begin).Valid log c where
  contiguous := True.intro
  cp_eq := rfl
  accepted := by intro seg h; cases h
  phase := True.intro

theorem ServedBy.mono {f : FeedRef} (h : k.ServedBy c f) (hevolves : c.Evolves c') :
    k.ServedBy c' f := by
  obtain ⟨types, hfeed, htypes⟩ := h
  exact ⟨types, hevolves.feeds f _ hfeed, htypes⟩

theorem ServedBy.feed_id {f : FeedRef} {feed : Feed S} (h : k.ServedBy c f)
    (hfeed : c.feeds f = some feed) : feed.id = k.streamID := by
  obtain ⟨types, hv, -⟩ := h
  rw [Catalog.feedOf_eq hfeed] at hv
  exact (Prod.mk.inj (Option.some.inj hv)).1

theorem PhaseValid.mono {phase : ConsumePhase} (h : k.PhaseValid log c phase)
    (hextends : log.Extends later) (hevolves : c.Evolves c') :
    k.PhaseValid later c' phase := by
  cases phase with
  | lookup => exact True.intro
  | loadFeed cs => exact hevolves.streams cs _ h
  | inFeed cs f confirmed phase =>
      obtain ⟨hstream, hserved, hnext⟩ := h
      refine ⟨hevolves.streams cs _ hstream, hserved.mono hevolves, ?_⟩
      intro seg hseg
      obtain ⟨hid, hbegin, hof⟩ := hnext seg hseg
      exact ⟨hid, hbegin, hof.grow hextends⟩
  | feedClosed cs => exact hevolves.streams cs _ h
  | returned result => exact True.intro

theorem Valid.mono (h : k.Valid log c) (hextends : log.Extends later)
    (hevolves : c.Evolves c') : k.Valid later c' where
  contiguous := h.contiguous
  cp_eq := h.cp_eq
  accepted := fun seg hseg =>
    ⟨(h.accepted seg hseg).1, (h.accepted seg hseg).2.grow hextends⟩
  phase := h.phase.mono hextends hevolves

theorem Valid.withPhase (h : k.Valid log c) {phase : ConsumePhase}
    (hphase : k.PhaseValid log c phase) : { k with phase := phase }.Valid log c where
  contiguous := h.contiguous
  cp_eq := h.cp_eq
  accepted := h.accepted
  phase := by
    cases phase with
    | inFeed cs f confirmed phase =>
        obtain ⟨hstream, hserved, hnext⟩ := hphase
        refine ⟨hstream, hserved, ?_⟩
        intro seg hseg
        obtain ⟨hid, hbegin, hof⟩ := hnext seg hseg
        exact ⟨hid, hbegin, hof⟩
    | _ => exact hphase

/-- Accepting the next segment. -/
theorem Valid.accept (h : k.Valid log c) {seg : Segment} (hnext : k.Next log seg)
    {cs : StreamRef} {f : FeedRef} {confirmed : Bool} {phase : FeedPhase}
    (hstream : c.streamOf cs = some k.streamID) (hserved : k.ServedBy c f)
    (hphase : phase.segment = none) :
    (k.accept seg (.inFeed cs f confirmed phase)).Valid log c where
  contiguous := by
    refine contiguous_concat.mpr ⟨h.contiguous, ?_, hnext.of.ordered⟩
    rw [hnext.begin_eq, h.cp_eq]
    rfl
  cp_eq := by
    change seg.end_ = reach Segment.end_ k.begin (k.accepted ++ [seg])
    rw [reach_concat]
  accepted := by
    intro other hother
    obtain hother | hother := List.mem_append.mp hother
    · exact h.accepted other hother
    · rw [List.mem_singleton.mp hother]
      exact ⟨hnext.stream, hnext.of⟩
  phase := by
    refine ⟨hstream, hserved, ?_⟩
    intro other hother
    rw [hphase] at hother
    cases hother

/-- What the cached segment of a feed offers is the next segment. -/
theorem afterLoad_next {f : FeedRef} {feed : Feed S} {confirmed : Bool}
    (hserved : k.ServedBy c f) (hfeed : c.feeds f = some feed)
    (hcache : feed.cache.segment.value.Of log feed.types) {seg : Segment}
    (hseg : (k.afterLoad confirmed feed.cache.segment).segment = some seg) :
    k.Next log seg := by
  obtain ⟨types, hv, htypes⟩ := hserved
  rw [Catalog.feedOf_eq hfeed] at hv
  obtain ⟨-, rfl⟩ := Prod.mk.inj (Option.some.inj hv)
  unfold afterLoad at hseg
  split at hseg
  · rename_i envelopes hread
    cases hseg
    exact ⟨rfl, rfl, hcache.read htypes hread⟩
  · cases hseg
  · split at hseg <;> cases hseg

theorem watches_served {f : FeedRef} {feed : Feed S} (hfeed : c.feeds f = some feed)
    (hid : feed.id = k.streamID) (hwatches : feed.watches k.types = true) :
    k.ServedBy c f := by
  refine ⟨feed.types, by rw [Catalog.feedOf_eq hfeed, hid], ?_⟩
  intro env henv
  unfold Feed.watches at hwatches
  split at hwatches
  · rename_i hall
    rw [hall]
    rfl
  · rename_i watched hsome
    rw [hsome]
    have hsubset := of_decide_eq_true hwatches
    exact decide_eq_true (hsubset (of_decide_eq_true henv))

/-- Where a call goes once `Source.Read` has returned. -/
theorem afterSourceRead_cases (k : Consumer) (cs : StreamRef) (f : FeedRef) (closed : Bool)
    (reason : ReadReason) (outcome : ReadOutcome) :
    (k.afterSourceRead cs f closed reason outcome = .inFeed cs f true .load ∧
      ∀ start, reason = .before start → k.cp ≠ start) ∨
    k.afterSourceRead cs f closed reason outcome = .feedClosed cs ∨
    ∃ result, k.afterSourceRead cs f closed reason outcome = .returned result ∧
      (result = .shorter ∨ ∃ e, outcome = .failed e ∧ result = .readFailed e) := by
  have hread : (k.afterRead cs f reason = .inFeed cs f true .load ∧
      ∀ start, reason = .before start → k.cp ≠ start) ∨
      k.afterRead cs f reason = .returned .shorter := by
    cases reason with
    | before start =>
        rw [afterRead]
        split
        · exact Or.inr rfl
        · rename_i hmoved
          refine Or.inl ⟨rfl, ?_⟩
          intro start' hstart
          cases hstart
          exact hmoved
    | after => exact Or.inl ⟨rfl, nofun⟩
  cases outcome with
  | caughtUp =>
      exact hread.imp_right fun h => Or.inr ⟨_, h, Or.inl rfl⟩
  | ended =>
      rw [afterSourceRead]
      split
      · exact Or.inr (Or.inl rfl)
      · exact hread.imp_right fun h => Or.inr ⟨_, h, Or.inl rfl⟩
  | failed e =>
      rw [afterSourceRead]
      split
      · exact Or.inr (Or.inl rfl)
      · exact Or.inr (Or.inr ⟨_, rfl, Or.inr ⟨e, rfl, rfl⟩⟩)

/-- What follows once `Source.Read` has returned is a valid place to be. -/
theorem afterSourceRead_valid {cs : StreamRef} {f : FeedRef}
    (hstream : c.streamOf cs = some k.streamID) (hserved : k.ServedBy c f) (closed : Bool)
    (reason : ReadReason) (outcome : ReadOutcome) :
    k.PhaseValid log c (k.afterSourceRead cs f closed reason outcome) := by
  rcases k.afterSourceRead_cases cs f closed reason outcome with
    ⟨hload, -⟩ | hclosed | ⟨result, hreturned, -⟩
  · rw [hload]
    refine ⟨hstream, hserved, ?_⟩
    rintro seg ⟨⟩
  · rw [hclosed]
    exact hstream
  · rw [hreturned]
    exact True.intro

/-- A step of a call of `Catalog.Consume` keeps what holds of the catalog and of the
call. -/
theorem Step.valid {logs : UUID → EventLog} (hstep : Step (logs k.streamID) c k c' k')
    (hc : CatalogInvariant logs c) (hk : k.Valid (logs k.streamID) c) :
    CatalogInvariant logs c' ∧ c.Evolves c' ∧ k'.streamID = k.streamID ∧
      k'.Valid (logs k.streamID) c' := by
  have hvalid := hk.phase
  -- Most steps change neither the catalog nor what has been accepted.
  have hmove : ∀ {phase : ConsumePhase}, k.PhaseValid (logs k.streamID) c phase →
      CatalogInvariant logs c ∧ c.Evolves c ∧ k.streamID = k.streamID ∧
        { k with phase := phase }.Valid (logs k.streamID) c :=
    fun hphase => ⟨hc, .refl c, rfl, hk.withPhase hphase⟩
  -- A read begins or ends.
  have hcount : ∀ {f : FeedRef} {feed : Feed S} {reads : Nat} {phase : ConsumePhase},
      c.feeds f = some feed → k.PhaseValid (logs k.streamID) c phase →
      CatalogInvariant logs (c.setFeed f { feed with reads := reads }) ∧
        c.Evolves (c.setFeed f { feed with reads := reads }) ∧ k.streamID = k.streamID ∧
        { k with phase := phase }.Valid (logs k.streamID)
          (c.setFeed f { feed with reads := reads }) := by
    intro f feed reads phase hfeed hphase
    obtain ⟨hc', hevolves⟩ : CatalogInvariant logs (c.setFeed f { feed with reads := reads }) ∧
        c.Evolves (c.setFeed f { feed with reads := reads }) :=
      hc.setFeed_sameCache hfeed rfl rfl rfl
    exact ⟨hc', hevolves, rfl, (hk.withPhase hphase).mono (.refl _) hevolves⟩
  cases hstep with
  | notFound _ _ _ => exact hmove True.intro
  | found _ _ hstream => exact hmove (hc.streams _ _ hstream)
  | noFeed _ _ _ => exact hmove True.intro
  | unwatched _ _ _ _ _ => exact hmove True.intro
  | @enter cs s f feed hphase hs hcurrent hfeed hwatches =>
      rw [hphase] at hvalid
      have hstream : c.streamOf cs = some k.streamID := hvalid
      have hid : s.id = k.streamID := by
        rw [Catalog.streamOf_eq hs] at hstream
        exact Option.some.inj hstream
      obtain ⟨types, hmember⟩ := hc.members cs s hs f (Or.inr hcurrent)
      rw [Catalog.feedOf_eq hfeed] at hmember
      obtain ⟨hfeedID, -⟩ := Prod.mk.inj (Option.some.inj hmember)
      refine hmove ⟨hstream, watches_served hfeed (hfeedID.trans hid) hwatches, ?_⟩
      rintro seg ⟨⟩
  | @load cs f confirmed feed hphase hfeed =>
      rw [hphase] at hvalid
      obtain ⟨hstream, hserved, -⟩ := hvalid
      have hcache := hc.caches f feed hfeed
      rw [ServedBy.feed_id hserved hfeed] at hcache
      refine hmove ⟨hstream, hserved, ?_⟩
      intro seg hseg
      exact afterLoad_next hserved hfeed hcache hseg
  | @accept cs f confirmed seg hphase =>
      rw [hphase] at hvalid
      obtain ⟨hstream, hserved, hnext⟩ := hvalid
      exact ⟨hc, .refl c, rfl, hk.accept (hnext seg rfl) hstream hserved rfl⟩
  | reject _ => exact hmove True.intro
  | wake hphase _ _ =>
      rw [hphase] at hvalid
      obtain ⟨hstream, hserved, -⟩ := hvalid
      refine hmove ⟨hstream, hserved, ?_⟩
      rintro seg ⟨⟩
  | waitClosed hphase _ _ =>
      rw [hphase] at hvalid
      exact hmove hvalid.1
  | waitCanceled _ => exact hmove True.intro
  | startRead hphase hfeed _ =>
      rw [hphase] at hvalid
      obtain ⟨hstream, hserved, -⟩ := hvalid
      refine hcount hfeed ⟨hstream, hserved, ?_⟩
      rintro seg ⟨⟩
  | startReadClosed hphase _ _ =>
      rw [hphase] at hvalid
      exact hmove hvalid.1
  | readDeliver hphase hid hbegin hseg =>
      rw [hphase] at hvalid
      obtain ⟨hstream, hserved, -⟩ := hvalid
      refine hmove ⟨hstream, hserved, ?_⟩
      rintro seg ⟨⟩
      exact ⟨hid, hbegin, hseg⟩
  | @readAccept cs f confirmed reason seg hphase =>
      rw [hphase] at hvalid
      obtain ⟨hstream, hserved, hnext⟩ := hvalid
      exact ⟨hc, .refl c, rfl, hk.accept (hnext seg rfl) hstream hserved rfl⟩
  | readReject _ hfeed => exact hcount hfeed True.intro
  | caughtUp hphase _ _ =>
      rw [hphase] at hvalid
      obtain ⟨hstream, hserved, -⟩ := hvalid
      refine hmove ⟨hstream, hserved, ?_⟩
      rintro seg ⟨⟩
  | behind hphase _ _ =>
      rw [hphase] at hvalid
      obtain ⟨hstream, hserved, -⟩ := hvalid
      refine hmove ⟨hstream, hserved, ?_⟩
      rintro seg ⟨⟩
  | readStop hphase _ =>
      rw [hphase] at hvalid
      obtain ⟨hstream, hserved, -⟩ := hvalid
      refine hmove ⟨hstream, hserved, ?_⟩
      rintro seg ⟨⟩
  | readReturn hphase hfeed =>
      rw [hphase] at hvalid
      obtain ⟨hstream, hserved, -⟩ := hvalid
      exact hcount hfeed (afterSourceRead_valid hstream hserved _ _ _)
  | again hphase =>
      rw [hphase] at hvalid
      exact hmove hvalid
  | canceled _ => exact hmove True.intro

end Consumer

/-! ## Whole runs -/

namespace World

variable [DecidableEq W] [DecidableEq C] {w w' : World S W C}

/-- What holds in every state. -/
structure Invariant (w : World S W C) : Prop where
  catalog : CatalogInvariant w.logs w.catalog
  watches : ∀ i watch, w.watches i = some watch → watch.Valid w.logs w.catalog
  consumers : ∀ i k, w.consumers i = some k → k.Valid (w.logs k.streamID) w.catalog

omit [DecidableEq W] [DecidableEq C] in
theorem Invariant.start (cacheSize : Nat) : (start cacheSize : World S W C).Invariant where
  catalog := .empty cacheSize
  watches := by intro i watch h; cases h
  consumers := by intro i k h; cases h

theorem Invariant.step (h : w.Invariant) (hstep : Step w w') : w'.Invariant := by
  obtain ⟨hcatalog, hwatches, hconsumers⟩ := h
  cases hstep with
  | grow hextends =>
      exact ⟨hcatalog.grow hextends.update,
        fun i watch hi => (hwatches i watch hi).mono hextends.update (.refl _),
        fun i k hi => (hconsumers i k hi).mono (hextends.update _) (.refl _)⟩
  | watch _ _ =>
      refine ⟨hcatalog, ?_, hconsumers⟩
      intro j other hj
      obtain ⟨-, hnew⟩ | ⟨-, hold⟩ := update_eq_some hj
      · cases hnew
        exact .start _ _
      · exact hwatches j other hold
  | @watchStep i watch watch' catalog hwatch hstep =>
      obtain ⟨hcatalog', hevolves, hvalid⟩ := hstep.valid hcatalog (hwatches i watch hwatch)
      refine ⟨hcatalog', ?_, fun j k hj => (hconsumers j k hj).mono (.refl _) hevolves⟩
      intro j other hj
      obtain ⟨-, hnew⟩ | ⟨-, hold⟩ := update_eq_some hj
      · cases hnew
        exact hvalid
      · exact (hwatches j other hold).mono (fun _ => .refl _) hevolves
  | consume _ _ =>
      refine ⟨hcatalog, hwatches, ?_⟩
      intro j other hj
      obtain ⟨-, hnew⟩ | ⟨-, hold⟩ := update_eq_some hj
      · cases hnew
        exact .start _ _ _
      · exact hconsumers j other hold
  | @consumeStep i k k' catalog hconsumer hstep =>
      obtain ⟨hcatalog', hevolves, hid, hvalid⟩ :=
        hstep.valid hcatalog (hconsumers i k hconsumer)
      refine ⟨hcatalog', fun j watch hj => (hwatches j watch hj).mono (fun _ => .refl _) hevolves,
        ?_⟩
      intro j other hj
      obtain ⟨-, hnew⟩ | ⟨-, hold⟩ := update_eq_some hj
      · cases hnew
        rw [← hid] at hvalid
        exact hvalid
      · exact (hconsumers j other hold).mono (.refl _) hevolves

theorem Invariant.run (h : w.Invariant) (hrun : Reaches w w') : w'.Invariant := by
  refine run_preserves ?_ hrun h
  intro w₁ w₂ h₁ hstep
  exact h₁.step hstep

end World

/-- The segments that a consumer accepts during one call of `Catalog.Consume` follow
each other from the offset that it was given, and their events are exactly those
of the stream that have the given types and are before the end of the last
segment, in offset order. -/
theorem consume_delivers_stream [DecidableEq W] [DecidableEq C] {cacheSize : Nat}
    {w : World S W C} (h : World.Reaches (World.start cacheSize) w) {i : C} {k : Consumer}
    (hk : w.consumers i = some k) :
    Contiguous Segment.begin Segment.end_ k.begin k.accepted ∧
      (∀ seg ∈ k.accepted, seg.streamID = k.streamID) ∧
      k.accepted.flatMap Segment.envelopes =
        (w.logs k.streamID).read (admits (some k.types)) k.begin
          (reach Segment.end_ k.begin k.accepted) ∧
      (k.accepted.flatMap Segment.envelopes).Pairwise fun a b => a.offset < b.offset := by
  have hvalid := ((World.Invariant.start cacheSize).run h).consumers i k hk
  have hevents := flatMap_envelopes hvalid.contiguous fun seg hseg => (hvalid.accepted seg hseg).2
  refine ⟨hvalid.contiguous, fun seg hseg => (hvalid.accepted seg hseg).1, hevents, ?_⟩
  rw [hevents]
  exact Log.read_pairwise _ _ _ _

/-! ## A run -/

section Sample

variable [DecidableEq W] [DecidableEq C] {w₀ w : World S W C}

theorem World.Reaches.watched (h : World.Reaches w₀ w) (i : W) {watch watch' : Watch S}
    {catalog : Catalog S} (hwatch : w.watches i = some watch)
    (hstep : Watch.Step w.logs w.catalog watch catalog watch') :
    World.Reaches w₀
      { w with catalog := catalog, watches := Function.update w.watches i (some watch') } :=
  .tail h (.watchStep hwatch hstep)

theorem World.Reaches.consumed (h : World.Reaches w₀ w) (i : C) {k k' : Consumer}
    {catalog : Catalog S} (hconsumer : w.consumers i = some k)
    (hstep : Consumer.Step (w.logs k.streamID) w.catalog k catalog k') :
    World.Reaches w₀
      { w with catalog := catalog, consumers := Function.update w.consumers i (some k') } :=
  .tail h (.consumeStep hconsumer hstep)

end Sample

namespace Watch

variable {w : Watch S} {id : UUID}

/-- No segments of other streams are being delivered. -/
def Only (w : Watch S) (id : UUID) : Prop := ∀ id', id' ≠ id → w.deliveries id' = none

theorem Only.start {source : S} {types : TypeFilter} : (Watch.start source types).Only id :=
  fun _ _ => rfl

theorem Only.set {d : Option Delivery} (h : w.Only id) : (w.setDelivery id d).Only id := by
  intro id' hne
  exact (Function.update_of_ne hne _ _).trans (h id' hne)

theorem Only.add {feeds : List (UUID × FeedRef)} (h : w.Only id) :
    { w with feeds := feeds }.Only id := h

theorem Only.idle (h : w.Only id) : ∀ id', (w.setDelivery id none).deliveries id' = none := by
  intro id'
  by_cases heq : id' = id
  · subst heq
    exact Function.update_self ..
  · exact h.set id' heq

end Watch

/-- The first event of `twoEvents`. -/
def firstSegment : Segment := ⟨uuid 100, 0, 1, [eventEnvelope 20 2 0]⟩

/-- The second event of `twoEvents`. -/
def secondSegment : Segment := ⟨uuid 100, 1, 2, [eventEnvelope 21 4 1]⟩

theorem secondSegment_of : secondSegment.Of twoEvents none :=
  ⟨by decide, by decide, by decide⟩

/-- A feed in which the second event is cached. -/
def secondFeed (source : S) : Feed S where
  id := uuid 100
  source := source
  types := none
  cache := { capacity := 1, segment := { value := ⟨1, 2, [eventEnvelope 21 4 1]⟩, version := 2 } }
  closed := false
  reads := 0

/-- A call of `Catalog.Watch` that has created the feed. -/
def secondWatch (source : S) : Watch S where
  source := source
  types := none
  feeds := [(uuid 100, 0)]
  deliveries := fun _ => none
  phase := .watching

/-- One source is watched, which has delivered the second event of the stream. -/
structure World.Fed (w : World S W C) (i : W) (source : S) : Prop where
  log : w.logs (uuid 100) = twoEvents
  free : w.catalog.critical = none
  listed : w.catalog.streams (uuid 100) = some 0
  published : uuid 100 ∈ w.catalog.streamIDs
  stream : w.catalog.catalogStreams 0 = some
    { id := uuid 100, availableFeeds := {0}, currentFeed := some 0 }
  feed : w.catalog.feeds 0 = some (secondFeed source)
  unused : w.catalog.feeds 1 = none
  cacheSize : w.catalog.cacheSize = 1
  watch : w.watches i = some (secondWatch source)
  watches : ∀ j, j ≠ i → w.watches j = none
  consumers : ∀ j, w.consumers j = none

theorem fed_reached [DecidableEq W] [DecidableEq C] (i : W) (source : S) :
    ∃ w : World S W C, World.Reaches (World.start 1) w ∧ w.Fed i source := by
  have h : World.Reaches (World.start 1 : World S W C) (World.start 1) := .refl
  have h : World.Reaches _ _ := .tail h
    (@World.Step.grow S W C _ _ _ (uuid 100) twoEvents
      ⟨Nat.zero_le _, twoEvents.entries, rfl, fun _ _ => Nat.zero_le _⟩)
  have h : World.Reaches _ _ := .tail h
    (@World.Step.watch S W C _ _ _ i source none rfl Nat.one_pos)
  have hself : ∀ {watch : Watch S} {watches : W → Option (Watch S)},
      Function.update watches i (some watch) i = some watch := Function.update_self ..
  have h := h.watched i hself
    (@Watch.Step.deliver S _ _ _ secondSegment rfl rfl secondSegment_of)
  have h := h.watched i hself (@Watch.Step.add S _ _ _ (uuid 100) 0 secondSegment _ 0 _ rfl rfl
    rfl rfl rfl (Or.inr ⟨rfl, rfl, rfl⟩))
  have h := h.watched i hself
    (@Watch.Step.addStore S _ _ _ (uuid 100) 0 secondSegment 0 _ rfl rfl rfl)
  have h := h.watched i hself
    (@Watch.Step.addPublish S _ _ _ (uuid 100) 0 secondSegment rfl rfl)
  have h := h.watched i hself
    (@Watch.Step.addReturn S _ _ _ (uuid 100) 0 secondSegment rfl rfl)
  have h := h.watched i hself
    (@Watch.Step.check S _ _ _ (uuid 100) 0 secondSegment _ rfl rfl rfl)
  have h := h.watched i hself
    (@Watch.Step.align S _ _ _ (uuid 100) 0 secondSegment _ rfl rfl rfl)
  have h := h.watched i hself
    (@Watch.Step.append S _ _ _ (uuid 100) 0 secondSegment _ _ rfl rfl rfl)
  refine ⟨_, h, rfl, rfl, rfl, Finset.mem_insert_self .., rfl, rfl, rfl, rfl, ?_, ?_,
    fun _ => rfl⟩
  · exact hself.trans (congrArg
      (fun deliveries => some { secondWatch source with deliveries := deliveries })
      (funext Watch.Only.start.set.set.set.add.set.set.idle))
  · intro j hne
    simp [hne, World.start]

/-- A consumer that has read the first event from the source and then been given the
second one, which is cached. -/
def caughtUpConsumer : Consumer where
  streamID := uuid 100
  types := {uuid 2, uuid 4}
  begin := 0
  cp := 2
  accepted := [firstSegment, secondSegment]
  phase := .inFeed 0 0 true .load

theorem caughtUpConsumer_reached : ∃ w : World Unit Unit Unit,
    World.Reaches (World.start 1) w ∧ w.logs (uuid 100) = twoEvents ∧
      w.consumers () = some caughtUpConsumer := by
  obtain ⟨w, h, hfed⟩ := fed_reached (C := Unit) () ()
  have hfirst : firstSegment.Of (w.logs (uuid 100)) (some {uuid 2, uuid 4}) := by
    rw [hfed.log]
    exact ⟨by decide, by decide, by decide⟩
  -- A consumer begins with the first event, which is not cached.
  have h : World.Reaches _ _ := .tail h (@World.Step.consume Unit Unit Unit _ _ _ () (uuid 100)
    {uuid 2, uuid 4} 0 (hfed.consumers ()) (by decide))
  have h := h.consumed () rfl (.found rfl hfed.free hfed.listed)
  have h := h.consumed () rfl (.enter rfl hfed.stream rfl hfed.feed rfl)
  have h := h.consumed () rfl (.load rfl hfed.feed)
  have h := h.consumed () rfl
    (@Consumer.Step.startRead Unit _ _ _ 0 0 false (.before 0) _ rfl hfed.feed rfl)
  have h := h.consumed () rfl (@Consumer.Step.readDeliver Unit _ _ _ 0 0 false (.before 0)
    firstSegment rfl rfl rfl hfirst)
  have h := h.consumed () rfl
    (@Consumer.Step.readAccept Unit _ _ _ 0 0 false (.before 0) firstSegment rfl)
  have h := h.consumed () rfl
    (@Consumer.Step.caughtUp Unit _ _ _ 0 0 false (.before 0) _ rfl rfl (by decide))
  have h := h.consumed () rfl
    (@Consumer.Step.readReturn Unit _ _ _ 0 0 false (.before 0) .caughtUp _ rfl rfl)
  have h := h.consumed () rfl (@Consumer.Step.load Unit _ _ _ 0 0 true _ rfl rfl)
  have h := h.consumed () rfl (@Consumer.Step.accept Unit _ _ _ 0 0 true secondSegment rfl)
  exact ⟨_, h, hfed.log, rfl⟩

theorem consume_delivers_stream_caughtUp :
    caughtUpConsumer.accepted.flatMap Segment.envelopes =
        [eventEnvelope 20 2 0, eventEnvelope 21 4 1] ∧
      Contiguous Segment.begin Segment.end_ 0 caughtUpConsumer.accepted ∧
      caughtUpConsumer.accepted.flatMap Segment.envelopes =
        twoEvents.read (admits (some {uuid 2, uuid 4})) 0 2 := by
  obtain ⟨w, hreaches, hlog, hconsumer⟩ := caughtUpConsumer_reached
  have hmain := consume_delivers_stream hreaches hconsumer
  refine ⟨by decide, hmain.1, ?_⟩
  have hevents := hmain.2.2.1
  rwa [show caughtUpConsumer.streamID = uuid 100 from rfl, hlog] at hevents

end Runkit.EventStream
