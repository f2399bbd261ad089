/-
  EventStream/Release.lean --- sources are released before `Catalog.Watch` returns.

  `Catalog.Watch` closes its feeds and then waits for the reads that were begun on
  behalf of consumers.  The number of reads of a feed is at all times the number of
  consumers that are reading from it, and it does not grow once the feed is closed;
  hence a consumer that still holds the feed never calls the source again.
-/
import Runkit.EventStream.CurrentFeed
import Runkit.Foundation.Count

set_option autoImplicit false

namespace Runkit.EventStream

open Runkit.Foundation

variable {S W C : Type}

/-! ## Reads -/

/-- In `Source.Read`. -/
def FeedPhase.inSourceRead : FeedPhase → Bool
  | .reading _ => true
  | .readDeliver _ _ => true
  | .compare _ => true
  | _ => false

/-- Counted by the feed: in `Source.Read`, or about to be counted off. -/
def FeedPhase.counted : FeedPhase → Bool
  | .readReturned _ _ => true
  | phase => phase.inSourceRead

/-- The feed whose source is being read. -/
def ConsumePhase.reads : ConsumePhase → Option FeedRef
  | .inFeed _ f _ phase => if phase.inSourceRead then some f else none
  | _ => none

/-- The feed that counts the call as a read. -/
def ConsumePhase.counts : ConsumePhase → Option FeedRef
  | .inFeed _ f _ phase => if phase.counted then some f else none
  | _ => none

theorem ConsumePhase.counts_of_reads {phase : ConsumePhase} {f : FeedRef}
    (h : phase.reads = some f) : phase.counts = some f := by
  cases phase with
  | inFeed cs g confirmed feedPhase =>
      cases feedPhase with
      | reading _ => exact h
      | readDeliver _ _ => exact h
      | compare _ => exact h
      | _ => cases h
  | _ => cases h

namespace Consumer

variable {log : EventLog} {c c' : Catalog S} {k k' : Consumer}

/-- What a step of a consumer can do to the number of reads. -/
inductive Counting (c : Catalog S) (k : Consumer) : Catalog S → Consumer → Prop where
  | same {k' : Consumer} (hcounts : k'.phase.counts = k.phase.counts) : Counting c k c k'
  | began {k' : Consumer} {f : FeedRef} {feed : Feed S} (hfeed : c.feeds f = some feed)
      (hbefore : k.phase.counts = none) (hafter : k'.phase.counts = some f) :
      Counting c k (c.setFeed f { feed with reads := feed.reads + 1 }) k'
  | ended {k' : Consumer} {f : FeedRef} {feed : Feed S} (hfeed : c.feeds f = some feed)
      (hbefore : k.phase.counts = some f) (hafter : k'.phase.counts = none) :
      Counting c k (c.setFeed f { feed with reads := feed.reads - 1 }) k'

theorem afterLoad_counted (confirmed : Bool) (segment : Observable CacheSegment) :
    (k.afterLoad confirmed segment).counted = false := by
  unfold afterLoad
  split
  · rfl
  · rfl
  · split <;> rfl

theorem afterSourceRead_counts (cs : StreamRef) (f : FeedRef) (closed : Bool)
    (reason : ReadReason) (outcome : ReadOutcome) :
    (k.afterSourceRead cs f closed reason outcome).counts = none := by
  obtain ⟨hload, -⟩ | hclosed | ⟨result, hreturned, -⟩ :=
    k.afterSourceRead_cases cs f closed reason outcome
  · rw [hload]
    rfl
  · rw [hclosed]
    rfl
  · rw [hreturned]
    rfl

theorem Step.counting (hstep : Step log c k c' k') : Counting c k c' k' := by
  have hsame : ∀ {phase phase' : ConsumePhase}, k.phase = phase →
      phase'.counts = phase.counts → phase'.counts = k.phase.counts := by
    intro phase phase' hphase hcounts
    rw [hphase, hcounts]
  cases hstep with
  | notFound hphase _ _ => exact .same (hsame hphase rfl)
  | found hphase _ _ => exact .same (hsame hphase rfl)
  | noFeed hphase _ _ => exact .same (hsame hphase rfl)
  | unwatched hphase _ _ _ _ => exact .same (hsame hphase rfl)
  | enter hphase _ _ _ _ => exact .same (hsame hphase rfl)
  | @load cs f confirmed feed hphase _ =>
      refine .same (hsame hphase ?_)
      rw [ConsumePhase.counts, afterLoad_counted]
      rfl
  | accept hphase => exact .same (hsame hphase rfl)
  | reject hphase => exact .same (hsame hphase rfl)
  | wake hphase _ _ => exact .same (hsame hphase rfl)
  | waitClosed hphase _ _ => exact .same (hsame hphase rfl)
  | waitCanceled hphase => exact .same (hsame hphase rfl)
  | startRead hphase hfeed _ => exact .began hfeed (by rw [hphase]; rfl) rfl
  | startReadClosed hphase _ _ => exact .same (hsame hphase rfl)
  | readDeliver hphase _ _ _ => exact .same (hsame hphase rfl)
  | readAccept hphase => exact .same (hsame hphase rfl)
  | readReject hphase hfeed => exact .ended hfeed (by rw [hphase]; rfl) rfl
  | caughtUp hphase _ _ => exact .same (hsame hphase rfl)
  | behind hphase _ _ => exact .same (hsame hphase rfl)
  | readStop hphase _ => exact .same (hsame hphase rfl)
  | readReturn hphase hfeed =>
      exact .ended hfeed (by rw [hphase]; rfl) (afterSourceRead_counts _ _ _ _ _)
  | again hphase => exact .same (hsame hphase rfl)
  | canceled hphase => exact .same (hsame hphase rfl)

/-- A read is counted by a feed that exists. -/
theorem Valid.counts_feed {f : FeedRef} (h : k.Valid log c) (hcounts : k.phase.counts = some f) :
    c.feeds f ≠ none := by
  have hphase := h.phase
  cases hk : k.phase with
  | inFeed cs g confirmed phase =>
      rw [hk] at hcounts hphase
      obtain ⟨-, ⟨types, hfeed, -⟩, -⟩ := hphase
      simp only [ConsumePhase.counts] at hcounts
      split at hcounts
      · cases hcounts
        intro hnone
        rw [Catalog.feedOf, hnone] at hfeed
        cases hfeed
      · cases hcounts
  | _ =>
      rw [hk] at hcounts
      cases hcounts

end Consumer

/-! ## Feeds and the calls that own them -/

/-- The feeds that a call of `Catalog.Watch` has removed. -/
def WatchPhase.removed : WatchPhase → FeedRef → Prop
  | .watching, _ => False
  | .removing rest, f => f ∉ rest
  | .draining _, _ => True
  | .returned, _ => True

/-- The feeds that it has waited for. -/
def WatchPhase.drained : WatchPhase → FeedRef → Prop
  | .draining rest, f => f ∉ rest
  | .returned, _ => True
  | _, _ => False

namespace Watch

variable {logs : UUID → EventLog} {c c' : Catalog S} {w w' : Watch S} {f : FeedRef}

/-- The call has created the feed. -/
def Owns (w : Watch S) (f : FeedRef) : Prop :=
  f ∈ w.feeds.map Prod.snd ∨ ∃ id seg, w.deliveries id = some (.adding f seg)

/-- What holds of the feeds of a call. -/
structure Releasing (c : Catalog S) (w : Watch S) : Prop where
  idle : w.phase = .watching ∨ ∀ id, w.deliveries id = none
  removed : ∀ f ∈ w.feeds.map Prod.snd, w.phase.removed f →
    ∃ feed, c.feeds f = some feed ∧ feed.closed = true
  drained : ∀ f ∈ w.feeds.map Prod.snd, w.phase.drained f →
    ∃ feed, c.feeds f = some feed ∧ feed.closed = true ∧ feed.reads = 0

theorem Step.source (hstep : Step logs c w c' w') : w'.source = w.source := by
  cases hstep <;> rfl

/-- Where the feeds come from. -/
theorem Step.feeds {feed' : Feed S} (hstep : Step logs c w c' w')
    (hfeed' : c'.feeds f = some feed') :
    (∃ feed, c.feeds f = some feed ∧ feed'.source = feed.source ∧ feed'.reads = feed.reads) ∨
      (c.feeds f = none ∧ feed'.source = w.source ∧ feed'.reads = 0 ∧ w'.Owns f) := by
  have hsame : c.feeds f = some feed' →
      (∃ feed, c.feeds f = some feed ∧ feed'.source = feed.source ∧ feed'.reads = feed.reads) ∨
        (c.feeds f = none ∧ feed'.source = w.source ∧ feed'.reads = 0 ∧ w'.Owns f) :=
    fun hfeed => Or.inl ⟨feed', hfeed, rfl, rfl⟩
  have hset : ∀ {g : FeedRef} {feed new : Feed S}, c.feeds g = some feed →
      Function.update c.feeds g (some new) f = some feed' →
      new.source = feed.source → new.reads = feed.reads →
      (∃ feed, c.feeds f = some feed ∧ feed'.source = feed.source ∧ feed'.reads = feed.reads) ∨
        (c.feeds f = none ∧ feed'.source = w.source ∧ feed'.reads = 0 ∧ w'.Owns f) := by
    intro g feed new hfeed hupdate hsource hreads
    obtain ⟨rfl, hnew⟩ | ⟨-, hold⟩ := update_eq_some hupdate
    · cases hnew
      exact Or.inl ⟨feed, hfeed, hsource, hreads⟩
    · exact hsame hold
  cases hstep with
  | @add id g seg cache cs s _ _ _ hfresh _ _ =>
      obtain ⟨rfl, hnew⟩ | ⟨-, hold⟩ := update_eq_some hfeed'
      · cases hnew
        exact Or.inr ⟨hfresh, rfl, rfl, Or.inr ⟨id, seg, Function.update_self ..⟩⟩
      · exact hsame hold
  | reset _ hfeed _ => exact hset hfeed hfeed' rfl rfl
  | append _ hfeed _ => exact hset hfeed hfeed' rfl rfl
  | removeClose _ _ hfeed => exact hset hfeed hfeed' rfl rfl
  | _ => exact hsame hfeed'

/-- A call keeps the feeds that it has created. -/
theorem Step.owns (hstep : Step logs c w c' w') (h : w.Owns f) : w'.Owns f := by
  have hset : ∀ {id : UUID} {d : Option Delivery},
      (∀ g seg, w.deliveries id ≠ some (.adding g seg)) → (w.setDelivery id d).Owns f := by
    intro id d hother
    obtain hmem | ⟨id', seg, hdelivery⟩ := h
    · exact Or.inl hmem
    · refine Or.inr ⟨id', seg, ?_⟩
      have hne : id' ≠ id := by
        rintro rfl
        exact hother f seg hdelivery
      exact (Function.update_of_ne hne _ _).trans hdelivery
  have hnot : ∀ {id : UUID} {d : Option Delivery}, w.deliveries id = d →
      (∀ g seg, d ≠ some (.adding g seg)) → ∀ g seg, w.deliveries id ≠ some (.adding g seg) := by
    intro id d hdelivery hother g seg
    rw [hdelivery]
    exact hother g seg
  cases hstep with
  | deliver _ hidle _ => exact hset (hnot hidle nofun)
  | find hdelivery _ => exact hset (hnot hdelivery nofun)
  | add hdelivery _ _ _ _ _ => exact hset (hnot hdelivery nofun)
  | @addReturn id g seg hdelivery _ =>
      obtain hmem | ⟨id', seg', hdelivery'⟩ := h
      · exact Or.inl (List.mem_cons_of_mem _ hmem)
      · by_cases heq : id' = id
        · subst heq
          cases hdelivery.symm.trans hdelivery'
          exact Or.inl List.mem_cons_self
        · exact Or.inr ⟨id', seg', (Function.update_of_ne heq _ _).trans hdelivery'⟩
  | skip hdelivery _ _ => exact hset (hnot hdelivery nofun)
  | check hdelivery _ _ => exact hset (hnot hdelivery nofun)
  | reset hdelivery _ _ => exact hset (hnot hdelivery nofun)
  | align hdelivery _ _ => exact hset (hnot hdelivery nofun)
  | append hdelivery _ _ => exact hset (hnot hdelivery nofun)
  | _ => exact h

theorem Releasing.start (source : S) (types : TypeFilter) :
    (Watch.start source types).Releasing c where
  idle := Or.inl rfl
  removed := by intro f _ h; cases h
  drained := by intro f _ h; cases h

theorem Releasing.mono (h : w.Releasing c) (hchange : c.Change c') : w.Releasing c' where
  idle := h.idle
  removed := by
    intro f hmem hremoved
    obtain ⟨feed, hfeed, hclosed⟩ := h.removed f hmem hremoved
    obtain ⟨feed', hfeed', -, hkept⟩ := hchange.feed_kept hfeed
    exact ⟨feed', hfeed', (hkept hclosed).1⟩
  drained := by
    intro f hmem hdrained
    obtain ⟨feed, hfeed, hclosed, hreads⟩ := h.drained f hmem hdrained
    obtain ⟨feed', hfeed', -, hkept⟩ := hchange.feed_kept hfeed
    obtain ⟨hclosed', hle⟩ := hkept hclosed
    refine ⟨feed', hfeed', hclosed', ?_⟩
    omega

/-- While the source is being watched, no feeds have been removed. -/
theorem Releasing.of_watching (hphase : w.phase = .watching) : w.Releasing c where
  idle := Or.inl hphase
  removed := by
    intro f _ hremoved
    rw [hphase] at hremoved
    cases hremoved
  drained := by
    intro f _ hdrained
    rw [hphase] at hdrained
    cases hdrained

/-- Segments are delivered only while the source is being watched. -/
theorem Releasing.watching {id : UUID} {d : Delivery} (h : w.Releasing c)
    (hdelivery : w.deliveries id = some d) : w.phase = .watching := by
  obtain hphase | hidle := h.idle
  · exact hphase
  · cases (hidle id).symm.trans hdelivery

/-- A step of the call itself. -/
theorem Releasing.step (h : w.Releasing c) (hstep : Step logs c w c' w')
    (hchange : c.Change c')
    (hclosing : ∀ f, c.critical = some (.removeReturn f) →
      ∃ feed, c.feeds f = some feed ∧ feed.closed = true) : w'.Releasing c' := by
  have hidle : w.phase ≠ .watching → ∀ id, w.deliveries id = none :=
    fun hphase => h.idle.resolve_left hphase
  cases hstep with
  | deliver hphase _ _ => exact .of_watching hphase
  | find hdelivery _ => exact .of_watching (h.watching hdelivery)
  | add hdelivery _ _ _ _ _ => exact .of_watching (h.watching hdelivery)
  | addStore _ _ _ => exact h.mono hchange
  | addPublish _ _ => exact h.mono hchange
  | addReturn hdelivery _ => exact .of_watching (h.watching hdelivery)
  | skip hdelivery _ _ => exact .of_watching (h.watching hdelivery)
  | check hdelivery _ _ => exact .of_watching (h.watching hdelivery)
  | reset hdelivery _ _ => exact .of_watching (h.watching hdelivery)
  | align hdelivery _ _ => exact .of_watching (h.watching hdelivery)
  | append hdelivery _ _ => exact .of_watching (h.watching hdelivery)
  | stop _ hdeliveries =>
      refine ⟨Or.inr hdeliveries, fun f hmem hremoved => absurd hmem hremoved, ?_⟩
      intro f _ hdrained
      cases hdrained
  | remove _ _ _ _ _ => exact h.mono hchange
  | removeStore _ _ _ _ => exact h.mono hchange
  | removeLast _ _ _ _ => exact h.mono hchange
  | removePublish _ _ _ => exact h.mono hchange
  | removeClose _ _ _ => exact h.mono hchange
  | @removeReturn f rest hphase hcritical =>
      refine ⟨Or.inr (hidle (by rw [hphase]; exact nofun)), ?_, ?_⟩
      · intro g hmem hremoved
        by_cases heq : g = f
        · subst heq
          exact hclosing g hcritical
        · refine h.removed g hmem ?_
          rw [hphase]
          intro hg
          exact hremoved ((List.mem_cons.mp hg).resolve_left heq)
      · intro g _ hdrained
        cases hdrained
  | drain hphase =>
      refine ⟨Or.inr (hidle (by rw [hphase]; exact nofun)), ?_, ?_⟩
      · intro f hmem _
        refine h.removed f hmem ?_
        rw [hphase]
        exact List.not_mem_nil
      · exact fun f hmem hdrained => absurd hmem hdrained
  | @wait f rest feed hphase hfeed hreads =>
      have hremoved : ∀ g, w.phase.removed g := by
        intro g
        rw [hphase]
        exact True.intro
      refine ⟨Or.inr (hidle (by rw [hphase]; exact nofun)), ?_, ?_⟩
      · exact fun g hmem _ => h.removed g hmem (hremoved g)
      · intro g hmem hdrained
        by_cases heq : g = f
        · subst heq
          obtain ⟨feed', hfeed', hclosed⟩ := h.removed g hmem (hremoved g)
          cases hfeed.symm.trans hfeed'
          exact ⟨feed, hfeed, hclosed, hreads⟩
        · refine h.drained g hmem ?_
          rw [hphase]
          intro hg
          exact hdrained ((List.mem_cons.mp hg).resolve_left heq)
  | finish hphase =>
      refine ⟨Or.inr (hidle (by rw [hphase]; exact nofun)), ?_, ?_⟩
      · intro f hmem _
        refine h.removed f hmem ?_
        rw [hphase]
        exact True.intro
      · intro f hmem _
        refine h.drained f hmem ?_
        rw [hphase]
        exact List.not_mem_nil

/-- A call that has returned takes no more steps. -/
theorem Releasing.not_step (h : w.Releasing c) (hphase : w.phase = .returned) :
    ¬ Step logs c w c' w' := by
  intro hstep
  have hidle : ∀ id, w.deliveries id = none := by
    refine h.idle.resolve_left ?_
    rw [hphase]
    exact nofun
  have hnone : ∀ {id : UUID} {d : Delivery}, w.deliveries id = some d → False := by
    intro id d hdelivery
    cases (hidle id).symm.trans hdelivery
  cases hstep with
  | deliver hphase' _ _ => cases hphase.symm.trans hphase'
  | find hdelivery _ => exact hnone hdelivery
  | add hdelivery _ _ _ _ _ => exact hnone hdelivery
  | addStore hdelivery _ _ => exact hnone hdelivery
  | addPublish hdelivery _ => exact hnone hdelivery
  | addReturn hdelivery _ => exact hnone hdelivery
  | skip hdelivery _ _ => exact hnone hdelivery
  | check hdelivery _ _ => exact hnone hdelivery
  | reset hdelivery _ _ => exact hnone hdelivery
  | align hdelivery _ _ => exact hnone hdelivery
  | append hdelivery _ _ => exact hnone hdelivery
  | stop hphase' _ => cases hphase.symm.trans hphase'
  | remove hphase' _ _ _ _ => cases hphase.symm.trans hphase'
  | removeStore hphase' _ _ _ => cases hphase.symm.trans hphase'
  | removeLast hphase' _ _ _ => cases hphase.symm.trans hphase'
  | removePublish hphase' _ _ => cases hphase.symm.trans hphase'
  | removeClose hphase' _ _ => cases hphase.symm.trans hphase'
  | removeReturn hphase' _ => cases hphase.symm.trans hphase'
  | drain hphase' => cases hphase.symm.trans hphase'
  | wait hphase' _ _ => cases hphase.symm.trans hphase'
  | finish hphase' => cases hphase.symm.trans hphase'

end Watch

/-- A feed has been closed by the time that `Catalog.remove` returns. -/
theorem Catalog.Change.closing {c c' : Catalog S} {f : FeedRef} (hchange : c.Change c')
    (hclosing : ∀ f, c.critical = some (.removeReturn f) →
      ∃ feed, c.feeds f = some feed ∧ feed.closed = true)
    (hcritical : c'.critical = some (.removeReturn f)) :
    ∃ feed, c'.feeds f = some feed ∧ feed.closed = true := by
  have hkept : c.critical = some (.removeReturn f) →
      ∃ feed, c'.feeds f = some feed ∧ feed.closed = true := by
    intro hbefore
    obtain ⟨feed, hfeed, hclosed⟩ := hclosing f hbefore
    obtain ⟨feed', hfeed', -, hkeeps⟩ := hchange.feed_kept hfeed
    exact ⟨feed', hfeed', (hkeeps hclosed).1⟩
  cases hchange with
  | same => exact hkept hcritical
  | feed _ _ _ _ _ _ => exact hkept hcritical
  | add _ _ _ _ =>
      obtain hk | hk := insertFeed_critical hcritical <;> cases hk
  | remove _ _ _ _ =>
      have hk := Option.some.inj hcritical
      split at hk <;> cases hk
  | removeClose _ _ =>
      cases hcritical
      exact ⟨_, Function.update_self .., rfl⟩
  | _ => cases hcritical

/-! ## Whole runs -/

namespace World

/-- The consumer is counted as a reader of the feed. -/
def Counted (consumers : C → Option Consumer) (f : FeedRef) (i : C) : Prop :=
  ∃ k, consumers i = some k ∧ k.phase.counts = some f

theorem counted_iff {consumers : C → Option Consumer} {i : C} {k : Consumer} {f : FeedRef}
    (hk : consumers i = some k) : Counted consumers f i ↔ k.phase.counts = some f := by
  refine ⟨?_, fun hcounts => ⟨k, hk, hcounts⟩⟩
  rintro ⟨k', hk', hcounts⟩
  cases hk.symm.trans hk'
  exact hcounts

/-- Who is counted after one of the consumers has taken a step. -/
theorem counted_update [DecidableEq C] {consumers : C → Option Consumer} {i : C} {k : Consumer}
    (f : FeedRef) (j : C) :
    Counted (Function.update consumers i (some k)) f j ↔
      (j = i ∧ k.phase.counts = some f) ∨ (j ≠ i ∧ Counted consumers f j) := by
  by_cases heq : j = i
  · subst heq
    rw [counted_iff (Function.update_self ..)]
    simp
  · unfold Counted
    rw [Function.update_of_ne heq]
    simp [heq]

/-- What holds of feeds, of the calls that own them and of those that read from them,
in every state. -/
structure Accounted (w : World S W C) : Prop where
  kept : w.Kept
  reads : ∀ f feed, w.catalog.feeds f = some feed → Numbers feed.reads (Counted w.consumers f)
  closing : ∀ f, w.catalog.critical = some (.removeReturn f) →
    ∃ feed, w.catalog.feeds f = some feed ∧ feed.closed = true
  owned : ∀ f feed, w.catalog.feeds f = some feed →
    ∃ i watch, w.watches i = some watch ∧ watch.Owns f ∧ watch.source = feed.source
  releasing : ∀ i watch, w.watches i = some watch → watch.Releasing w.catalog

variable [DecidableEq W] [DecidableEq C] {w w' : World S W C} {cacheSize : Nat}

omit [DecidableEq W] [DecidableEq C] in
theorem Accounted.start : (start cacheSize : World S W C).Accounted where
  kept := .start
  reads := by intro f feed h; cases h
  closing := by intro f h; cases h
  owned := by intro f feed h; cases h
  releasing := by intro i watch h; cases h

theorem Accounted.watchStep (h : w.Accounted) {i : W} {watch watch' : Watch S}
    {catalog : Catalog S} (hwatch : w.watches i = some watch)
    (hstep : Watch.Step w.logs w.catalog watch catalog watch') :
    Accounted { w with
      catalog := catalog
      watches := Function.update w.watches i (some watch') } := by
  have hworld : Step w { w with
      catalog := catalog
      watches := Function.update w.watches i (some watch') } := .watchStep hwatch hstep
  have hchange := hworld.change h.kept.invariant
  have hnew : (Function.update w.watches i (some watch')) i = some watch' :=
    Function.update_self ..
  refine ⟨h.kept.step hworld, ?_, fun f => hchange.closing h.closing, ?_, ?_⟩
  · intro f feed' hfeed'
    obtain ⟨feed, hfeed, -, hreads⟩ | ⟨hfresh, -, hreads, -⟩ := hstep.feeds hfeed'
    · rw [hreads]
      exact h.reads f feed hfeed
    · rw [hreads]
      refine Numbers.zero ?_
      rintro j ⟨k, hk, hcounts⟩
      exact (h.kept.invariant.consumers j k hk).counts_feed hcounts hfresh
  · intro f feed' hfeed'
    obtain ⟨feed, hfeed, hsource, -⟩ | ⟨-, hsource, -, howns⟩ := hstep.feeds hfeed'
    · obtain ⟨j, other, hother, howns, hsource'⟩ := h.owned f feed hfeed
      by_cases heq : j = i
      · subst heq
        cases hwatch.symm.trans hother
        exact ⟨j, watch', hnew, hstep.owns howns, by rw [hstep.source, hsource', hsource]⟩
      · exact ⟨j, other, (Function.update_of_ne heq _ _).trans hother, howns,
          by rw [hsource', hsource]⟩
    · exact ⟨i, watch', hnew, howns, by rw [hstep.source, hsource]⟩
  · intro j other hother
    obtain ⟨rfl, hset⟩ | ⟨-, hold⟩ := update_eq_some hother
    · cases hset
      exact (h.releasing j watch hwatch).step hstep hchange h.closing
    · exact (h.releasing j other hold).mono hchange

theorem Accounted.consumeStep (h : w.Accounted) {i : C} {k k' : Consumer}
    {catalog : Catalog S} (hconsumer : w.consumers i = some k)
    (hstep : Consumer.Step (w.logs k.streamID) w.catalog k catalog k') :
    Accounted { w with
      catalog := catalog
      consumers := Function.update w.consumers i (some k') } := by
  have hworld : Step w { w with
      catalog := catalog
      consumers := Function.update w.consumers i (some k') } := .consumeStep hconsumer hstep
  have hchange := hworld.change h.kept.invariant
  -- Of other feeds than the one that is read from, the same consumers are counted.
  have hsame : ∀ f feed, w.catalog.feeds f = some feed →
      (k'.phase.counts = some f ↔ k.phase.counts = some f) →
      Numbers feed.reads (Counted (Function.update w.consumers i (some k')) f) := by
    intro f feed hfeed hcounts
    refine (h.reads f feed hfeed).congr ?_
    intro j
    rw [counted_update, hcounts]
    by_cases heq : j = i
    · subst heq
      rw [counted_iff hconsumer]
      simp
    · simp [heq]
  have hreads : ∀ f feed', catalog.feeds f = some feed' →
      ∃ feed, w.catalog.feeds f = some feed ∧ feed'.source = feed.source ∧
        Numbers feed'.reads (Counted (Function.update w.consumers i (some k')) f) := by
    intro g feed' hfeed'
    cases hstep.counting with
    | same hcounts => exact ⟨feed', hfeed', rfl, hsame g feed' hfeed' (by rw [hcounts])⟩
    | @began _ f feed hfeed hbefore hafter =>
        obtain ⟨rfl, hnew⟩ | ⟨hne, hold⟩ := update_eq_some hfeed'
        · cases hnew
          refine ⟨feed, hfeed, rfl, (h.reads g feed hfeed).insert (i := i) ?_ ?_⟩
          · rw [counted_iff hconsumer, hbefore]
            exact nofun
          · intro j
            rw [counted_update, hafter]
            by_cases heq : j = i <;> simp [heq]
        · refine ⟨feed', hold, rfl, hsame g feed' hold ?_⟩
          rw [hbefore, hafter]
          simp [Ne.symm hne]
    | @ended _ f feed hfeed hbefore hafter =>
        obtain ⟨rfl, hnew⟩ | ⟨hne, hold⟩ := update_eq_some hfeed'
        · cases hnew
          refine ⟨feed, hfeed, rfl, (h.reads g feed hfeed).erase (i := i) ?_ ?_⟩
          · rw [counted_iff hconsumer, hbefore]
          · intro j
            rw [counted_update, hafter]
            simp
        · refine ⟨feed', hold, rfl, hsame g feed' hold ?_⟩
          rw [hbefore, hafter]
          simp [Ne.symm hne]
  refine ⟨h.kept.step hworld, ?_, fun f => hchange.closing h.closing, ?_, ?_⟩
  · intro f feed' hfeed'
    obtain ⟨feed, -, -, hnumbers⟩ := hreads f feed' hfeed'
    exact hnumbers
  · intro f feed' hfeed'
    obtain ⟨feed, hfeed, hsource, -⟩ := hreads f feed' hfeed'
    rw [hsource]
    exact h.owned f feed hfeed
  · intro j watch hwatch
    exact (h.releasing j watch hwatch).mono hchange

theorem Accounted.step (h : w.Accounted) (hstep : Step w w') : w'.Accounted := by
  have hkept := h.kept.step hstep
  cases hstep with
  | grow _ => exact ⟨hkept, h.reads, h.closing, h.owned, h.releasing⟩
  | @watch i source types hnew _ =>
      refine ⟨hkept, h.reads, h.closing, ?_, ?_⟩
      · intro f feed hfeed
        obtain ⟨j, other, hother, howns⟩ := h.owned f feed hfeed
        have hne : j ≠ i := by
          rintro rfl
          cases hnew.symm.trans hother
        exact ⟨j, other, (Function.update_of_ne hne _ _).trans hother, howns⟩
      · intro j other hother
        obtain ⟨-, hset⟩ | ⟨-, hold⟩ := update_eq_some hother
        · cases hset
          exact .start source types
        · exact h.releasing j other hold
  | watchStep hwatch hstep => exact h.watchStep hwatch hstep
  | @consume i streamID types begin hnew _ =>
      refine ⟨hkept, ?_, h.closing, h.owned, h.releasing⟩
      intro f feed hfeed
      refine (h.reads f feed hfeed).congr ?_
      intro j
      rw [counted_update]
      by_cases heq : j = i
      · subst heq
        simp [Counted, hnew, Consumer.start, ConsumePhase.counts]
      · simp [heq]
  | consumeStep hconsumer hstep => exact h.consumeStep hconsumer hstep

theorem accounted_of_reaches (h : Reaches (start cacheSize) w) : w.Accounted := by
  have hpreserves : ∀ v v' : World S W C, v.Accounted → Step v v' → v'.Accounted :=
    fun _ _ hv hstep => hv.step hstep
  exact run_preserves hpreserves h .start

/-- A call of `Catalog.Watch` that has returned stays as it is. -/
theorem returned_of_reaches (h : w.Accounted) (hrun : Reaches w w') {i : W} {watch : Watch S}
    (hwatch : w.watches i = some watch) (hphase : watch.phase = .returned) :
    w'.watches i = some watch := by
  have hpreserves : ∀ v v' : World S W C, (v.Accounted ∧ v.watches i = some watch) → Step v v' →
      v'.Accounted ∧ v'.watches i = some watch := by
    intro v v' hv hstep
    obtain ⟨haccounted, hwatch⟩ := hv
    refine ⟨haccounted.step hstep, ?_⟩
    cases hstep with
    | @watch j source types hnew _ =>
        have hne : i ≠ j := by
          rintro rfl
          cases hwatch.symm.trans hnew
        exact (Function.update_of_ne hne _ _).trans hwatch
    | @watchStep j other other' catalog hother hstep =>
        have hne : i ≠ j := by
          rintro rfl
          cases hwatch.symm.trans hother
          exact (haccounted.releasing i watch hwatch).not_step hphase hstep
        exact (Function.update_of_ne hne _ _).trans hwatch
    | _ => exact hwatch
  exact (run_preserves hpreserves hrun ⟨h, hwatch⟩).2

/-- A call of `Source.Read` is in progress on the source. -/
def ReadsSource (w : World S W C) (source : S) : Prop :=
  ∃ i k f feed, w.consumers i = some k ∧ k.phase.reads = some f ∧
    w.catalog.feeds f = some feed ∧ feed.source = source

/-- A call of `Source.Watch` may be in progress on the source. -/
def WatchesSource (w : World S W C) (source : S) : Prop :=
  ∃ i watch, w.watches i = some watch ∧ watch.source = source ∧ watch.phase = .watching

/-- The feed is available or current in the catalog. -/
def Offers (w : World S W C) (f : FeedRef) : Prop :=
  ∃ cs s, w.catalog.catalogStreams cs = some s ∧ s.refersTo f

/-- What holds after a call of `Catalog.Watch` has returned. -/
structure Released (w : World S W C) (i : W) (watch : Watch S) : Prop where
  /-- It does not call `Source.Watch` again. -/
  returned : w.watches i = some watch
  /-- Nobody reads from the source by way of its feeds. -/
  unread : ∀ id f, (id, f) ∈ watch.feeds →
    ∀ j k, w.consumers j = some k → k.phase.reads ≠ some f
  /-- Its feeds are closed, and neither available nor current. -/
  withdrawn : ∀ id f, (id, f) ∈ watch.feeds →
    (∃ feed, w.catalog.feeds f = some feed ∧ feed.closed = true) ∧ ¬ w.Offers f
  /-- Unless there is another call of `Catalog.Watch` for the source that has not
  returned, neither `Source.Read` nor `Source.Watch` is in progress on it, and no feed
  of it is available or current. -/
  released : (∀ j other, w.watches j = some other → other.source = watch.source →
      other.phase = .returned) →
    ¬ w.ReadsSource watch.source ∧ ¬ w.WatchesSource watch.source ∧
      ∀ f feed, w.catalog.feeds f = some feed → feed.source = watch.source → ¬ w.Offers f

omit [DecidableEq W] [DecidableEq C] in
/-- The feeds of a call that has returned are closed, nobody is counted as reading from
them, and nothing refers to them. -/
theorem Accounted.owned_of_returned (h : w.Accounted) {i : W} {watch : Watch S}
    (hwatch : w.watches i = some watch) (hphase : watch.phase = .returned) {f : FeedRef}
    (howns : watch.Owns f) :
    (∃ feed, w.catalog.feeds f = some feed ∧ feed.closed = true) ∧
      (∀ j, ¬ Counted w.consumers f j) ∧ ¬ w.Offers f := by
  have hreleasing := h.releasing i watch hwatch
  have hmem : f ∈ watch.feeds.map Prod.snd := by
    obtain hmem | ⟨id, seg, hdelivery⟩ := howns
    · exact hmem
    · cases hphase.symm.trans (hreleasing.watching hdelivery)
  obtain ⟨feed, hfeed, hclosed, hreads⟩ :=
    hreleasing.drained f hmem (by rw [hphase]; exact True.intro)
  refine ⟨⟨feed, hfeed, hclosed⟩, ?_, ?_⟩
  · have hnumbers := h.reads f feed hfeed
    rw [hreads] at hnumbers
    exact hnumbers.none
  · rintro ⟨cs, s, hs, hrefers⟩
    exact h.kept.catalog.leaving f (Or.inl ⟨feed, hfeed, hclosed⟩) cs s hs hrefers

/-- Once `Catalog.Watch` has returned, the catalog makes no calls to the source, then
or later, whatever consumers still hold its feeds. -/
theorem watch_returned (h : Reaches (start cacheSize) w) {i : W} {watch : Watch S}
    (hwatch : w.watches i = some watch) (hreturned : watch.phase = .returned)
    (hrun : Reaches w w') : Released w' i watch := by
  have haccounted := accounted_of_reaches (h.trans hrun)
  have hwatch' := returned_of_reaches (accounted_of_reaches h) hrun hwatch hreturned
  have howns : ∀ {id : UUID} {f : FeedRef}, (id, f) ∈ watch.feeds → watch.Owns f :=
    fun hmem => Or.inl (List.mem_map_of_mem hmem)
  refine ⟨hwatch', ?_, ?_, ?_⟩
  · intro id f hmem j k hk hreads
    obtain ⟨-, huncounted, -⟩ := haccounted.owned_of_returned hwatch' hreturned (howns hmem)
    exact huncounted j ⟨k, hk, ConsumePhase.counts_of_reads hreads⟩
  · intro id f hmem
    obtain ⟨hclosed, -, hoffers⟩ := haccounted.owned_of_returned hwatch' hreturned (howns hmem)
    exact ⟨hclosed, hoffers⟩
  · intro hothers
    refine ⟨?_, ?_, ?_⟩
    · rintro ⟨j, k, f, feed, hk, hreads, hfeed, hsource⟩
      obtain ⟨o, other, hother, howns, hsource'⟩ := haccounted.owned f feed hfeed
      have hphase := hothers o other hother (hsource'.trans hsource)
      obtain ⟨-, huncounted, -⟩ := haccounted.owned_of_returned hother hphase howns
      exact huncounted j ⟨k, hk, ConsumePhase.counts_of_reads hreads⟩
    · rintro ⟨j, other, hother, hsource, hwatching⟩
      cases (hothers j other hother hsource).symm.trans hwatching
    · intro f feed hfeed hsource
      obtain ⟨o, other, hother, howns, hsource'⟩ := haccounted.owned f feed hfeed
      have hphase := hothers o other hother (hsource'.trans hsource)
      exact (haccounted.owned_of_returned hother hphase howns).2.2

end World

/-! ## A run -/

/-- `Catalog.Watch` returns while a consumer that holds its feed is about to read from
the source. -/
theorem delayedReader_reached : ∃ (w : World Unit Unit Unit) (watch : Watch Unit) (k : Consumer),
    World.Reaches (World.start 1) w ∧ w.watches () = some watch ∧ watch.phase = .returned ∧
      watch.feeds = [(uuid 100, 0)] ∧ w.consumers () = some k ∧
      k.phase = .inFeed 0 0 false (.startRead (.before 0)) := by
  obtain ⟨w, h, hfed⟩ := fed_reached (C := Unit) () ()
  -- A consumer enters the feed, and is about to read the first event.
  have h : World.Reaches _ _ := .tail h (@World.Step.consume Unit Unit Unit _ _ _ () (uuid 100)
    {uuid 2, uuid 4} 0 (hfed.consumers ()) (by decide))
  have h := h.consumed () rfl (.found rfl hfed.free hfed.listed)
  have h := h.consumed () rfl (.enter rfl hfed.stream rfl hfed.feed rfl)
  have h := h.consumed () rfl (.load rfl hfed.feed)
  -- The feed is removed, and nothing has to be waited for.
  have h := h.watched () hfed.watch (@Watch.Step.stop Unit _ _ _ rfl fun _ => rfl)
  have h := h.watched () rfl (@Watch.Step.remove Unit _ _ _ 0 [] _ 0 _ rfl hfed.free hfed.feed
    hfed.listed hfed.stream)
  have h := h.watched () rfl (@Watch.Step.removeLast Unit _ _ _ 0 [] 0 _ rfl rfl rfl rfl)
  have h := h.watched () rfl
    (@Watch.Step.removePublish Unit _ _ _ 0 [] _ rfl rfl hfed.feed)
  have h := h.watched () rfl (@Watch.Step.removeClose Unit _ _ _ 0 [] _ rfl rfl hfed.feed)
  have h := h.watched () rfl (@Watch.Step.removeReturn Unit _ _ _ 0 [] rfl rfl)
  have h := h.watched () rfl (@Watch.Step.drain Unit _ _ _ rfl)
  have h := h.watched () rfl (@Watch.Step.wait Unit _ _ _ 0 [] _ rfl rfl rfl)
  have h := h.watched () rfl (@Watch.Step.finish Unit _ _ _ rfl)
  exact ⟨_, _, _, h, rfl, rfl, rfl, rfl, rfl⟩

theorem watch_returned_delayed : ∃ (w : World Unit Unit Unit) (watch : Watch Unit) (k : Consumer),
    w.consumers () = some k ∧ k.phase = .inFeed 0 0 false (.startRead (.before 0)) ∧
      watch.feeds = [(uuid 100, 0)] ∧ World.Released w () watch := by
  obtain ⟨w, watch, k, h, hwatch, hreturned, hfeeds, hk, hphase⟩ := delayedReader_reached
  exact ⟨w, watch, k, hk, hphase, hfeeds, World.watch_returned h hwatch hreturned .refl⟩

end Runkit.EventStream
