/-
  Engine/Routing.lean --- which messages the components of an engine ask for.

  Source: runHandler, workerCountForHandler, consumedEventTypeIDs,
  inboundMessageTypeIDsForHandler and outboundMessageTypesForHandler of engine.go, and the
  parts of Engine.Run that start the components.

  The engine watches every source of events for the types that any of its handlers consumes,
  and each consumer asks the catalog for the types of its own handler.  Asking for no types at
  all, or for a type that is not watched, makes the catalog or a source panic.

  Whether a watch or a consumer is ever started, and how often, is left open: local streams
  are watched once, those of remote engines whenever one is discovered, and consumers are
  restarted by their supervisors.  Message types are known by their IDs.
-/
import Runkit.EventStream.Release

set_option autoImplicit false

namespace Runkit.Routing

open Runkit.Foundation Runkit.EventStream

/-! ## Configuration -/

inductive MessageKind where
  | command
  | event
  | deadline
  deriving DecidableEq, Repr

inductive MessageDirection where
  | inbound
  | outbound
  deriving DecidableEq, Repr

/-- A route of a handler. -/
structure Route where
  kind : MessageKind
  direction : MessageDirection
  messageTypeID : UUID
  deriving DecidableEq, Repr

inductive HandlerType where
  | aggregate
  | integration
  | process
  | projection
  deriving DecidableEq, Repr

/-- `config.Handler`. -/
structure HandlerConfig where
  key : UUID
  handlerType : HandlerType
  isDisabled : Bool
  minimizeConcurrency : Bool
  routes : List Route
  deriving DecidableEq, Repr

/-- The handler consumes events from streams. -/
def HandlerConfig.consumesEvents (h : HandlerConfig) : Bool :=
  match h.handlerType with
  | .process => true
  | .projection => true
  | .aggregate => false
  | .integration => false

/-- `Engine.inboundMessageTypeIDsForHandler`. -/
def inboundMessageTypeIDsForHandler (h : HandlerConfig) (kind : MessageKind) : Finset UUID :=
  let inboundRoutes := (h.routes.filter fun route => decide (route.kind = kind)).filter
    fun route => decide (route.direction = .inbound)
  (inboundRoutes.map Route.messageTypeID).toFinset

/-- `Engine.outboundMessageTypesForHandler`. -/
def outboundMessageTypesForHandler (h : HandlerConfig) : Finset UUID :=
  let outboundRoutes := h.routes.filter fun route => decide (route.direction = .outbound)
  (outboundRoutes.map Route.messageTypeID).toFinset

/-- `Engine.workerCountForHandler`, given `GOMAXPROCS`. -/
def workerCountForHandler (procs : Nat) (h : HandlerConfig) : Nat :=
  match h.handlerType with
  | .integration => if h.minimizeConcurrency then 1 else 10 * procs
  | _ => 10 * procs

/-- The loop of `Engine.consumedEventTypeIDs` over the handlers. -/
def consumedEventTypeIDs : List HandlerConfig → Finset UUID
  | [] => ∅
  | h :: rest =>
      if h.isDisabled then consumedEventTypeIDs rest
      else inboundMessageTypeIDsForHandler h .event ∪ consumedEventTypeIDs rest

/-- What the engine runs in a goroutine on behalf of a handler. -/
inductive Component where
  | aggregateCommandPump (key : UUID) (commandTypeIDs outboundMessageTypes : Finset UUID)
      (workers : Nat)
  | integrationCommandPump (key : UUID) (commandTypeIDs outboundMessageTypes : Finset UUID)
      (workers : Nat)
  | processConsumer (key : UUID) (eventTypes outboundMessageTypes : Finset UUID)
  | deadlinePump (key : UUID) (deadlineTypeIDs outboundMessageTypes : Finset UUID)
      (workers : Nat)
  /-- The handler lock is nil unless concurrency is to be minimized. -/
  | projectionConsumer (key : UUID) (eventTypes : Finset UUID) (handlerLock : Bool)
  | compactor (key : UUID)

/-- `EventTypeIDs` of the sink of a consumer. -/
def Component.eventTypeIDs : Component → Option (Finset UUID)
  | .processConsumer _ eventTypes _ => some eventTypes
  | .projectionConsumer _ eventTypes _ => some eventTypes
  | _ => none

/-- `Engine.runHandler`. -/
def runHandler (procs : Nat) (h : HandlerConfig) : List Component :=
  let workers := workerCountForHandler procs h
  let outbound := outboundMessageTypesForHandler h
  match h.handlerType with
  | .aggregate =>
      [.aggregateCommandPump h.key (inboundMessageTypeIDsForHandler h .command) outbound workers]
  | .integration =>
      [.integrationCommandPump h.key (inboundMessageTypeIDsForHandler h .command) outbound
        workers]
  | .process =>
      [.processConsumer h.key (inboundMessageTypeIDsForHandler h .event) outbound,
        .deadlinePump h.key (inboundMessageTypeIDsForHandler h .deadline) outbound workers]
  | .projection =>
      [.projectionConsumer h.key (inboundMessageTypeIDsForHandler h .event)
        h.minimizeConcurrency, .compactor h.key]

/-- The loop of `Engine.Run` over the handlers. -/
def runHandlers (procs : Nat) : List HandlerConfig → List Component
  | [] => []
  | h :: rest =>
      if h.isDisabled then runHandlers procs rest else runHandler procs h ++ runHandlers procs rest

/-- What `config.Validate` sees to: a handler that consumes events has a route for one. -/
def Valid (handlers : List HandlerConfig) : Prop :=
  ∀ h ∈ handlers, h.consumesEvents = true → (inboundMessageTypeIDsForHandler h .event).Nonempty

instance (handlers : List HandlerConfig) : Decidable (Valid handlers) :=
  inferInstanceAs (Decidable (∀ h ∈ handlers, _ → Finset.Nonempty _))

/-! ## The types that are asked for -/

theorem runHandler_eventTypeIDs {procs : Nat} {h : HandlerConfig} {component : Component}
    {types : Finset UUID} (hmem : component ∈ runHandler procs h)
    (htypes : component.eventTypeIDs = some types) :
    h.consumesEvents = true ∧ types = inboundMessageTypeIDsForHandler h .event := by
  unfold runHandler at hmem
  unfold HandlerConfig.consumesEvents
  cases htype : h.handlerType <;> rw [htype] at hmem
  case aggregate =>
    cases List.mem_singleton.mp hmem
    cases htypes
  case integration =>
    cases List.mem_singleton.mp hmem
    cases htypes
  case process =>
    rcases List.mem_cons.mp hmem with rfl | hrest
    · cases htypes
      exact ⟨rfl, rfl⟩
    · cases List.mem_singleton.mp hrest
      cases htypes
  case projection =>
    rcases List.mem_cons.mp hmem with rfl | hrest
    · cases htypes
      exact ⟨rfl, rfl⟩
    · cases List.mem_singleton.mp hrest
      cases htypes

/-- Every consumer asks for types that are watched, and for at least one. -/
theorem runHandlers_eventTypeIDs {procs : Nat} {handlers : List HandlerConfig}
    (hvalid : Valid handlers) {component : Component} {types : Finset UUID}
    (hmem : component ∈ runHandlers procs handlers)
    (htypes : component.eventTypeIDs = some types) :
    types.Nonempty ∧ types ⊆ consumedEventTypeIDs handlers := by
  induction handlers with
  | nil => cases hmem
  | cons h rest ih =>
      have hrest : Valid rest := fun other hother => hvalid other (List.mem_cons_of_mem h hother)
      rw [runHandlers] at hmem
      rw [consumedEventTypeIDs]
      cases hdisabled : h.isDisabled with
      | true =>
          rw [hdisabled] at hmem
          exact ih hrest hmem
      | false =>
          rw [hdisabled] at hmem
          rcases List.mem_append.mp hmem with hhead | htail
          · obtain ⟨hconsumes, rfl⟩ := runHandler_eventTypeIDs hhead htypes
            exact ⟨hvalid h List.mem_cons_self hconsumes, Finset.subset_union_left⟩
          · obtain ⟨hnonempty, hsubset⟩ := ih hrest htail
            exact ⟨hnonempty, hsubset.trans Finset.subset_union_right⟩

/-! ## The catalog of an engine -/

variable {S W C : Type}

/-- `eventStreamCacheSize`. -/
def eventStreamCacheSize : Nat := 100

/-- One step of what goes on around the catalog of an engine. -/
inductive Step [DecidableEq W] [DecidableEq C] (procs : Nat) (handlers : List HandlerConfig) :
    World S W C → World S W C → Prop where
  /-- Any step but a call of `Catalog.Watch` or of `Catalog.Consume`. -/
  | world {w w' : World S W C} (hstep : World.Step w w')
      (hwatches : ∀ i, w.watches i = none → w'.watches i = none)
      (hconsumers : ∀ i, w.consumers i = none → w'.consumers i = none) :
      Step procs handlers w w'
  /-- `Catalog.Watch` is called, for the local streams or by a connector.  Neither happens if
  no types are consumed. -/
  | watch {w : World S W C} {i : W} {source : S} (hnew : w.watches i = none)
      (htypes : consumedEventTypeIDs handlers ≠ ∅) :
      Step procs handlers w
        { w with
          watches := Function.update w.watches i
            (some (.start source (some (consumedEventTypeIDs handlers)))) }
  /-- A consumer calls `Catalog.Consume`. -/
  | consume {w : World S W C} {i : C} {streamID : UUID} {begin : Nat} {component : Component}
      {types : Finset UUID} (hnew : w.consumers i = none)
      (hmem : component ∈ runHandlers procs handlers)
      (htypes : component.eventTypeIDs = some types) :
      Step procs handlers w
        { w with
          consumers := Function.update w.consumers i (some (.start streamID types begin)) }

/-- The state is reached in some run of the engine. -/
def Reached [DecidableEq W] [DecidableEq C] (procs : Nat) (handlers : List HandlerConfig)
    (w : World S W C) : Prop :=
  Relation.ReflTransGen (Step procs handlers) (.start eventStreamCacheSize) w

/-! ## Where types come from -/

section

variable {log : EventLog} {logs : UUID → EventLog} {c c' : Catalog S} {w w' : Watch S}
  {k k' : Consumer} {f : FeedRef} {feed' : Feed S}

/-- A feed is watched for the types for which the call of `Catalog.Watch` is that added it. -/
theorem watchStep_types (hstep : Watch.Step logs c w c' w') (hfeed' : c'.feeds f = some feed') :
    (∃ feed, c.feeds f = some feed ∧ feed'.types = feed.types) ∨ feed'.types = w.types := by
  have hsame : c.feeds f = some feed' →
      (∃ feed, c.feeds f = some feed ∧ feed'.types = feed.types) ∨ feed'.types = w.types :=
    fun hfeed => Or.inl ⟨feed', hfeed, rfl⟩
  have hset : ∀ {g : FeedRef} {feed new : Feed S}, c.feeds g = some feed →
      Function.update c.feeds g (some new) f = some feed' → new.types = feed.types →
      (∃ feed, c.feeds f = some feed ∧ feed'.types = feed.types) ∨ feed'.types = w.types := by
    intro g feed new hfeed hupdate htypes
    obtain ⟨rfl, hnew⟩ | ⟨-, hold⟩ := update_eq_some hupdate
    · cases hnew
      exact Or.inl ⟨feed, hfeed, htypes⟩
    · exact hsame hold
  cases hstep with
  | add _ _ _ _ _ _ =>
      obtain ⟨-, hnew⟩ | ⟨-, hold⟩ := update_eq_some hfeed'
      · cases hnew
        exact Or.inr rfl
      · exact hsame hold
  | reset _ hfeed _ => exact hset hfeed hfeed' rfl
  | append _ hfeed _ => exact hset hfeed hfeed' rfl
  | removeClose _ _ hfeed => exact hset hfeed hfeed' rfl
  | _ => exact hsame hfeed'

/-- A consumer leaves the feeds as they are, except for the number of reads. -/
theorem consumeStep_types (hstep : Consumer.Step log c k c' k')
    (hfeed' : c'.feeds f = some feed') :
    ∃ feed, c.feeds f = some feed ∧ feed'.types = feed.types := by
  have hset : ∀ {g : FeedRef} {feed new : Feed S}, c.feeds g = some feed →
      Function.update c.feeds g (some new) f = some feed' → new.types = feed.types →
      ∃ feed, c.feeds f = some feed ∧ feed'.types = feed.types := by
    intro g feed new hfeed hupdate htypes
    obtain ⟨rfl, hnew⟩ | ⟨-, hold⟩ := update_eq_some hupdate
    · cases hnew
      exact ⟨feed, hfeed, htypes⟩
    · exact ⟨feed', hold, rfl⟩
  cases hstep.counting with
  | same _ => exact ⟨feed', hfeed', rfl⟩
  | began hfeed _ _ => exact hset hfeed hfeed' rfl
  | ended hfeed _ _ => exact hset hfeed hfeed' rfl

theorem consumeStep_cacheSize (hstep : Consumer.Step log c k c' k') :
    c'.cacheSize = c.cacheSize := by
  cases hstep.counting <;> rfl

/-- `Catalog.Consume` panics only if it finds a feed that is not watched for all of its
types. -/
theorem consumeStep_unwatched (hstep : Consumer.Step log c k c' k')
    (hpanics : k'.phase = .returned .unwatched) :
    ∃ f feed, c.feeds f = some feed ∧ feed.watches k.types = false := by
  cases hstep with
  | @unwatched cs s f feed _ _ _ hfeed hwatches => exact ⟨f, feed, hfeed, hwatches⟩
  | @readReturn cs f confirmed reason outcome feed _ _ =>
      rcases k.afterSourceRead_cases cs f feed.closed reason outcome with
        ⟨hload, -⟩ | hclosed | ⟨result, hreturned, hresult⟩
      · cases hload.symm.trans hpanics
      · cases hclosed.symm.trans hpanics
      · cases hreturned.symm.trans hpanics
        rcases hresult with hshorter | ⟨e, -, hfailed⟩
        · cases hshorter
        · cases hfailed
  | _ => cases hpanics

end

/-! ## Every run -/

section

variable {procs : Nat} {handlers : List HandlerConfig} {w w' : World S W C}

/-- Everything is watched for the types that the handlers consume, and nothing else is asked
for. -/
structure Watched (handlers : List HandlerConfig) (w : World S W C) : Prop where
  cacheSize : w.catalog.cacheSize = eventStreamCacheSize
  watches : ∀ i watch, w.watches i = some watch →
    watch.types = some (consumedEventTypeIDs handlers) ∧ consumedEventTypeIDs handlers ≠ ∅
  feeds : ∀ f feed, w.catalog.feeds f = some feed →
    feed.types = some (consumedEventTypeIDs handlers)
  consumers : ∀ i k, w.consumers i = some k →
    k.types.Nonempty ∧ k.types ⊆ consumedEventTypeIDs handlers ∧
      k.phase ≠ .returned .unwatched

variable [DecidableEq W] [DecidableEq C]

theorem Watched.world (h : Watched handlers w) (hstep : World.Step w w')
    (hwatches : ∀ i, w.watches i = none → w'.watches i = none)
    (hconsumers : ∀ i, w.consumers i = none → w'.consumers i = none) :
    Watched handlers w' := by
  cases hstep with
  | grow hextends => exact ⟨h.cacheSize, h.watches, h.feeds, h.consumers⟩
  | @watch i source types hnew hsize =>
      have hstarted : Function.update w.watches i (some (.start source types)) i = none :=
        hwatches i hnew
      rw [Function.update_self] at hstarted
      cases hstarted
  | @watchStep i watch watch' catalog hwatch hstep =>
      refine ⟨?_, ?_, ?_, h.consumers⟩
      · rw [← h.cacheSize]
        cases hstep <;> rfl
      · intro j other hother
        obtain ⟨rfl, hset⟩ | ⟨-, hold⟩ := update_eq_some hother
        · cases hset
          have htypes : watch'.types = watch.types := by cases hstep <;> rfl
          rw [htypes]
          exact h.watches j watch hwatch
        · exact h.watches j other hold
      · intro f feed' hfeed'
        rcases watchStep_types hstep hfeed' with ⟨feed, hfeed, htypes⟩ | htypes
        · rw [htypes]
          exact h.feeds f feed hfeed
        · rw [htypes]
          exact (h.watches i watch hwatch).1
  | @consume i streamID types begin hnew _ =>
      have hstarted :
          Function.update w.consumers i (some (.start streamID types begin)) i = none :=
        hconsumers i hnew
      rw [Function.update_self] at hstarted
      cases hstarted
  | @consumeStep i k k' catalog hconsumer hstep =>
      obtain ⟨hnonempty, hsubset, -⟩ := h.consumers i k hconsumer
      refine ⟨(consumeStep_cacheSize hstep).trans h.cacheSize, h.watches, ?_, ?_⟩
      · intro f feed' hfeed'
        obtain ⟨feed, hfeed, htypes⟩ := consumeStep_types hstep hfeed'
        rw [htypes]
        exact h.feeds f feed hfeed
      · intro j other hother
        obtain ⟨rfl, hset⟩ | ⟨-, hold⟩ := update_eq_some hother
        · cases hset
          have htypes : k'.types = k.types := by cases hstep <;> rfl
          rw [htypes]
          refine ⟨hnonempty, hsubset, ?_⟩
          intro hpanics
          obtain ⟨f, feed, hfeed, hwatches⟩ := consumeStep_unwatched hstep hpanics
          rw [Feed.watches, h.feeds f feed hfeed, decide_eq_false_iff_not] at hwatches
          exact hwatches hsubset
        · exact h.consumers j other hold

theorem Watched.step (hvalid : Valid handlers) (h : Watched handlers w)
    (hstep : Step procs handlers w w') : Watched handlers w' := by
  cases hstep with
  | world hstep hwatches hconsumers => exact h.world hstep hwatches hconsumers
  | @watch i source hnew htypes =>
      refine ⟨h.cacheSize, ?_, h.feeds, h.consumers⟩
      intro j watch hwatch
      obtain ⟨-, hset⟩ | ⟨-, hold⟩ := update_eq_some hwatch
      · cases hset
        exact ⟨rfl, htypes⟩
      · exact h.watches j watch hold
  | @consume i streamID begin component types hnew hmem htypes =>
      refine ⟨h.cacheSize, h.watches, h.feeds, ?_⟩
      intro j k hconsumer
      obtain ⟨-, hset⟩ | ⟨-, hold⟩ := update_eq_some hconsumer
      · cases hset
        obtain ⟨hnonempty, hsubset⟩ := runHandlers_eventTypeIDs hvalid hmem htypes
        exact ⟨hnonempty, hsubset, nofun⟩
      · exact h.consumers j k hold

theorem Reached.watched (hvalid : Valid handlers) (h : Reached procs handlers w) :
    Watched handlers w := by
  have hpreserves : ∀ v v' : World S W C, Watched handlers v → Step procs handlers v v' →
      Watched handlers v' := fun _ _ hv hstep => hv.step hvalid hstep
  exact run_preserves hpreserves h ⟨rfl, nofun, nofun, nofun⟩

/-- A step of the engine is one that the catalog allows for, without a panic. -/
theorem Watched.allowed (hvalid : Valid handlers) (h : Watched handlers w)
    (hstep : Step procs handlers w w') : World.Step w w' := by
  cases hstep with
  | world hstep _ _ => exact hstep
  | watch hnew _ =>
      refine .watch hnew ?_
      rw [h.cacheSize]
      decide
  | consume hnew hmem htypes =>
      exact .consume hnew (runHandlers_eventTypeIDs hvalid hmem htypes).1

/-- However the handlers of an application are configured, disabled ones included, and however
watches, consumers and sources interleave, the catalog of the engine and its sources never
panic: whatever the engine does is a run of the catalog in which every watch and every
consumer asks for some types, no consumer finds a feed that is not watched for its types, and
every watch lets pass all events that any consumer asks for. -/
theorem catalog_never_panics (hvalid : Valid handlers) (h : Reached procs handlers w) :
    World.Reaches (.start eventStreamCacheSize) w ∧
      (∀ i k, w.consumers i = some k →
        k.types.Nonempty ∧ k.phase ≠ .returned .unwatched) ∧
      ∀ i watch, w.watches i = some watch →
        (∃ types, watch.types = some types ∧ types.Nonempty) ∧
          ∀ j k, w.consumers j = some k →
            ∀ env, admits (some k.types) env = true → admits watch.types env = true := by
  have hwatched := h.watched hvalid
  refine ⟨?_, ?_, ?_⟩
  · clear hwatched
    induction h with
    | refl => exact .refl
    | tail hrun hlast ih => exact ih.tail ((Reached.watched hvalid hrun).allowed hvalid hlast)
  · intro i k hconsumer
    obtain ⟨hnonempty, -, hphase⟩ := hwatched.consumers i k hconsumer
    exact ⟨hnonempty, hphase⟩
  · intro i watch hwatch
    obtain ⟨htypes, hne⟩ := hwatched.watches i watch hwatch
    refine ⟨⟨_, htypes, Finset.nonempty_iff_ne_empty.mpr hne⟩, ?_⟩
    intro j k hconsumer env hadmits
    obtain ⟨-, hsubset, -⟩ := hwatched.consumers j k hconsumer
    rw [htypes]
    exact decide_eq_true (hsubset (of_decide_eq_true hadmits))

end

/-- A process, and a projection that is disabled and consumes events of another type. -/
def sampleHandlers : List HandlerConfig :=
  [{ key := uuid 1
     handlerType := .process
     isDisabled := false
     minimizeConcurrency := false
     routes := [⟨.event, .inbound, uuid 10⟩, ⟨.command, .outbound, uuid 11⟩] },
    { key := uuid 2
      handlerType := .projection
      isDisabled := true
      minimizeConcurrency := true
      routes := [⟨.event, .inbound, uuid 12⟩] }]

/-- A source is watched, and the process consumes a stream.  Only the events that the process
asks for are watched. -/
theorem catalog_never_panics_sample : ∃ w : World Nat Nat Nat,
    World.Reaches (.start eventStreamCacheSize) w ∧
      (∃ watch, w.watches 0 = some watch ∧ watch.types = some {uuid 10}) ∧
      ∃ k, w.consumers 0 = some k ∧ k.types = {uuid 10} ∧ k.phase ≠ .returned .unwatched := by
  have h : Reached 1 sampleHandlers (.start eventStreamCacheSize : World Nat Nat Nat) := .refl
  have h : Reached 1 sampleHandlers _ := h.tail (@Step.watch _ _ _ _ _ _ _ _ 0 7 rfl (by decide))
  have h : Reached 1 sampleHandlers _ := h.tail (@Step.consume _ _ _ _ _ _ _ _ 0 (uuid 100) 0 _ _
    rfl (List.mem_cons_self ..) rfl)
  obtain ⟨hreaches, hconsumers, -⟩ := catalog_never_panics (by decide) h
  exact ⟨_, hreaches, ⟨_, rfl, rfl⟩, _, rfl, rfl, (hconsumers 0 _ rfl).2⟩

end Runkit.Routing
