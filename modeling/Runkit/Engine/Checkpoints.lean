/-
  Engine/Checkpoints.lean --- processing each event exactly once.

  Any number of stream consumers, on any nodes, pass the segments of event streams
  to the sinks of process handlers.  Nothing keeps two of them from consuming the
  same stream for the same handler at the same time, and each works with the
  checkpoint that it loaded when it started.  What makes them process each event
  once is the comparison with the stored checkpoint in `Sink.consume`.

  Source: internal/process/sink.go, internal/eventstream/consumer.go.
-/
import Runkit.Engine.Streams
import Runkit.EventStream.Segment

set_option autoImplicit false

namespace Runkit.Engine

open Runkit.Foundation Runkit.Schema Runkit.EventStream

variable {ρ C T : Type}

/-! ## Stream consumers -/

/-- What a stream consumer is doing. -/
inductive ConsumerPhase (T : Type) where
  /-- `Catalog.Consume` has delivered the stream up to `position`. -/
  | receiving (position : Nat)
  /-- In `Sink.ConsumeSegment`, where the events `pending` are left. -/
  | consuming (pending : List Envelope) (segEnd : Nat)
  /-- In `Sink.consume`, which has begun the transaction `t`. -/
  | awaiting (t : T) (next : Nat) (pending : List Envelope) (segEnd : Nat)

/-- A stream consumer that is running, with the checkpoint that it believes in. -/
structure StreamConsumer (T : Type) where
  handlerKey : UUID
  streamID : UUID
  cp : Nat
  phase : ConsumerPhase T

/-- The stream consumer after the transaction of `Sink.consume` has found the
checkpoint `actual`.  It stops on a conflict. -/
def StreamConsumer.resume (k : StreamConsumer T) (actual next : Nat) (pending : List Envelope)
    (segEnd : Nat) : Option (StreamConsumer T) :=
  if actual = k.cp then
    some { k with cp := next, phase := .consuming pending segEnd }
  else
    none

/-- The stored checkpoint of the handler on the stream. -/
def checkpoint (rows : Database) (handlerKey streamID : UUID) : Nat :=
  Process.checkpointOffset (rows (.handlerCheckpoint handlerKey streamID))

/-- The events that the process handler consumes. -/
def consumedTypes (app : Application ρ) (handlerKey : UUID) : TypeFilter :=
  some (app.process handlerKey).eventTypes

/-- All transactions, the streams that `Catalog.Consume` delivers, and the stream
consumers, of which those that are not running are `none`. -/
structure World (C T ρ : Type) where
  system : System T ρ
  logs : UUID → EventLog
  consumers : C → Option (StreamConsumer T)

/-- The request is not one of a sink. -/
def NotConsume (_begun : List (Request ρ)) (r : Request ρ) : Prop :=
  ∀ handlerKey call, r ≠ .consume handlerKey call

namespace World

/-- Nothing has happened yet, and all streams are empty. -/
def start : World C T ρ where
  system := Engine.start
  logs := fun _ => Log.empty _ _
  consumers := fun _ => none

variable [DecidableEq C] [DecidableEq T]

/-- One step of the transactions, the streams or a stream consumer. -/
inductive Step (app : Application ρ) : World C T ρ → World C T ρ → Prop where
  /-- A transaction makes progress or ends, or one that is not of a sink begins.  A
  stream consumer need not learn of it. -/
  | transact {w : World C T ρ} {system : System T ρ}
      (hstep : Pool.Step (program app) NotConsume w.system system) :
      Step app w { w with system := system }
  /-- Events are appended to a stream. -/
  | grow {w : World C T ρ} {streamID : UUID} {log : EventLog}
      (hextends : (w.logs streamID).Extends log) :
      Step app w { w with logs := Function.update w.logs streamID log }
  /-- A stream consumer starts, with what `Sink.CheckpointOffset` returns. -/
  | load {w : World C T ρ} {c : C} {handlerKey streamID : UUID}
      (hstopped : w.consumers c = none) :
      Step app w
        { w with
          consumers := Function.update w.consumers c (some
            { handlerKey := handlerKey
              streamID := streamID
              cp := checkpoint w.system.rows handlerKey streamID
              phase := .receiving (checkpoint w.system.rows handlerKey streamID) }) }
  /-- `Catalog.Consume` delivers the segment that follows those delivered before. -/
  | receive {w : World C T ρ} {c : C} {k : StreamConsumer T} {seg : Segment}
      (hconsumer : w.consumers c = some k) (hphase : k.phase = .receiving seg.begin)
      (hseg : seg.Of (w.logs k.streamID) (consumedTypes app k.handlerKey)) :
      Step app w
        { w with
          consumers := Function.update w.consumers c
            (some { k with phase := .consuming seg.envelopes seg.end_ }) }
  /-- `Sink.ConsumeSegment` calls `Sink.consume`, which begins a transaction. -/
  | consume {w : World C T ρ} {c : C} {k : StreamConsumer T} {pending rest : List Envelope}
      {segEnd next : Nat} {env : Option Envelope} {t : T} {attempt : Process.EventAttempt ρ}
      (hconsumer : w.consumers c = some k) (hphase : k.phase = .consuming pending segEnd)
      (hnext : Process.nextConsume k.cp segEnd pending = some (next, env, rest))
      (hidle : w.system.sessions t = none) :
      Step app w
        { w with
          system := w.system.begin (program app) t
            (.consume k.handlerKey ⟨k.streamID, k.cp, next, env, attempt⟩)
          consumers := Function.update w.consumers c
            (some { k with phase := .awaiting t next rest segEnd }) }
  /-- The transaction commits, and the stream consumer learns of it. -/
  | finish {w : World C T ρ} {c : C} {k : StreamConsumer T} {t : T} {next segEnd actual : Nat}
      {pending : List Envelope} {o : Open (Request ρ) Key Row (Observation ρ) Response}
      (hconsumer : w.consumers c = some k)
      (hphase : k.phase = .awaiting t next pending segEnd)
      (hopen : w.system.sessions t = some o) (hdone : o.residual = .pure (.consumed actual)) :
      Step app w
        { w with
          system := w.system.commit t o (.consumed actual)
          consumers := Function.update w.consumers c (k.resume actual next pending segEnd) }
  /-- `Sink.ConsumeSegment` accepts the whole segment. -/
  | accept {w : World C T ρ} {c : C} {k : StreamConsumer T} {pending : List Envelope}
      {segEnd : Nat} (hconsumer : w.consumers c = some k)
      (hphase : k.phase = .consuming pending segEnd)
      (hnext : Process.nextConsume k.cp segEnd pending = none) :
      Step app w
        { w with
          consumers := Function.update w.consumers c
            (some { k with phase := .receiving segEnd }) }
  /-- A stream consumer stops, because of an error or because it is told to. -/
  | stop {w : World C T ρ} {c : C} :
      Step app w { w with consumers := Function.update w.consumers c none }

/-- The world gets from one state to another by any number of steps. -/
def Reaches (app : Application ρ) : World C T ρ → World C T ρ → Prop :=
  Relation.ReflTransGen (Step app)

end World

/-! ## Segments -/

/-- What is left of a segment that begins at the checkpoint splits into what the
next call of `Sink.consume` is about and what is left after it. -/
theorem nextConsume_covers {log : EventLog} {types : TypeFilter} {cp segEnd next : Nat}
    {pending rest : List Envelope} {env : Option Envelope}
    (hseg : Covers log types cp segEnd pending)
    (hnext : Process.nextConsume cp segEnd pending = some (next, env, rest)) :
    Covers log types cp next env.toList ∧ Covers log types next segEnd rest := by
  cases pending with
  | nil =>
      rw [Process.nextConsume] at hnext
      split at hnext
      · cases hnext
        exact ⟨hseg, .empty hseg.within⟩
      · cases hnext
  | cons first pending =>
      have hlo := (hseg.bounds List.mem_cons_self).1
      rw [Process.nextConsume, if_neg (by omega)] at hnext
      cases hnext
      exact hseg.cons

/-- Once no call is left, the checkpoint is at the end of the segment. -/
theorem cp_eq_of_nextConsume {log : EventLog} {types : TypeFilter} {cp segEnd : Nat}
    {pending : List Envelope} (hseg : Covers log types cp segEnd pending)
    (hnext : Process.nextConsume cp segEnd pending = none) : cp = segEnd := by
  have hordered := hseg.ordered
  cases pending with
  | nil =>
      rw [Process.nextConsume] at hnext
      split at hnext
      · cases hnext
      · omega
  | cons first pending =>
      have hlo := (hseg.bounds List.mem_cons_self).1
      rw [Process.nextConsume, if_neg (by omega)] at hnext
      cases hnext

/-! ## What one transaction does to a checkpoint -/

/-- The event that an observation says has been processed for the handler on the
stream. -/
def processedEvent (handlerKey streamID : UUID) : Observation ρ → Option Envelope
  | .processed key id env _ => if key = handlerKey ∧ id = streamID then some env else none
  | _ => none

/-- The events that a transaction has processed for the handler on the stream,
whether they were handled or declined. -/
def processedIn (handlerKey streamID : UUID) (r : Request ρ) (trace : List (Observation ρ)) :
    List Envelope :=
  match r with
  | .consume _ _ => trace.filterMap (processedEvent handlerKey streamID)
  | _ => []

/-- The events that have been processed in committed transactions, oldest first. -/
def processedEvents (handlerKey streamID : UUID) (history : List (Transaction ρ)) :
    List Envelope :=
  history.flatMap fun record => processedIn handlerKey streamID record.request record.trace

/-- How a transaction can change a checkpoint, given the events that it processes. -/
inductive CheckpointChange (handlerKey streamID : UUID) (before after : Database)
    (r : Request ρ) (processed : List Envelope) : Prop where
  | kept (hprocessed : processed = [])
      (hkept : checkpoint after handlerKey streamID = checkpoint before handlerKey streamID) :
      CheckpointChange handlerKey streamID before after r processed
  | advanced {call : Process.ConsumeCall ρ} (hrequest : r = .consume handlerKey call)
      (hstream : call.streamID = streamID) (hprocessed : processed = call.env.toList)
      (hbefore : checkpoint before handlerKey streamID = call.cp)
      (hafter : checkpoint after handlerKey streamID = call.next) :
      CheckpointChange handlerKey streamID before after r processed

/-- If the transaction of `Sink.consume` has found a checkpoint other than the one
that it was given, it has not committed an effect of any event.  It may have
stored a checkpoint that was not stored yet. -/
def NoEffectOnConflict (record : Transaction ρ) : Prop :=
  ∀ handlerKey call actual, record.request = .consume handlerKey call →
    record.result = .consumed actual → actual ≠ call.cp →
      actual = checkpoint record.before handlerKey call.streamID ∧
        record.after =
          Process.withCheckpoint handlerKey call.streamID actual record.before ∧
        record.trace = []

section Change

variable {app : Application ρ} {before after : Database} {locks : Key → Bool}
  {trace : List (Observation ρ)} {r : Request ρ} {response : Response}

theorem checkpoint_withCheckpoint (handlerKey streamID : UUID) (offset : Nat) (db : Database) :
    checkpoint (Process.withCheckpoint handlerKey streamID offset db) handlerKey streamID =
      offset := by
  simp [checkpoint, Process.withCheckpoint, Process.checkpointOffset]

/-- While an event is dispatched, none is reported as processed. -/
theorem dispatched_processes_nothing {h : ProcessHandler ρ} {a : Process.EventAttempt ρ}
    {env : Envelope} {disposition : Disposition} {handlerKey streamID : UUID}
    (hdispatched : Process.Dispatched h a env before locks disposition trace after) :
    trace.filterMap (processedEvent handlerKey streamID) = [] := by
  cases hdispatched <;> rfl

/-- A transaction of `Sink.consume` advances the checkpoint that it is about, and
no other. -/
theorem consumed_checkpointChange {key : UUID} {call : Process.ConsumeCall ρ} {actual : Nat}
    (hconsumed : Process.Consumed (app.process key) call before locks actual trace after)
    (handlerKey streamID : UUID) :
    CheckpointChange handlerKey streamID before after (.consume key call)
      (processedIn handlerKey streamID (.consume key call) trace) := by
  have hkey := app.process_key key
  by_cases hmine : key = handlerKey ∧ call.streamID = streamID
  · obtain ⟨rfl, rfl⟩ := hmine
    cases hconsumed with
    | conflict hactual _ =>
        rw [hkey] at hactual ⊢
        exact .kept rfl (by rw [checkpoint_withCheckpoint, hactual]; rfl)
    | skipped hactual henv =>
        rw [hkey] at hactual ⊢
        exact .advanced rfl rfl (by rw [henv]; rfl) hactual.symm
          (checkpoint_withCheckpoint _ _ _ _)
    | dispatched hactual henv hdispatched =>
        rw [hkey] at hactual ⊢
        refine .advanced rfl rfl ?_ hactual.symm (checkpoint_withCheckpoint _ _ _ _)
        rw [processedIn, List.filterMap_append, dispatched_processes_nothing hdispatched, henv]
        simp [processedEvent]
  · refine .kept ?_ ?_
    · cases hconsumed with
      | conflict _ _ => rfl
      | skipped _ _ => rfl
      | dispatched _ _ hdispatched =>
          rw [processedIn, List.filterMap_append, dispatched_processes_nothing hdispatched]
          simp [processedEvent, hkey, hmine]
    · have hne : Key.handlerCheckpoint handlerKey streamID ≠
          .handlerCheckpoint (app.process key).key call.streamID := by
        rw [hkey]
        rintro ⟨⟩
        exact hmine ⟨rfl, rfl⟩
      rw [checkpoint, hconsumed.frame (.handlerCheckpoint _ _) hne, checkpoint]

/-- How a transaction can change a checkpoint. -/
theorem Committed.checkpointChange (h : Committed app before locks trace r response after)
    (handlerKey streamID : UUID) :
    CheckpointChange handlerKey streamID before after r
      (processedIn handlerKey streamID r trace) := by
  have hframe : r.ofProcess = false →
      checkpoint after handlerKey streamID = checkpoint before handlerKey streamID := by
    intro hr
    rw [checkpoint, h.processFrame hr .handlerCheckpoint, checkpoint]
  cases h with
  | executeCommand _ => exact .kept rfl (hframe rfl)
  | aggregateCommand _ => exact .kept rfl (hframe rfl)
  | integrationCommand _ => exact .kept rfl (hframe rfl)
  | deadline hcommitted =>
      refine .kept rfl ?_
      rw [checkpoint, hcommitted.frame (.handlerCheckpoint _ _), checkpoint]
  | consume hconsumed => exact consumed_checkpointChange hconsumed handlerKey streamID

theorem Committed.noEffectOnConflict {record : Transaction ρ}
    (h : Committed app record.before locks record.trace record.request record.result
      record.after) : NoEffectOnConflict record := by
  intro handlerKey call actual hrequest hresult hconflict
  rw [hrequest, hresult] at h
  cases h with
  | consume hconsumed =>
      have hkey := app.process_key handlerKey
      generalize htrace : record.trace = trace at hconsumed
      generalize hafter : record.after = after at hconsumed
      cases hconsumed with
      | conflict hactual _ =>
          rw [hkey] at hactual ⊢
          exact ⟨hactual, rfl, rfl⟩
      | skipped _ _ => exact absurd rfl hconflict
      | dispatched _ _ _ => exact absurd rfl hconflict

end Change

/-! ## The invariant -/

/-- What holds of the transactions, given the streams and a lower bound of every
checkpoint. -/
structure CheckpointInvariant (app : Application ρ) (logs : UUID → EventLog)
    (bound : UUID → UUID → Nat) (begun : List (Request ρ)) (rows : Database)
    (history : List (Transaction ρ)) : Prop where
  /-- Every call of `Sink.consume` is about a piece of the stream. -/
  requested : ∀ handlerKey call, .consume handlerKey call ∈ begun →
    Covers (logs call.streamID) (consumedTypes app handlerKey)
      call.cp call.next call.env.toList
  within : ∀ handlerKey streamID,
    checkpoint rows handlerKey streamID ≤ (logs streamID).next
  advanced : ∀ handlerKey streamID,
    bound handlerKey streamID ≤ checkpoint rows handlerKey streamID
  processed : ∀ handlerKey streamID,
    processedEvents handlerKey streamID history =
      (logs streamID).read (admits (consumedTypes app handlerKey)) 0
        (checkpoint rows handlerKey streamID)
  conflicts : ∀ record ∈ history, NoEffectOnConflict record

section Invariant

variable {app : Application ρ} {logs : UUID → EventLog} {bound : UUID → UUID → Nat}
  {begun : List (Request ρ)} {rows : Database} {history : List (Transaction ρ)}

theorem CheckpointInvariant.initial (app : Application ρ) :
    CheckpointInvariant app (fun _ => Log.empty _ _) (fun _ _ => 0) [] emptyDatabase [] where
  requested := by intro handlerKey call hmem; cases hmem
  within := fun _ _ => Nat.le_refl 0
  advanced := fun _ _ => Nat.le_refl 0
  processed := fun _ _ => rfl
  conflicts := by intro record hmem; cases hmem

theorem CheckpointInvariant.begin (hinv : CheckpointInvariant app logs bound begun rows history)
    {r : Request ρ}
    (hr : ∀ handlerKey call, r = .consume handlerKey call →
      Covers (logs call.streamID) (consumedTypes app handlerKey)
        call.cp call.next call.env.toList) :
    CheckpointInvariant app logs bound (begun ++ [r]) rows history where
  requested := by
    intro handlerKey call hmem
    obtain hmem | hmem := List.mem_append.mp hmem
    · exact hinv.requested handlerKey call hmem
    · exact hr handlerKey call (List.mem_singleton.mp hmem).symm
  within := hinv.within
  advanced := hinv.advanced
  processed := hinv.processed
  conflicts := hinv.conflicts

/-- The events below a checkpoint, and where it is, after a transaction. -/
theorem CheckpointInvariant.change {record : Transaction ρ} {locks : Key → Bool}
    (hinv : CheckpointInvariant app logs bound begun record.before history)
    (hrequested : record.request ∈ begun)
    (h : Committed app record.before locks record.trace record.request record.result
      record.after) (handlerKey streamID : UUID) :
    checkpoint record.before handlerKey streamID ≤ checkpoint record.after handlerKey streamID ∧
      checkpoint record.after handlerKey streamID ≤ (logs streamID).next ∧
      processedEvents handlerKey streamID (history ++ [record]) =
        (logs streamID).read (admits (consumedTypes app handlerKey)) 0
          (checkpoint record.after handlerKey streamID) := by
  have hsplit : processedEvents handlerKey streamID (history ++ [record]) =
      processedEvents handlerKey streamID history ++
        processedIn handlerKey streamID record.request record.trace := by
    simp [processedEvents]
  rw [hsplit, hinv.processed]
  cases h.checkpointChange handlerKey streamID with
  | kept hprocessed hkept =>
      rw [hprocessed, hkept, List.append_nil]
      exact ⟨Nat.le_refl _, hinv.within _ _, rfl⟩
  | @advanced call hrequest hstream hprocessed hbefore hafter =>
      subst hstream
      obtain ⟨hordered, hwithin, hcomplete⟩ :=
        hinv.requested handlerKey call (hrequest ▸ hrequested)
      rw [hprocessed, hbefore, hafter, hcomplete]
      exact ⟨hordered, hwithin, ((logs _).read_split (Nat.zero_le _) hordered).symm⟩

theorem CheckpointInvariant.commit {record : Transaction ρ} {locks : Key → Bool}
    (hinv : CheckpointInvariant app logs bound begun record.before history)
    (hrequested : record.request ∈ begun)
    (h : Committed app record.before locks record.trace record.request record.result
      record.after) :
    CheckpointInvariant app logs bound begun record.after (history ++ [record]) where
  requested := hinv.requested
  within := fun handlerKey streamID => (hinv.change hrequested h handlerKey streamID).2.1
  advanced := fun handlerKey streamID =>
    Nat.le_trans (hinv.advanced handlerKey streamID)
      (hinv.change hrequested h handlerKey streamID).1
  processed := fun handlerKey streamID => (hinv.change hrequested h handlerKey streamID).2.2
  conflicts := by
    intro other hother
    obtain hother | hother := List.mem_append.mp hother
    · exact hinv.conflicts other hother
    · rw [List.mem_singleton.mp hother]
      exact h.noEffectOnConflict

theorem CheckpointInvariant.grow (hinv : CheckpointInvariant app logs bound begun rows history)
    {logs' : UUID → EventLog} (hgrow : ∀ streamID, (logs streamID).Extends (logs' streamID)) :
    CheckpointInvariant app logs' bound begun rows history where
  requested := fun handlerKey call hmem =>
    (hinv.requested handlerKey call hmem).grow (hgrow _)
  within := fun handlerKey streamID =>
    Nat.le_trans (hinv.within handlerKey streamID) (hgrow streamID).1
  advanced := hinv.advanced
  processed := by
    intro handlerKey streamID
    rw [(hgrow streamID).read_eq (hinv.within handlerKey streamID), hinv.processed]
  conflicts := hinv.conflicts

/-- A step of the transactions keeps the invariant, if the calls of `Sink.consume`
that begin are about pieces of the stream. -/
theorem CheckpointInvariant.step [DecidableEq T] {allow : List (Request ρ) → Request ρ → Prop}
    (hallow : ∀ begun r, allow begun r → ∀ handlerKey call, r = .consume handlerKey call →
      Covers (logs call.streamID) (consumedTypes app handlerKey)
        call.cp call.next call.env.toList)
    {p p' : System T ρ} (hp : p.Consistent databaseRely (program app))
    (hinv : CheckpointInvariant app logs bound p.begun p.rows p.history)
    (hstep : Pool.Step (program app) allow p p') :
    p'.Consistent databaseRely (program app) ∧
      CheckpointInvariant app logs bound p'.begun p'.rows p'.history :=
  invariant_of_committed (CheckpointInvariant app logs bound)
    (fun begun _ _ r hinv hallowed => hinv.begin (hallow begun r hallowed))
    (fun _ _ _ _ hinv hrequested h => hinv.commit hrequested h) (.single hstep) hp hinv

end Invariant

/-- The stream consumer is where the stream says that it is. -/
def StreamConsumer.Follows (log : EventLog) (types : TypeFilter) (k : StreamConsumer T) : Prop :=
  match k.phase with
  | .receiving position => k.cp = position ∧ position ≤ log.next
  | .consuming pending segEnd => Covers log types k.cp segEnd pending
  | .awaiting _ next pending segEnd => Covers log types next segEnd pending

theorem StreamConsumer.Follows.extends {log later : EventLog} {types : TypeFilter}
    {k : StreamConsumer T} (h : k.Follows log types) (hextends : log.Extends later) :
    k.Follows later types := by
  unfold StreamConsumer.Follows at h ⊢
  split at h
  · exact ⟨h.1, Nat.le_trans h.2 hextends.1⟩
  · exact h.grow hextends
  · exact h.grow hextends

namespace World

variable [DecidableEq C] [DecidableEq T] {app : Application ρ} {bound : UUID → UUID → Nat}
  {w w' : World C T ρ}

/-- What holds in every state of the world. -/
structure Invariant (app : Application ρ) (bound : UUID → UUID → Nat) (w : World C T ρ) :
    Prop where
  consistent : w.system.Consistent databaseRely (program app)
  checkpoints : CheckpointInvariant app w.logs bound w.system.begun w.system.rows
    w.system.history
  follows : ∀ c k, w.consumers c = some k →
    k.Follows (w.logs k.streamID) (consumedTypes app k.handlerKey)

omit [DecidableEq C] [DecidableEq T] in
theorem Invariant.start (app : Application ρ) :
    (start : World C T ρ).Invariant app fun _ _ => 0 where
  consistent := start_consistent
  checkpoints := .initial app
  follows := by intro c k hk; cases hk

omit [DecidableEq T] in
/-- What holds of the stream consumers after one of them has changed. -/
theorem follows_update {logs : UUID → EventLog} {consumers : C → Option (StreamConsumer T)}
    (h : ∀ c k, consumers c = some k →
      k.Follows (logs k.streamID) (consumedTypes app k.handlerKey))
    {c : C} {k' : Option (StreamConsumer T)}
    (h' : ∀ k, k' = some k → k.Follows (logs k.streamID) (consumedTypes app k.handlerKey)) :
    ∀ c₁ k, Function.update consumers c k' c₁ = some k →
      k.Follows (logs k.streamID) (consumedTypes app k.handlerKey) := by
  intro c₁ k hk
  obtain ⟨-, hnew⟩ | ⟨-, hold⟩ := update_eq_some hk
  · exact h' k hnew
  · exact h c₁ k hold

theorem Invariant.step (hinv : w.Invariant app bound) (hstep : Step app w w') :
    w'.Invariant app bound := by
  obtain ⟨hconsistent, hcheckpoints, hfollows⟩ := hinv
  cases hstep with
  | transact hstep =>
      have hkeeps := hcheckpoints.step
        (fun _ r hallowed handlerKey call heq => absurd heq (hallowed handlerKey call))
        hconsistent hstep
      exact ⟨hkeeps.1, hkeeps.2, hfollows⟩
  | @grow streamID log hextends =>
      exact ⟨hconsistent, hcheckpoints.grow hextends.update,
        fun c k hk => (hfollows c k hk).extends (hextends.update _)⟩
  | load _ =>
      refine ⟨hconsistent, hcheckpoints, follows_update hfollows ?_⟩
      rintro k ⟨⟩
      exact ⟨rfl, hcheckpoints.within _ _⟩
  | @receive c k seg hconsumer hphase hseg =>
      refine ⟨hconsistent, hcheckpoints, follows_update hfollows ?_⟩
      have hk := hfollows c k hconsumer
      rw [StreamConsumer.Follows, hphase] at hk
      rintro k' ⟨⟩
      rw [StreamConsumer.Follows]
      dsimp only
      rw [hk.1]
      exact ⟨hseg.ordered, hseg.within, hseg.complete⟩
  | @consume c k pending rest segEnd next env t attempt hconsumer hphase hnext hidle =>
      have hk := hfollows c k hconsumer
      rw [StreamConsumer.Follows, hphase] at hk
      obtain ⟨hcall, hrest⟩ := nextConsume_covers hk hnext
      have hbegin : Pool.Step (program app)
          (fun _ r => r = .consume k.handlerKey ⟨k.streamID, k.cp, next, env, attempt⟩)
          w.system _ := .begin hidle rfl
      have hkeeps := hcheckpoints.step (by
        rintro _ _ rfl handlerKey call ⟨⟩
        exact hcall) hconsistent hbegin
      refine ⟨hkeeps.1, hkeeps.2, follows_update hfollows ?_⟩
      rintro k' ⟨⟩
      exact hrest
  | @finish c k t next segEnd actual pending o hconsumer hphase hopen hdone =>
      have hcommit : Pool.Step (program app) NotConsume w.system _ := .commit hopen hdone
      have hkeeps := hcheckpoints.step
        (fun _ r hallowed handlerKey call heq => absurd heq (hallowed handlerKey call))
        hconsistent hcommit
      have hk := hfollows c k hconsumer
      rw [StreamConsumer.Follows, hphase] at hk
      refine ⟨hkeeps.1, hkeeps.2, follows_update hfollows ?_⟩
      intro k' hk'
      rw [StreamConsumer.resume] at hk'
      split at hk'
      · cases hk'
        exact hk
      · cases hk'
  | @accept c k pending segEnd hconsumer hphase hnext =>
      have hk := hfollows c k hconsumer
      rw [StreamConsumer.Follows, hphase] at hk
      refine ⟨hconsistent, hcheckpoints, follows_update hfollows ?_⟩
      rintro k' ⟨⟩
      exact ⟨cp_eq_of_nextConsume hk hnext, hk.within⟩
  | stop =>
      refine ⟨hconsistent, hcheckpoints, follows_update hfollows ?_⟩
      rintro k ⟨⟩

theorem Invariant.run (h : Reaches app w w') (hinv : w.Invariant app bound) :
    w'.Invariant app bound := by
  refine run_preserves ?_ h hinv
  intro w₁ w₂ hinv hstep
  exact hinv.step hstep

end World

/-- The events of a handler's types that have been processed in committed
transactions are, in offset order and each once, those below the stored
checkpoint; no checkpoint ever decreases; and a call of `Sink.consume` that finds
another checkpoint than it was given commits no effect of any event. -/
theorem events_processed_exactly_once [DecidableEq C] [DecidableEq T] {app : Application ρ}
    {w w' : World C T ρ} (h : World.Reaches app World.start w) (h' : World.Reaches app w w') :
    (∀ handlerKey streamID,
      processedEvents handlerKey streamID w.system.history =
        (w.logs streamID).read (admits (consumedTypes app handlerKey)) 0
          (checkpoint w.system.rows handlerKey streamID)) ∧
      (∀ handlerKey streamID,
        (processedEvents handlerKey streamID w.system.history).Pairwise
          fun a b => a.offset < b.offset) ∧
      (∀ handlerKey streamID,
        checkpoint w.system.rows handlerKey streamID ≤
          checkpoint w'.system.rows handlerKey streamID) ∧
      ∀ record ∈ w.system.history, NoEffectOnConflict record := by
  have hinv := World.Invariant.run h (.start app)
  have hprocessed := hinv.checkpoints.processed
  have hlater : w.Invariant app (checkpoint w.system.rows) :=
    ⟨hinv.consistent, { hinv.checkpoints with advanced := fun _ _ => Nat.le_refl _ },
      hinv.follows⟩
  refine ⟨hprocessed, ?_, (hlater.run h').checkpoints.advanced, hinv.checkpoints.conflicts⟩
  intro handlerKey streamID
  rw [hprocessed]
  exact Log.read_pairwise _ _ _ _

/-! ## A run -/

namespace World

variable [DecidableEq C] [DecidableEq T] {app : Application ρ} {w : World C T ρ}

/-- The world after a stream consumer has called `Sink.consume`, while no other
transaction was open. -/
def consumed (app : Application ρ) (w : World C T ρ) (c : C) (k : StreamConsumer T)
    (call : Process.ConsumeCall ρ) (actual : Nat) (rest : List Envelope) (segEnd : Nat) :
    World C T ρ :=
  { w with
    system := Pool.serveOne (program app) w.system (.consume k.handlerKey call)
    consumers := Function.update w.consumers c (k.resume actual call.next rest segEnd) }

theorem transact_run {p p' : System T ρ}
    (h : Relation.ReflTransGen (Pool.Step (program app) NotConsume) p p') :
    Reaches app { w with system := p } { w with system := p' } := by
  induction h with
  | refl => exact .refl
  | tail _ hlast ih => exact .tail ih (.transact hlast)

theorem consumed_reached (t : T) {c : C} {k : StreamConsumer T} {pending rest : List Envelope}
    {segEnd next actual : Nat} {env : Option Envelope} {attempt : Process.EventAttempt ρ}
    (hidle : ∀ t, w.system.sessions t = none)
    (hconsumer : w.consumers c = some k) (hphase : k.phase = .consuming pending segEnd)
    (hnext : Process.nextConsume k.cp segEnd pending = some (next, env, rest))
    (hexec : (Tx.exec w.system.rows
      (program app (.consume k.handlerKey ⟨k.streamID, k.cp, next, env, attempt⟩)) .start).map
        Prod.fst = some (.consumed actual)) :
    Reaches app w
      (w.consumed app c k ⟨k.streamID, k.cp, next, env, attempt⟩ actual rest segEnd) := by
  let waiting : C → Option (StreamConsumer T) := Function.update w.consumers c
    (some { k with phase := .awaiting t next rest segEnd })
  have hbegin : Step app w
      { w with
        system := w.system.begin (program app) t
          (.consume k.handlerKey ⟨k.streamID, k.cp, next, env, attempt⟩)
        consumers := waiting } := .consume hconsumer hphase hnext (hidle t)
  obtain ⟨⟨response, s⟩, hexec, rfl⟩ := Option.map_eq_some_iff.mp hexec
  obtain ⟨p', o, hrun, hopen, hdone, hcommit⟩ := Pool.begin_run (t := t) hidle hexec
  have hfinish : Step app { w with system := p', consumers := waiting } _ :=
    .finish (Function.update_self ..) rfl hopen hdone
  rw [hcommit, Function.update_idem] at hfinish
  have htransact := transact_run (w := { w with consumers := waiting }) hrun
  exact .tail (.trans (.single hbegin) htransact) hfinish

end World

/-- An attempt in which the instance `"p"` handles the event. -/
def handling : Process.EventAttempt Nat where
  unpacks := true
  routing := .routed "p"
  behavior :=
    { constructs := true
      unmarshals := true
      calls := []
      returns := true
      marshals := true
      now := 0 }

/-- A stream consumer that has loaded the checkpoint 0. -/
def loadedZero : StreamConsumer Unit where
  handlerKey := uuid 60
  streamID := uuid 100
  cp := 0
  phase := .receiving 0

/-- The stream consumer after it has received the segment `[0, 2)`. -/
def receivedTwo : StreamConsumer Unit :=
  { loadedZero with phase := .consuming [eventEnvelope 20 2 0] 2 }

/-- The stream consumer after the event has been processed. -/
def processedOne : StreamConsumer Unit := { receivedTwo with cp := 1, phase := .consuming [] 2 }

/-- The stream has its two events, and the stream consumer has received them. -/
def segmentReceived : World Unit Unit Nat where
  system := start
  logs := Function.update (fun _ => Log.empty _ _) (uuid 100) twoEvents
  consumers := Function.update (Function.update (fun _ => none) () (some loadedZero)) ()
    (some receivedTwo)

/-- The event has been processed. -/
def eventConsumed : World Unit Unit Nat :=
  segmentReceived.consumed counters () receivedTwo
    ⟨uuid 100, 0, 1, some (eventEnvelope 20 2 0), handling⟩ 0 [] 2

/-- The whole segment has been consumed. -/
def segmentConsumed : World Unit Unit Nat :=
  eventConsumed.consumed counters () processedOne ⟨uuid 100, 1, 2, none, handling⟩ 1 [] 2

theorem segmentReceived_reached : World.Reaches counters World.start segmentReceived := by
  have hextends : (Log.empty Envelope Envelope.offset).Extends twoEvents :=
    ⟨Nat.zero_le _, twoEvents.entries, rfl, fun _ _ => Nat.zero_le _⟩
  have hgrow : World.Step counters (World.start : World Unit Unit Nat)
      { segmentReceived with consumers := fun _ => none } :=
    @World.Step.grow _ _ _ _ _ counters World.start (uuid 100) twoEvents hextends
  have hload : World.Step counters { segmentReceived with consumers := fun _ => none }
      { segmentReceived with
        consumers := Function.update (fun _ => none) () (some loadedZero) } := .load rfl
  have hseg : Segment.Of twoEvents (consumedTypes counters (uuid 60))
      ⟨uuid 100, 0, 2, [eventEnvelope 20 2 0]⟩ := ⟨by decide, by decide, by decide⟩
  have hreceive : World.Step counters
      { segmentReceived with
        consumers := Function.update (fun _ => none) () (some loadedZero) } segmentReceived :=
    @World.Step.receive _ _ _ _ _ counters _ () loadedZero
      ⟨uuid 100, 0, 2, [eventEnvelope 20 2 0]⟩ rfl rfl hseg
  exact .tail (.tail (.single hgrow) hload) hreceive

theorem eventConsumed_reached : World.Reaches counters World.start eventConsumed :=
  segmentReceived_reached.trans (World.consumed_reached () (fun _ => rfl) rfl rfl rfl rfl)

theorem segmentConsumed_reached : World.Reaches counters eventConsumed segmentConsumed :=
  World.consumed_reached () (fun _ => rfl) rfl rfl rfl rfl

theorem events_processed_exactly_once_counting :
    processedEvents (uuid 60) (uuid 100) eventConsumed.system.history =
        [eventEnvelope 20 2 0] ∧
      checkpoint eventConsumed.system.rows (uuid 60) (uuid 100) = 1 ∧
      checkpoint segmentConsumed.system.rows (uuid 60) (uuid 100) = 2 ∧
      processedEvents (uuid 60) (uuid 100) eventConsumed.system.history =
        twoEvents.read (admits (consumedTypes counters (uuid 60))) 0 1 ∧
      checkpoint eventConsumed.system.rows (uuid 60) (uuid 100) ≤
        checkpoint segmentConsumed.system.rows (uuid 60) (uuid 100) := by
  have hmain := events_processed_exactly_once eventConsumed_reached segmentConsumed_reached
  exact ⟨by decide, by decide, by decide, hmain.1 (uuid 60) (uuid 100), hmain.2.2.1 _ _⟩

end Runkit.Engine
