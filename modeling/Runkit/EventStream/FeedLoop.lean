/-
  EventStream/FeedLoop.lean --- the loop of `feed.consume`.

  Source: internal/eventstream/feed.go.

  While the cached segment, the stream and the closed state of the feed do not change, the
  loop comes to an end.  An iteration that begins another one has moved the checkpoint, or it
  is the one that has set `confirmed`; the checkpoint moves no further than the ends of the
  stream and of the cached segment.  `Consumer.potential` counts down with every step of a
  call, within an iteration and from one to the next.

  A segment that the source delivers is assumed to end after it begins.
-/
import Runkit.EventStream.FeedConsume

set_option autoImplicit false

namespace Runkit.EventStream

open Runkit.Foundation

variable {S : Type}

/-! ## Measures -/

/-- How far a checkpoint can be moved. -/
def bound (log : EventLog) (segment : CacheSegment) : Nat := max log.next segment.end_

/-- How many more iterations there can be. -/
def remaining (limit cp : Nat) (confirmed : Bool) : Nat :=
  (limit - cp) + (if confirmed then 0 else 1)

/-- Whether the read has moved the checkpoint to where it can be told from the one that the
read began with. -/
def ReadReason.advanced (cp : Nat) : ReadReason → Bool
  | .before start => decide (start ≠ cp)
  | .after => false

/-- How many more steps there can be in an iteration, less than ten. -/
def FeedPhase.rank (cp : Nat) : FeedPhase → Nat
  | .load => 5
  | .deliver _ => 4
  | .wait _ => 1
  | .startRead _ => 4
  | .reading reason => if reason.advanced cp then 8 else 3
  | .readDeliver reason _ => if reason.advanced cp then 7 else 2
  | .compare _ => 9
  | .readReturned reason _ => if reason.advanced cp then 6 else 1

/-- How many more steps there can be in `feed.consume`. -/
def Consumer.potential (limit : Nat) (k : Consumer) : Nat :=
  match k.phase with
  | .inFeed _ _ confirmed phase => 10 * remaining limit k.cp confirmed + phase.rank k.cp
  | _ => 0

/-- What the loop has done between the beginnings of two iterations. -/
structure Advances (limit cp : Nat) (confirmed : Bool) (cp' : Nat) (confirmed' : Bool) : Prop where
  confirms : confirmed' = true
  cp_le : cp ≤ cp'
  moved : (cp < cp' ∧ cp' ≤ limit) ∨ (confirmed = false ∧ cp' = cp)

theorem remaining_true_le (limit cp : Nat) (confirmed : Bool) :
    remaining limit cp true ≤ remaining limit cp confirmed := by
  cases confirmed with
  | false => exact Nat.le_succ _
  | true => exact Nat.le_refl _

theorem remaining_lt_of_lt {limit cp cp' : Nat} (hlt : cp < cp') (hle : cp' ≤ limit)
    (confirmed : Bool) : remaining limit cp' confirmed < remaining limit cp confirmed := by
  simp only [remaining]
  omega

/-- An iteration that begins another one leaves fewer of them. -/
theorem Advances.remaining_lt {limit cp cp' : Nat} {confirmed confirmed' : Bool}
    (h : Advances limit cp confirmed cp' confirmed') :
    remaining limit cp' confirmed' < remaining limit cp confirmed := by
  have hconfirmed := h.confirms
  subst hconfirmed
  rcases h.moved with ⟨hlt, hle⟩ | ⟨hunset, hcp⟩
  · have hmoved := remaining_lt_of_lt hlt hle true
    exact Nat.lt_of_lt_of_le hmoved (remaining_true_le limit cp confirmed)
  · subst hunset hcp
    exact Nat.lt_succ_self _

/-! ## The loop and what is around it -/

/-- A call of `feed.consume`, in the catalog. -/
structure FeedLoop (S : Type) where
  catalog : Catalog S
  consumer : Consumer
  /-- How many iterations have begun. -/
  iterations : Nat
  /-- The checkpoint with which the current iteration has begun. -/
  cp : Nat
  /-- `confirmed` when the current iteration began. -/
  confirmed : Bool

namespace FeedLoop

/-- The loop once a step has been taken in a phase.  An iteration begins with the load of the
cached segment. -/
def after (loop : FeedLoop S) (confirmed : Bool) (catalog : Catalog S) (consumer : Consumer) :
    FeedPhase → FeedLoop S
  | .load =>
      { catalog := catalog
        consumer := consumer
        iterations := loop.iterations + 1
        cp := loop.consumer.cp
        confirmed := confirmed }
  | _ => { loop with catalog := catalog, consumer := consumer }

/-- A step of the call itself. -/
inductive Own (log : EventLog) (f : FeedRef) : FeedLoop S → FeedLoop S → Prop where
  | step {loop : FeedLoop S} {cs : StreamRef} {confirmed : Bool} {phase : FeedPhase}
      {catalog : Catalog S} {consumer : Consumer}
      (hphase : loop.consumer.phase = .inFeed cs f confirmed phase)
      (hstep : Consumer.Step log loop.catalog loop.consumer catalog consumer)
      (hdelivers : ∀ reason seg,
        consumer.phase = .inFeed cs f confirmed (.readDeliver reason seg) → seg.begin < seg.end_) :
      Own log f loop (loop.after confirmed catalog consumer phase)

/-- A step of the call, or of something around it that does not change the cached segment or
the closed state of the feed. -/
inductive Step (log : EventLog) (f : FeedRef) : FeedLoop S → FeedLoop S → Prop where
  | own {loop loop' : FeedLoop S} (hown : Own log f loop loop') : Step log f loop loop'
  | catalog {loop : FeedLoop S} {catalog : Catalog S} {feed feed' : Feed S}
      (hfeed : loop.catalog.feeds f = some feed) (hfeed' : catalog.feeds f = some feed')
      (hcache : feed'.cache = feed.cache) (hclosed : feed'.closed = feed.closed) :
      Step log f loop { loop with catalog := catalog }

/-- The feed has the given cached segment. -/
def Cached (f : FeedRef) (segment : Observable CacheSegment) (loop : FeedLoop S) : Prop :=
  ∃ feed, loop.catalog.feeds f = some feed ∧ feed.cache.segment = segment

end FeedLoop

/-! ## Within one iteration -/

/-- A read in an iteration that began with the given checkpoint. -/
structure Reading (limit cp₀ cp : Nat) (confirmed : Bool) (reason : ReadReason) : Prop where
  cp_le : cp₀ ≤ cp
  moved : cp₀ < cp → cp ≤ limit
  before : ∀ start, reason = .before start → start = cp₀
  after : reason = .after → confirmed = false

/-- What a phase says of the iteration that it is in. -/
def FeedPhase.InIteration (limit : Nat) (segment : Observable CacheSegment) (cp₀ cp : Nat)
    (confirmed : Bool) : FeedPhase → Prop
  | .load => False
  | .deliver seg => cp = cp₀ ∧ cp < seg.end_ ∧ seg.end_ ≤ limit
  | .wait version => version = segment.version
  | .startRead reason => cp = cp₀ ∧ Reading limit cp₀ cp confirmed reason
  | .reading reason => Reading limit cp₀ cp confirmed reason
  | .readDeliver reason seg =>
      Reading limit cp₀ cp confirmed reason ∧ cp < seg.end_ ∧ seg.end_ ≤ limit
  | .compare reason => Reading limit cp₀ cp confirmed reason
  | .readReturned reason _ => Reading limit cp₀ cp confirmed reason

section

variable {log : EventLog} {c c' : Catalog S} {k k' : Consumer} {cs : StreamRef} {f : FeedRef}
  {feed : Feed S} {confirmed : Bool} {phase : FeedPhase} {limit cp₀ cp : Nat}
  {reason : ReadReason}

/-- A read that is about to begin has not moved the checkpoint. -/
theorem Reading.advanced_eq_false (h : Reading limit cp₀ cp₀ confirmed reason) :
    reason.advanced cp₀ = false := by
  cases reason with
  | before start => exact decide_eq_false (not_not_intro (h.before start rfl))
  | after => rfl

/-- The read has moved the checkpoint to the end of a segment. -/
theorem Reading.accept {end_ : Nat} (h : Reading limit cp₀ cp confirmed reason) (hlt : cp < end_)
    (hle : end_ ≤ limit) : Reading limit cp₀ end_ confirmed reason :=
  ⟨Nat.le_trans h.cp_le (Nat.le_of_lt hlt), fun _ => hle, h.before, h.after⟩

/-- The read has returned, and another iteration begins. -/
theorem Reading.advances (h : Reading limit cp₀ cp confirmed reason)
    (hreturned : ∀ start, reason = .before start → cp ≠ start) :
    Advances limit cp₀ confirmed cp true := by
  refine ⟨rfl, h.cp_le, ?_⟩
  rcases Nat.lt_or_eq_of_le h.cp_le with hlt | heq
  · exact Or.inl ⟨hlt, h.moved hlt⟩
  · cases reason with
    | before start =>
        have hstart := h.before start rfl
        exact absurd (heq.symm.trans hstart.symm) (hreturned start rfl)
    | after => exact Or.inr ⟨h.after rfl, heq.symm⟩

/-- The call is no longer in the feed. -/
def ConsumePhase.left : ConsumePhase → Prop
  | .inFeed _ _ _ _ => False
  | _ => True

/-- What a step within an iteration can lead to. -/
inductive Leads (limit : Nat) (segment : Observable CacheSegment) (cs : StreamRef) (f : FeedRef)
    (cp₀ : Nat) (confirmed : Bool) (k : Consumer) : Prop where
  | within {phase : FeedPhase} (hphase : k.phase = .inFeed cs f confirmed phase)
      (hin : phase.InIteration limit segment cp₀ k.cp confirmed)
  | again (hphase : k.phase = .inFeed cs f true .load)
      (hadvances : Advances limit cp₀ confirmed k.cp true)
  | left (hleft : k.phase.left)

/-- Loading the cached segment begins an iteration. -/
theorem Consumer.afterLoad_inIteration (k : Consumer) (confirmed : Bool)
    (segment : Observable CacheSegment) :
    (k.afterLoad confirmed segment).InIteration (bound log segment.value) segment k.cp k.cp
      confirmed := by
  have hstays : k.cp < k.cp → k.cp ≤ bound log segment.value :=
    fun h => absurd h (Nat.lt_irrefl _)
  rcases k.afterLoad_cases confirmed segment with
    ⟨seg, hload, hlt, hend⟩ | ⟨hload, -⟩ | ⟨hload, -, hunset⟩ | ⟨hload, -⟩
  · rw [hload]
    exact ⟨rfl, hlt, hend.trans_le (Nat.le_max_right ..)⟩
  · rw [hload]
    refine ⟨rfl, Nat.le_refl _, hstays, ?_, nofun⟩
    intro start hstart
    exact (ReadReason.before.inj hstart).symm
  · rw [hload]
    exact ⟨rfl, Nat.le_refl _, hstays, nofun, fun _ => hunset⟩
  · rw [hload]
    exact Eq.refl _

theorem Consumer.afterLoad_rank_lt (k : Consumer) (confirmed : Bool)
    (segment : Observable CacheSegment) : (k.afterLoad confirmed segment).rank k.cp < 5 := by
  rcases k.afterLoad_cases confirmed segment with
    ⟨seg, hload, -⟩ | ⟨hload, -⟩ | ⟨hload, -⟩ | ⟨hload, -⟩ <;> simp [hload, FeedPhase.rank]

/-- Once `Source.Read` has returned, the call leaves the feed or begins another iteration. -/
theorem Consumer.afterSourceRead_left (k : Consumer) (cs : StreamRef) (f : FeedRef)
    (closed : Bool) (reason : ReadReason) (outcome : ReadOutcome) :
    (k.afterSourceRead cs f closed reason outcome).left ∨
      (k.afterSourceRead cs f closed reason outcome = .inFeed cs f true .load ∧
        ∀ start, reason = .before start → k.cp ≠ start) := by
  rcases k.afterSourceRead_cases cs f closed reason outcome with
    hload | hclosed | ⟨result, hreturned, -⟩
  · exact Or.inr hload
  · rw [hclosed]
    exact Or.inl trivial
  · rw [hreturned]
    exact Or.inl trivial

/-- One step within an iteration. -/
theorem FeedMove.leads (h : FeedMove log c k cs f feed confirmed phase c' k')
    (hdelivers : ∀ reason seg,
      k'.phase = .inFeed cs f confirmed (.readDeliver reason seg) → seg.begin < seg.end_)
    (hin : phase.InIteration (bound log feed.cache.segment.value) feed.cache.segment cp₀ k.cp
      confirmed) :
    Leads (bound log feed.cache.segment.value) feed.cache.segment cs f cp₀ confirmed k' := by
  cases h with
  | load => exact hin.elim
  | accept =>
      obtain ⟨hcp, hlt, hle⟩ := hin
      have hlt := hcp ▸ hlt
      exact .again rfl ⟨rfl, Nat.le_of_lt hlt, Or.inl ⟨hlt, hle⟩⟩
  | reject => exact .left trivial
  | wake hchanged => exact absurd hin.symm hchanged
  | waitClosed _ => exact .left trivial
  | waitCanceled => exact .left trivial
  | startRead _ => exact .within rfl hin.2
  | startReadClosed _ => exact .left trivial
  | readDeliver hbegin hseg =>
      refine .within rfl ⟨hin, ?_, Nat.le_trans hseg.within (Nat.le_max_left ..)⟩
      exact hbegin ▸ hdelivers _ _ rfl
  | readAccept =>
      obtain ⟨hreading, hlt, hle⟩ := hin
      exact .within rfl (hreading.accept hlt hle)
  | readReject => exact .left trivial
  | caughtUp _ => exact .within rfl hin
  | behind _ => exact .within rfl hin
  | readStop _ => exact .within rfl hin
  | @readReturn reason outcome =>
      rcases k.afterSourceRead_left cs f feed.closed reason outcome with hleft | ⟨hagain, hmoved⟩
      · exact .left hleft
      · exact .again hagain (Reading.advances hin hmoved)

/-! ## The potential -/

theorem Consumer.potential_inFeed (hphase : k.phase = .inFeed cs f confirmed phase) :
    k.potential limit = 10 * remaining limit k.cp confirmed + phase.rank k.cp := by
  rw [Consumer.potential, hphase]

theorem Consumer.potential_left (hleft : k.phase.left) : k.potential limit = 0 := by
  rw [Consumer.potential]
  split
  · rename_i hphase
    rw [hphase] at hleft
    exact hleft.elim
  · exact Eq.refl 0

theorem FeedPhase.rank_pos (cp : Nat) (phase : FeedPhase) : 0 < phase.rank cp := by
  cases phase <;> simp only [FeedPhase.rank] <;> (try split) <;> decide

/-- A step that leaves the feed ends the count. -/
theorem Consumer.potential_lt_of_left (hphase : k.phase = .inFeed cs f confirmed phase)
    (hleft : k'.phase.left) : k'.potential limit < k.potential limit := by
  rw [Consumer.potential_left hleft, Consumer.potential_inFeed hphase]
  exact Nat.lt_of_lt_of_le (phase.rank_pos k.cp) (Nat.le_add_left ..)

/-- A step that keeps the checkpoint counts down by rank. -/
theorem Consumer.potential_lt_of_rank {phase' : FeedPhase}
    (hphase : k.phase = .inFeed cs f confirmed phase)
    (hphase' : k'.phase = .inFeed cs f confirmed phase') (hcp : k'.cp = k.cp)
    (hrank : phase'.rank k.cp < phase.rank k.cp) : k'.potential limit < k.potential limit := by
  rw [Consumer.potential_inFeed hphase, Consumer.potential_inFeed hphase', hcp]
  exact Nat.add_lt_add_left hrank _

/-- A step that leaves fewer iterations counts down, whatever the ranks. -/
theorem Consumer.potential_lt_of_remaining {phase' : FeedPhase} {confirmed' : Bool}
    (hphase : k.phase = .inFeed cs f confirmed phase)
    (hphase' : k'.phase = .inFeed cs f confirmed' phase')
    (hless : remaining limit k'.cp confirmed' < remaining limit k.cp confirmed) :
    k'.potential limit < k.potential limit := by
  have hrank : phase'.rank k'.cp ≤ 9 := by
    cases phase' <;> simp only [FeedPhase.rank] <;> (try split) <;> decide
  rw [Consumer.potential_inFeed hphase, Consumer.potential_inFeed hphase']
  omega

/-- One step within an iteration counts down. -/
theorem FeedMove.potential_lt (h : FeedMove log c k cs f feed confirmed phase c' k')
    (hphase : k.phase = .inFeed cs f confirmed phase)
    (hin : phase.InIteration limit feed.cache.segment cp₀ k.cp confirmed) :
    k'.potential limit < k.potential limit := by
  cases h with
  | load => exact hin.elim
  | accept =>
      obtain ⟨-, hlt, hle⟩ := hin
      refine Consumer.potential_lt_of_remaining hphase rfl ?_
      exact Nat.lt_of_le_of_lt (remaining_true_le ..) (remaining_lt_of_lt hlt hle confirmed)
  | reject => exact Consumer.potential_lt_of_left hphase trivial
  | wake hchanged => exact absurd hin.symm hchanged
  | waitClosed _ => exact Consumer.potential_lt_of_left hphase trivial
  | waitCanceled => exact Consumer.potential_lt_of_left hphase trivial
  | startRead _ =>
      obtain ⟨hcp, hreading⟩ := hin
      refine Consumer.potential_lt_of_rank hphase rfl rfl ?_
      rw [← hcp] at hreading
      simp [FeedPhase.rank, hreading.advanced_eq_false]
  | startReadClosed _ => exact Consumer.potential_lt_of_left hphase trivial
  | readDeliver _ _ =>
      refine Consumer.potential_lt_of_rank hphase rfl rfl ?_
      simp only [FeedPhase.rank]
      split <;> decide
  | readAccept =>
      obtain ⟨-, hlt, hle⟩ := hin
      exact Consumer.potential_lt_of_remaining hphase rfl (remaining_lt_of_lt hlt hle confirmed)
  | readReject => exact Consumer.potential_lt_of_left hphase trivial
  | caughtUp _ =>
      refine Consumer.potential_lt_of_rank hphase rfl rfl ?_
      simp only [FeedPhase.rank]
      split <;> decide
  | behind _ =>
      refine Consumer.potential_lt_of_rank hphase rfl rfl ?_
      simp only [FeedPhase.rank]
      split <;> decide
  | readStop _ =>
      refine Consumer.potential_lt_of_rank hphase rfl rfl ?_
      simp only [FeedPhase.rank]
      split <;> decide
  | @readReturn reason outcome =>
      rcases k.afterSourceRead_left cs f feed.closed reason outcome with hleft | ⟨hagain, hmoved⟩
      · exact Consumer.potential_lt_of_left hphase hleft
      · cases reason with
        | before start =>
            -- The read has moved the checkpoint, which its rank says.
            have hadvanced : (ReadReason.before start).advanced k.cp = true :=
              decide_eq_true (hmoved start rfl).symm
            have hremaining := remaining_true_le limit k.cp confirmed
            rw [Consumer.potential_inFeed hphase, Consumer.potential_inFeed hagain]
            simp only [FeedPhase.rank, hadvanced, if_true]
            omega
        | after =>
            -- `confirmed` is set.
            have hunset := Reading.after hin rfl
            subst hunset
            exact Consumer.potential_lt_of_remaining hphase hagain (Nat.lt_succ_self _)

end

/-! ## The loop as a whole -/

namespace FeedLoop

variable {log : EventLog} {f : FeedRef} {loop loop' loop₀ : FeedLoop S} {cs : StreamRef}
  {segment : Observable CacheSegment} {total : Nat}

/-- Where the loop is, after any number of iterations. -/
inductive Iterating (limit : Nat) (segment : Observable CacheSegment) (f : FeedRef) (total : Nat)
    (loop : FeedLoop S) : Prop where
  /-- About to begin an iteration. -/
  | between {cs : StreamRef} {confirmed : Bool}
      (hphase : loop.consumer.phase = .inFeed cs f confirmed .load)
      (hbudget : loop.iterations + remaining limit loop.consumer.cp confirmed ≤ total)
      (hadvances : 0 < loop.iterations →
        Advances limit loop.cp loop.confirmed loop.consumer.cp confirmed)
  | within {cs : StreamRef} {phase : FeedPhase}
      (hphase : loop.consumer.phase = .inFeed cs f loop.confirmed phase)
      (hbudget : loop.iterations + remaining limit loop.cp loop.confirmed ≤ total + 1)
      (hin : phase.InIteration limit segment loop.cp loop.consumer.cp loop.confirmed)
  | left (hleft : loop.consumer.phase.left) (hbudget : loop.iterations ≤ total + 1)

/-- A step of the call is a move. -/
theorem Own.move (h : Own log f loop loop') {feed : Feed S}
    (hfeed : loop.catalog.feeds f = some feed) :
    ∃ cs confirmed phase catalog consumer,
      loop.consumer.phase = .inFeed cs f confirmed phase ∧
      FeedMove log loop.catalog loop.consumer cs f feed confirmed phase catalog consumer ∧
      (∀ reason seg, consumer.phase = .inFeed cs f confirmed (.readDeliver reason seg) →
        seg.begin < seg.end_) ∧
      loop' = loop.after confirmed catalog consumer phase := by
  cases h with
  | step hphase hstep hdelivers =>
      exact ⟨_, _, _, _, _, hphase, hstep.feedMove hphase hfeed, hdelivers, rfl⟩

@[simp] theorem after_catalog (loop : FeedLoop S) (confirmed : Bool) (catalog : Catalog S)
    (consumer : Consumer) (phase : FeedPhase) :
    (loop.after confirmed catalog consumer phase).catalog = catalog := by
  cases phase <;> rfl

@[simp] theorem after_consumer (loop : FeedLoop S) (confirmed : Bool) (catalog : Catalog S)
    (consumer : Consumer) (phase : FeedPhase) :
    (loop.after confirmed catalog consumer phase).consumer = consumer := by
  cases phase <;> rfl

/-- A step within an iteration does not begin another one. -/
theorem after_inIteration {limit cp₀ cp : Nat} {confirmed : Bool} {phase : FeedPhase}
    (loop : FeedLoop S) (catalog : Catalog S) (consumer : Consumer)
    (hin : phase.InIteration limit segment cp₀ cp confirmed) :
    loop.after confirmed catalog consumer phase =
      { loop with catalog := catalog, consumer := consumer } := by
  cases phase with
  | load => exact hin.elim
  | _ => rfl

theorem Step.cached (h : Step log f loop loop') (hcached : loop.Cached f segment) :
    loop'.Cached f segment := by
  obtain ⟨feed, hfeed, hsegment⟩ := hcached
  cases h with
  | own hown =>
      obtain ⟨_, _, _, _, _, -, hmove, -, rfl⟩ := hown.move hfeed
      obtain ⟨reads, hfeed'⟩ := hmove.feed_eq hfeed
      refine ⟨{ feed with reads := reads }, ?_, hsegment⟩
      rw [after_catalog]
      exact hfeed'
  | catalog hfeed' hnext hcache _ =>
      cases hfeed.symm.trans hfeed'
      exact ⟨_, hnext, (congrArg Cache.segment hcache).trans hsegment⟩

/-- A step of the call keeps to the budget and counts down. -/
theorem Iterating.own (h : loop.Iterating (bound log segment.value) segment f total)
    (hcached : loop.Cached f segment) (hown : Own log f loop loop') :
    loop'.Iterating (bound log segment.value) segment f total ∧
      loop'.consumer.potential (bound log segment.value) <
        loop.consumer.potential (bound log segment.value) := by
  obtain ⟨feed, hfeed, rfl⟩ := hcached
  obtain ⟨cs, confirmed, phase, catalog, consumer, hmoving, hmove, hdelivers, rfl⟩ :=
    hown.move hfeed
  rw [after_consumer]
  cases h with
  | between hphase hbudget _ =>
      cases hmoving.symm.trans hphase
      cases hmove with
      | load =>
          refine ⟨.within rfl ?_ ?_, ?_⟩
          · change loop.iterations + 1 + remaining _ loop.consumer.cp confirmed ≤ total + 1
            omega
          · exact Consumer.afterLoad_inIteration ..
          · refine Consumer.potential_lt_of_rank hphase rfl rfl ?_
            exact Consumer.afterLoad_rank_lt ..
  | within hphase hbudget hin =>
      cases hmoving.symm.trans hphase
      refine ⟨?_, hmove.potential_lt hphase hin⟩
      rw [after_inIteration loop catalog consumer hin]
      cases hmove.leads hdelivers hin with
      | within hphase' hin' => exact .within hphase' hbudget hin'
      | again hphase' hadvances =>
          have hless := hadvances.remaining_lt
          refine .between hphase' ?_ fun _ => hadvances
          change loop.iterations + remaining _ consumer.cp true ≤ total
          omega
      | left hleft =>
          exact .left hleft (Nat.le_trans (Nat.le_add_right ..) hbudget)
  | left hleft _ =>
      rw [hmoving] at hleft
      exact hleft.elim

/-- What holds in every state of the loop. -/
structure Invariant (log : EventLog) (f : FeedRef) (segment : Observable CacheSegment)
    (total : Nat) (loop : FeedLoop S) : Prop where
  cached : loop.Cached f segment
  iterating : loop.Iterating (bound log segment.value) segment f total

theorem Invariant.step (h : loop.Invariant log f segment total) (hstep : Step log f loop loop') :
    loop'.Invariant log f segment total := by
  refine ⟨hstep.cached h.cached, ?_⟩
  cases hstep with
  | own hown => exact (h.iterating.own h.cached hown).1
  | catalog _ _ _ _ =>
      cases h.iterating with
      | between hphase hbudget hadvances => exact .between hphase hbudget hadvances
      | within hphase hbudget hin => exact .within hphase hbudget hin
      | left hleft hbudget => exact .left hleft hbudget

/-- A call that is in the feed, and not waiting, can take a step. -/
theorem Cached.progress (h : loop.Cached f segment) {confirmed : Bool} {phase : FeedPhase}
    (hphase : loop.consumer.phase = .inFeed cs f confirmed phase)
    (hwait : ∀ version, phase ≠ .wait version) : ∃ next, Own log f loop next := by
  obtain ⟨feed, hfeed, -⟩ := h
  cases phase with
  | load =>
      refine ⟨_, .step hphase (.load hphase hfeed) ?_⟩
      intro reason seg hload
      have hloaded := (ConsumePhase.inFeed.inj hload).2.2.2
      rcases loop.consumer.afterLoad_cases confirmed feed.cache.segment with
        ⟨_, heq, -⟩ | ⟨heq, -⟩ | ⟨heq, -⟩ | ⟨heq, -⟩ <;> cases heq.symm.trans hloaded
  | deliver seg => exact ⟨_, .step hphase (.reject hphase) nofun⟩
  | wait version => exact absurd rfl (hwait version)
  | startRead reason =>
      cases hclosed : feed.closed with
      | true => exact ⟨_, .step hphase (.startReadClosed hphase hfeed hclosed) nofun⟩
      | false => exact ⟨_, .step hphase (.startRead hphase hfeed hclosed) nofun⟩
  | reading reason =>
      have hstop : Consumer.Step log loop.catalog loop.consumer loop.catalog
          { loop.consumer with phase := .inFeed cs f confirmed (.readReturned reason .ended) } :=
        .readStop hphase nofun
      exact ⟨_, .step hphase hstop nofun⟩
  | readDeliver reason seg => exact ⟨_, .step hphase (.readAccept hphase) nofun⟩
  | compare reason =>
      rcases Nat.lt_or_ge loop.consumer.cp feed.cache.segment.value.begin with hlt | hge
      · exact ⟨_, .step hphase (.behind hphase hfeed hlt) nofun⟩
      · exact ⟨_, .step hphase (.caughtUp hphase hfeed hge) nofun⟩
  | readReturned reason outcome =>
      refine ⟨_, .step hphase (.readReturn hphase hfeed) ?_⟩
      intro reason' seg hdelivers
      have hafter := loop.consumer.afterSourceRead_left cs f feed.closed reason outcome
      rw [show loop.consumer.afterSourceRead cs f feed.closed reason outcome = _ from hdelivers]
        at hafter
      rcases hafter with hleft | ⟨hload, -⟩
      · exact hleft.elim
      · cases hload

/-- What a loop does, however far it has got. -/
structure Terminates (log : EventLog) (f : FeedRef) (segment : Observable CacheSegment)
    (total : Nat) (loop : FeedLoop S) : Prop where
  /-- No more iterations begin than there is to do. -/
  iterations : loop.iterations ≤ total + 1
  /-- An iteration that neither waits nor returns moves the checkpoint, or sets `confirmed`. -/
  advances : ∀ cs confirmed, loop.consumer.phase = .inFeed cs f confirmed .load →
    0 < loop.iterations →
    Advances (bound log segment.value) loop.cp loop.confirmed loop.consumer.cp confirmed
  /-- Every step of the call counts down. -/
  potential : ∀ next, Own log f loop next →
    next.consumer.potential (bound log segment.value) <
      loop.consumer.potential (bound log segment.value)
  /-- It goes on until it waits or returns. -/
  progress : ∀ cs confirmed phase, loop.consumer.phase = .inFeed cs f confirmed phase →
    (∀ version, phase ≠ .wait version) → ∃ next, Own log f loop next
  /-- Once it waits, it can only return. -/
  waits : ∀ cs confirmed version, loop.consumer.phase = .inFeed cs f confirmed (.wait version) →
    ∀ next, Own log f loop next → next.consumer.phase.left

theorem Invariant.terminates (h : loop.Invariant log f segment total) :
    Terminates log f segment total loop := by
  refine ⟨?_, ?_, fun next hown => (h.iterating.own h.cached hown).2,
    fun _ _ _ hphase hwait => h.cached.progress hphase hwait, ?_⟩
  · cases h.iterating with
    | between _ hbudget _ => exact Nat.le_succ_of_le (Nat.le_trans (Nat.le_add_right ..) hbudget)
    | within _ hbudget _ => exact Nat.le_trans (Nat.le_add_right ..) hbudget
    | left _ hbudget => exact hbudget
  · intro cs confirmed hload hbegun
    cases h.iterating with
    | between hphase _ hadvances =>
        cases hload.symm.trans hphase
        exact hadvances hbegun
    | within hphase _ hin =>
        cases hload.symm.trans hphase
        exact hin.elim
    | left hleft _ =>
        rw [hload] at hleft
        exact hleft.elim
  · intro cs confirmed version hwaiting next hown
    obtain ⟨feed, hfeed, hsegment⟩ := h.cached
    obtain ⟨_, _, _, _, _, hmoving, hmove, -, rfl⟩ := hown.move hfeed
    cases hwaiting.symm.trans hmoving
    rw [after_consumer]
    cases hmove with
    | wake hchanged =>
        cases h.iterating with
        | between hphase _ _ => cases hmoving.symm.trans hphase
        | within hphase _ hin =>
            cases hmoving.symm.trans hphase
            exact absurd (hin.trans (congrArg Observable.version hsegment.symm)).symm hchanged
        | left hleft _ =>
            rw [hmoving] at hleft
            exact hleft.elim
    | waitClosed _ => trivial
    | waitCanceled => trivial

/-- The loop of `feed.consume`, from any checkpoint, while nothing changes around it. -/
theorem feed_consume_terminates {confirmed : Bool} {feed : Feed S}
    (hphase : loop₀.consumer.phase = .inFeed cs f confirmed .load)
    (hbegun : loop₀.iterations = 0) (hfeed : loop₀.catalog.feeds f = some feed)
    (hrun : Relation.ReflTransGen (Step log f) loop₀ loop) :
    Terminates log f feed.cache.segment
      (remaining (bound log feed.cache.segment.value) loop₀.consumer.cp confirmed) loop := by
  have hstart : loop₀.Invariant log f feed.cache.segment
      (remaining (bound log feed.cache.segment.value) loop₀.consumer.cp confirmed) := by
    refine ⟨⟨feed, hfeed, rfl⟩, .between hphase ?_ ?_⟩
    · rw [hbegun, Nat.zero_add]
    · intro hpos
      omega
  exact (run_preserves (fun _ _ h hstep => Invariant.step h hstep) hrun hstart).terminates

/-- A call that begins before the cached segment. -/
def beforeSecond : FeedLoop Unit where
  catalog := (Catalog.empty 1).setFeed 0 (secondFeed ())
  consumer := { Consumer.start (uuid 100) {uuid 2, uuid 4} 0 with phase := .inFeed 0 0 false .load }
  iterations := 0
  cp := 0
  confirmed := false

theorem feed_consume_terminates_beforeSecond :
    ∃ loop : FeedLoop Unit, Relation.ReflTransGen (Step twoEvents 0) beforeSecond loop ∧
      loop.consumer.phase = .inFeed 0 0 true .load ∧
      Advances 2 loop.cp loop.confirmed loop.consumer.cp true ∧ loop.iterations ≤ 4 := by
  have hfirst : firstSegment.Of twoEvents (some {uuid 2, uuid 4}) :=
    ⟨by decide, by decide, by decide⟩
  have hrun : Relation.ReflTransGen (Step twoEvents 0) beforeSecond beforeSecond := .refl
  have hrun : Relation.ReflTransGen (Step twoEvents 0) _ _ :=
    hrun.tail (.own (.step rfl (.load rfl rfl) nofun))
  have hrun : Relation.ReflTransGen (Step twoEvents 0) _ _ :=
    hrun.tail (.own (.step rfl (.startRead rfl rfl rfl) nofun))
  have hrun : Relation.ReflTransGen (Step twoEvents 0) _ _ :=
    hrun.tail (.own (.step rfl (@Consumer.Step.readDeliver Unit _ _ _ 0 0 false (.before 0)
      firstSegment rfl rfl rfl hfirst) (by intro reason seg h; cases h; decide)))
  have hrun : Relation.ReflTransGen (Step twoEvents 0) _ _ :=
    hrun.tail (.own (.step rfl (.readAccept rfl) nofun))
  have hrun : Relation.ReflTransGen (Step twoEvents 0) _ _ :=
    hrun.tail (.own (.step rfl (.caughtUp rfl rfl (by decide)) nofun))
  have hrun : Relation.ReflTransGen (Step twoEvents 0) _ _ :=
    hrun.tail (.own (.step rfl (.readReturn rfl rfl) nofun))
  have hmain := feed_consume_terminates rfl rfl rfl hrun
  exact ⟨_, hrun, rfl, hmain.advances 0 true rfl (by decide), hmain.iterations⟩

end FeedLoop

end Runkit.EventStream
