/-
  EventStream/FeedConsume.lean --- one call of `feed.consume`.

  Source: internal/eventstream/feed.go.

  A call of `feed.consume` is the part of a call of `Catalog.Consume` that is spent in one
  feed.  `FeedMove` says what its next step can be, phase by phase.  Around it, the cached
  segment may be moved to anywhere in the stream, the feed may be closed and the context
  may be canceled.

  The checkpoint of a call that begins within the stream never leaves it.  One that begins
  beyond its end can only read from the source, and be refused.
-/
import Runkit.EventStream.Delivery

set_option autoImplicit false

namespace Runkit.EventStream

open Runkit.Foundation

variable {S : Type}

/-! ## Moves -/

/-- What the next step of a call that is in a feed can be. -/
inductive FeedMove (log : EventLog) (c : Catalog S) (k : Consumer) (cs : StreamRef) (f : FeedRef)
    (feed : Feed S) (confirmed : Bool) : FeedPhase → Catalog S → Consumer → Prop where
  | load :
      FeedMove log c k cs f feed confirmed .load c
        { k with phase := .inFeed cs f confirmed (k.afterLoad confirmed feed.cache.segment) }
  | accept {seg : Segment} :
      FeedMove log c k cs f feed confirmed (.deliver seg) c
        (k.accept seg (.inFeed cs f true .load))
  | reject {seg : Segment} :
      FeedMove log c k cs f feed confirmed (.deliver seg) c { k with phase := .returned .rejected }
  | wake {version : Nat} (hchanged : feed.cache.segment.version ≠ version) :
      FeedMove log c k cs f feed confirmed (.wait version) c
        { k with phase := .inFeed cs f confirmed .load }
  | waitClosed {version : Nat} (hclosed : feed.closed = true) :
      FeedMove log c k cs f feed confirmed (.wait version) c { k with phase := .feedClosed cs }
  | waitCanceled {version : Nat} :
      FeedMove log c k cs f feed confirmed (.wait version) c
        { k with phase := .returned .canceled }
  | startRead {reason : ReadReason} (hopen : feed.closed = false) :
      FeedMove log c k cs f feed confirmed (.startRead reason)
        (c.setFeed f { feed with reads := feed.reads + 1 })
        { k with phase := .inFeed cs f confirmed (.reading reason) }
  | startReadClosed {reason : ReadReason} (hclosed : feed.closed = true) :
      FeedMove log c k cs f feed confirmed (.startRead reason) c
        { k with phase := .feedClosed cs }
  | readDeliver {reason : ReadReason} {seg : Segment} (hbegin : seg.begin = k.cp)
      (hseg : seg.Of log (some k.types)) :
      FeedMove log c k cs f feed confirmed (.reading reason) c
        { k with phase := .inFeed cs f confirmed (.readDeliver reason seg) }
  | readAccept {reason : ReadReason} {seg : Segment} :
      FeedMove log c k cs f feed confirmed (.readDeliver reason seg) c
        (k.accept seg (.inFeed cs f confirmed (.compare reason)))
  | readReject {reason : ReadReason} {seg : Segment} :
      FeedMove log c k cs f feed confirmed (.readDeliver reason seg)
        (c.setFeed f { feed with reads := feed.reads - 1 })
        { k with phase := .returned .rejected }
  | caughtUp {reason : ReadReason} (hreached : feed.cache.segment.value.begin ≤ k.cp) :
      FeedMove log c k cs f feed confirmed (.compare reason) c
        { k with phase := .inFeed cs f confirmed (.readReturned reason .caughtUp) }
  | behind {reason : ReadReason} (hbehind : k.cp < feed.cache.segment.value.begin) :
      FeedMove log c k cs f feed confirmed (.compare reason) c
        { k with phase := .inFeed cs f confirmed (.reading reason) }
  | readStop {reason : ReadReason} {outcome : ReadOutcome} (houtcome : outcome ≠ .caughtUp) :
      FeedMove log c k cs f feed confirmed (.reading reason) c
        { k with phase := .inFeed cs f confirmed (.readReturned reason outcome) }
  | readReturn {reason : ReadReason} {outcome : ReadOutcome} :
      FeedMove log c k cs f feed confirmed (.readReturned reason outcome)
        (c.setFeed f { feed with reads := feed.reads - 1 })
        { k with phase := k.afterSourceRead cs f feed.closed reason outcome }

section

variable {log : EventLog} {c c' : Catalog S} {k k' : Consumer} {cs : StreamRef} {f : FeedRef}
  {feed : Feed S} {confirmed : Bool} {phase : FeedPhase}

/-- Every step of a call that is in a feed is one of these moves. -/
theorem Consumer.Step.feedMove (hstep : Consumer.Step log c k c' k')
    (hphase : k.phase = .inFeed cs f confirmed phase) (hfeed : c.feeds f = some feed) :
    FeedMove log c k cs f feed confirmed phase c' k' := by
  cases hstep with
  | notFound hphase' _ _ => cases hphase.symm.trans hphase'
  | found hphase' _ _ => cases hphase.symm.trans hphase'
  | noFeed hphase' _ _ => cases hphase.symm.trans hphase'
  | unwatched hphase' _ _ _ _ => cases hphase.symm.trans hphase'
  | enter hphase' _ _ _ _ => cases hphase.symm.trans hphase'
  | again hphase' => cases hphase.symm.trans hphase'
  | canceled hphase' => cases hphase.symm.trans hphase'
  | load hphase' hfeed' =>
      cases hphase.symm.trans hphase'
      cases hfeed.symm.trans hfeed'
      exact .load
  | accept hphase' =>
      cases hphase.symm.trans hphase'
      exact .accept
  | reject hphase' =>
      cases hphase.symm.trans hphase'
      exact .reject
  | wake hphase' hfeed' hchanged =>
      cases hphase.symm.trans hphase'
      cases hfeed.symm.trans hfeed'
      exact .wake hchanged
  | waitClosed hphase' hfeed' hclosed =>
      cases hphase.symm.trans hphase'
      cases hfeed.symm.trans hfeed'
      exact .waitClosed hclosed
  | waitCanceled hphase' =>
      cases hphase.symm.trans hphase'
      exact .waitCanceled
  | startRead hphase' hfeed' hopen =>
      cases hphase.symm.trans hphase'
      cases hfeed.symm.trans hfeed'
      exact .startRead hopen
  | startReadClosed hphase' hfeed' hclosed =>
      cases hphase.symm.trans hphase'
      cases hfeed.symm.trans hfeed'
      exact .startReadClosed hclosed
  | readDeliver hphase' _ hbegin hseg =>
      cases hphase.symm.trans hphase'
      exact .readDeliver hbegin hseg
  | readAccept hphase' =>
      cases hphase.symm.trans hphase'
      exact .readAccept
  | readReject hphase' hfeed' =>
      cases hphase.symm.trans hphase'
      cases hfeed.symm.trans hfeed'
      exact .readReject
  | caughtUp hphase' hfeed' hreached =>
      cases hphase.symm.trans hphase'
      cases hfeed.symm.trans hfeed'
      exact .caughtUp hreached
  | behind hphase' hfeed' hbehind =>
      cases hphase.symm.trans hphase'
      cases hfeed.symm.trans hfeed'
      exact .behind hbehind
  | readStop hphase' houtcome =>
      cases hphase.symm.trans hphase'
      exact .readStop houtcome
  | readReturn hphase' hfeed' =>
      cases hphase.symm.trans hphase'
      cases hfeed.symm.trans hfeed'
      exact .readReturn

/-- The call itself changes no more of the feed than the number of its reads. -/
theorem FeedMove.feed_eq (h : FeedMove log c k cs f feed confirmed phase c' k')
    (hfeed : c.feeds f = some feed) :
    ∃ reads, c'.feeds f = some { feed with reads := reads } := by
  cases h with
  | startRead _ => exact ⟨_, Function.update_self ..⟩
  | readReject => exact ⟨_, Function.update_self ..⟩
  | readReturn => exact ⟨_, Function.update_self ..⟩
  | _ => exact ⟨feed.reads, hfeed⟩

/-- What `feed.consume` does with a cached segment, by where the checkpoint is. -/
theorem Consumer.afterLoad_cases (k : Consumer) (confirmed : Bool)
    (segment : Observable CacheSegment) :
    (∃ seg, k.afterLoad confirmed segment = .deliver seg ∧ k.cp < seg.end_ ∧
      seg.end_ = segment.value.end_) ∨
    (k.afterLoad confirmed segment = .startRead (.before k.cp) ∧
      k.cp < segment.value.begin) ∨
    (k.afterLoad confirmed segment = .startRead .after ∧ segment.value.end_ < k.cp ∧
      confirmed = false) ∨
    (k.afterLoad confirmed segment = .wait segment.version ∧
      ¬ (segment.value.end_ < k.cp ∧ confirmed = false)) := by
  obtain ⟨hbefore, hwithin, -⟩ := segment.value.read_relation k.cp (some k.types)
  unfold Consumer.afterLoad
  split
  · rename_i envelopes hread
    rw [hread] at hwithin
    exact Or.inl ⟨_, rfl, (hwithin.mp rfl).2, rfl⟩
  · rename_i hread
    rw [hread] at hbefore
    exact Or.inr (Or.inl ⟨rfl, hbefore.mp rfl⟩)
  · split
    · rename_i hbeyond
      exact Or.inr (Or.inr (Or.inl ⟨rfl, hbeyond⟩))
    · rename_i hbeyond
      exact Or.inr (Or.inr (Or.inr ⟨rfl, hbeyond⟩))

end

/-! ## A call and what is around it -/

/-- A call of `feed.consume`, in the catalog. -/
structure FeedCall (S : Type) where
  catalog : Catalog S
  consumer : Consumer
  /-- The context of the call has been canceled. -/
  canceled : Bool
  /-- How many times it has read from the source at an offset beyond the cached segment. -/
  beyond : Nat

/-- The cached segment does not end beyond the stream. -/
structure Feed.Behind (log : EventLog) (feed : Feed S) : Prop where
  ordered : feed.cache.segment.value.begin ≤ feed.cache.segment.value.end_
  within : feed.cache.segment.value.end_ ≤ log.next

/-- The contract of `Source.Read`, once it has delivered the stream up to the checkpoint.  It
delivers nothing from an offset beyond the end of the stream, so the checkpoint is beyond
it only if the offset was. -/
structure ReadContract (log : EventLog) (interrupted : Prop) (cp : Nat) (outcome : ReadOutcome) :
    Prop where
  ended : outcome = .ended → cp = log.next
  outOfRange : outcome = .failed .offsetOutOfRange → log.next < cp
  beyond : log.next < cp → outcome = .failed .offsetOutOfRange ∨ interrupted

/-- A source that meets its contract may refuse an offset beyond the stream. -/
theorem ReadContract.refused {log : EventLog} {interrupted : Prop} {cp : Nat}
    (hbeyond : log.next < cp) : ReadContract log interrupted cp (.failed .offsetOutOfRange) :=
  ⟨nofun, fun _ => hbeyond, fun _ => Or.inl rfl⟩

/-- Whether a step begins a read at an offset beyond the cached segment. -/
def beginsBeyond : FeedPhase → ConsumePhase → Nat
  | .startRead .after, .inFeed _ _ _ (.reading .after) => 1
  | _, _ => 0

namespace FeedCall

/-- The feed has been closed, or the context has been canceled. -/
def Interrupted (f : FeedRef) (call : FeedCall S) : Prop :=
  call.canceled = true ∨ ∃ feed, call.catalog.feeds f = some feed ∧ feed.closed = true

/-- The feed serves the call, from a cached segment that does not end beyond the stream. -/
def Served (log : EventLog) (f : FeedRef) (call : FeedCall S) : Prop :=
  ∃ feed, call.catalog.feeds f = some feed ∧ feed.Behind log

/-- A step of the call itself. -/
inductive Own (log : EventLog) (f : FeedRef) : FeedCall S → FeedCall S → Prop where
  | step {call : FeedCall S} {cs : StreamRef} {confirmed : Bool} {phase : FeedPhase}
      {catalog : Catalog S} {consumer : Consumer}
      (hphase : call.consumer.phase = .inFeed cs f confirmed phase)
      (hstep : Consumer.Step log call.catalog call.consumer catalog consumer)
      (hread : ∀ reason outcome, phase = .reading reason →
        consumer.phase = .inFeed cs f confirmed (.readReturned reason outcome) →
        ReadContract log (call.Interrupted f) call.consumer.cp outcome)
      (hcanceled : consumer.phase = .returned .canceled → call.canceled = true) :
      Own log f call
        { call with
          catalog := catalog
          consumer := consumer
          beyond := call.beyond + beginsBeyond phase consumer.phase }

/-- A step of the call, or of something around it. -/
inductive Step (log : EventLog) (f : FeedRef) : FeedCall S → FeedCall S → Prop where
  | own {call call' : FeedCall S} (hown : Own log f call call') : Step log f call call'
  /-- The catalog changes.  A feed that has been closed stays closed. -/
  | catalog {call : FeedCall S} {catalog : Catalog S} {feed feed' : Feed S}
      (hfeed : call.catalog.feeds f = some feed) (hfeed' : catalog.feeds f = some feed')
      (hbehind : feed'.Behind log) (hclosed : feed.closed = true → feed'.closed = true) :
      Step log f call { call with catalog := catalog }
  | cancel {call : FeedCall S} : Step log f call { call with canceled := true }

section

variable {log : EventLog} {f : FeedRef} {call call' : FeedCall S} {cs : StreamRef}

/-- A step of the call is a move. -/
theorem Own.move (h : Own log f call call') {feed : Feed S}
    (hfeed : call.catalog.feeds f = some feed) :
    ∃ cs confirmed phase, call.consumer.phase = .inFeed cs f confirmed phase ∧
      FeedMove log call.catalog call.consumer cs f feed confirmed phase call'.catalog
        call'.consumer ∧
      call'.canceled = call.canceled ∧
      call'.beyond = call.beyond + beginsBeyond phase call'.consumer.phase ∧
      ∀ reason outcome, phase = .reading reason →
        call'.consumer.phase = .inFeed cs f confirmed (.readReturned reason outcome) →
        ReadContract log (call.Interrupted f) call.consumer.cp outcome := by
  cases h with
  | step hphase hstep hread hcanceled =>
      exact ⟨_, _, _, hphase, hstep.feedMove hphase hfeed, rfl, rfl, hread⟩

theorem Step.served (h : Step log f call call') (hserved : call.Served log f) :
    call'.Served log f := by
  obtain ⟨feed, hfeed, hbehind⟩ := hserved
  cases h with
  | own hown =>
      obtain ⟨_, _, _, -, hmove, -⟩ := hown.move hfeed
      obtain ⟨reads, hfeed'⟩ := hmove.feed_eq hfeed
      exact ⟨_, hfeed', hbehind.ordered, hbehind.within⟩
  | catalog _ hfeed' hbehind' _ => exact ⟨_, hfeed', hbehind'⟩
  | cancel => exact ⟨feed, hfeed, hbehind⟩

theorem Step.interrupted (h : Step log f call call') (hserved : call.Served log f)
    (hinterrupted : call.Interrupted f) : call'.Interrupted f := by
  obtain ⟨feed, hfeed, -⟩ := hserved
  cases h with
  | own hown =>
      obtain ⟨_, _, _, -, hmove, hcanceled, -⟩ := hown.move hfeed
      obtain ⟨reads, hfeed'⟩ := hmove.feed_eq hfeed
      rcases hinterrupted with hctx | ⟨feed', hsame, hclosed⟩
      · exact Or.inl (hcanceled.trans hctx)
      · cases hfeed.symm.trans hsame
        exact Or.inr ⟨_, hfeed', hclosed⟩
  | catalog hfeed' hnext _ hkeeps =>
      rcases hinterrupted with hctx | ⟨feed', hsame, hclosed⟩
      · exact Or.inl hctx
      · cases hfeed'.symm.trans hsame
        exact Or.inr ⟨_, hnext, hkeeps hclosed⟩
  | cancel => exact Or.inl rfl

end

end FeedCall

/-! ## Calls that begin within the stream -/

/-- Segments that are passed to the consumer end within the stream, and nothing fails because
the checkpoint is beyond it. -/
def ConsumePhase.WithinStream (log : EventLog) : ConsumePhase → Prop
  | .inFeed _ _ _ (.deliver seg) => seg.end_ ≤ log.next
  | .inFeed _ _ _ (.readDeliver _ seg) => seg.end_ ≤ log.next
  | .inFeed _ _ _ (.readReturned _ outcome) => outcome ≠ .failed .offsetOutOfRange
  | .returned result => result ≠ .readFailed .offsetOutOfRange
  | _ => True

/-- The checkpoint is within the stream. -/
structure Consumer.WithinStream (log : EventLog) (k : Consumer) : Prop where
  cp : k.cp ≤ log.next
  phase : k.phase.WithinStream log

section

variable {log : EventLog} {c c' : Catalog S} {k k' : Consumer} {cs : StreamRef} {f : FeedRef}
  {feed : Feed S} {confirmed : Bool} {phase : FeedPhase}

theorem Consumer.afterLoad_withinStream (hbehind : feed.Behind log) :
    (ConsumePhase.inFeed cs f confirmed
      (k.afterLoad confirmed feed.cache.segment)).WithinStream log := by
  rcases k.afterLoad_cases confirmed feed.cache.segment with
    ⟨seg, hload, -, hend⟩ | ⟨hload, -⟩ | ⟨hload, -⟩ | ⟨hload, -⟩
  · rw [hload]
    exact hend.trans_le hbehind.within
  · rw [hload]
    trivial
  · rw [hload]
    trivial
  · rw [hload]
    trivial

theorem Consumer.afterSourceRead_withinStream {closed : Bool} {reason : ReadReason}
    {outcome : ReadOutcome} (houtcome : outcome ≠ .failed .offsetOutOfRange) :
    (k.afterSourceRead cs f closed reason outcome).WithinStream log := by
  rcases k.afterSourceRead_cases cs f closed reason outcome with
    ⟨hload, -⟩ | hclosed | ⟨result, hreturned, hresult⟩
  · rw [hload]
    trivial
  · rw [hclosed]
    trivial
  · rw [hreturned]
    rcases hresult with rfl | ⟨e, rfl, rfl⟩
    · nofun
    · intro hfailed
      cases hfailed
      exact houtcome rfl

theorem FeedMove.withinStream (h : FeedMove log c k cs f feed confirmed phase c' k')
    (hphase : k.phase = .inFeed cs f confirmed phase) (hbehind : feed.Behind log)
    (hcontract : ∀ reason outcome, phase = .reading reason →
      k'.phase = .inFeed cs f confirmed (.readReturned reason outcome) →
      outcome = .failed .offsetOutOfRange → log.next < k.cp)
    (hk : k.WithinStream log) : k'.WithinStream log := by
  obtain ⟨hcp, hwithin⟩ := hk
  rw [hphase] at hwithin
  cases h with
  | load => exact ⟨hcp, Consumer.afterLoad_withinStream hbehind⟩
  | accept => exact ⟨hwithin, trivial⟩
  | readDeliver hbegin hseg => exact ⟨hcp, hseg.within⟩
  | readAccept => exact ⟨hwithin, trivial⟩
  | caughtUp _ => exact ⟨hcp, nofun⟩
  | readStop houtcome =>
      refine ⟨hcp, ?_⟩
      intro hfailed
      have := hcontract _ _ rfl rfl hfailed
      omega
  | readReturn => exact ⟨hcp, Consumer.afterSourceRead_withinStream hwithin⟩
  | startRead _ => exact ⟨hcp, trivial⟩
  | startReadClosed _ => exact ⟨hcp, trivial⟩
  | behind _ => exact ⟨hcp, trivial⟩
  | wake _ => exact ⟨hcp, trivial⟩
  | waitClosed _ => exact ⟨hcp, trivial⟩
  | waitCanceled => exact ⟨hcp, nofun⟩
  | reject => exact ⟨hcp, nofun⟩
  | readReject => exact ⟨hcp, nofun⟩

/-! ## Reads beyond the cached segment -/

/-- The checkpoint is beyond the cached segment. -/
def ReadReason.beyond : ReadReason → Bool
  | .before _ => false
  | .after => true

/-- In `feed.read`, for a checkpoint beyond the cached segment. -/
def FeedPhase.readsBeyond : FeedPhase → Bool
  | .reading reason => reason.beyond
  | .readDeliver reason _ => reason.beyond
  | .compare reason => reason.beyond
  | .readReturned reason _ => reason.beyond
  | _ => false

/-- How many reads beyond the cached segment there may have been. -/
def ConsumePhase.allowance : ConsumePhase → Nat
  | .inFeed _ _ confirmed phase => if confirmed || phase.readsBeyond then 1 else 0
  | _ => 1

/-- There has been at most one read beyond the cached segment, and another one is about to
begin only if there has been none. -/
structure ReadsOnce (beyond : Nat) (phase : ConsumePhase) : Prop where
  allowed : beyond ≤ phase.allowance
  unconfirmed : ∀ cs f confirmed, phase = .inFeed cs f confirmed (.startRead .after) →
    confirmed = false

theorem ConsumePhase.allowance_le_one (phase : ConsumePhase) : phase.allowance ≤ 1 := by
  unfold ConsumePhase.allowance
  split
  · split
    · exact Nat.le_refl _
    · exact Nat.zero_le _
  · exact Nat.le_refl _

/-- Where one more read is allowed whatever has been before. -/
theorem ReadsOnce.of_one {beyond : Nat} {phase : ConsumePhase} (hbeyond : beyond ≤ 1)
    (hallowance : phase.allowance = 1)
    (hphase : ∀ cs f confirmed, phase ≠ .inFeed cs f confirmed (.startRead .after)) :
    ReadsOnce beyond phase :=
  ⟨by omega, fun cs f confirmed heq => absurd heq (hphase cs f confirmed)⟩

theorem ReadsOnce.afterSourceRead {beyond : Nat} {closed : Bool} {reason : ReadReason}
    {outcome : ReadOutcome} (hbeyond : beyond ≤ 1) :
    ReadsOnce beyond (k.afterSourceRead cs f closed reason outcome) := by
  rcases k.afterSourceRead_cases cs f closed reason outcome with
    ⟨hload, -⟩ | hclosed | ⟨result, hreturned, -⟩
  · rw [hload]
    exact .of_one hbeyond rfl nofun
  · rw [hclosed]
    exact .of_one hbeyond rfl nofun
  · rw [hreturned]
    exact .of_one hbeyond rfl nofun

theorem FeedMove.readsOnce {beyond : Nat}
    (h : FeedMove log c k cs f feed confirmed phase c' k')
    (hphase : k.phase = .inFeed cs f confirmed phase) (honce : ReadsOnce beyond k.phase) :
    ReadsOnce (beyond + beginsBeyond phase k'.phase) k'.phase := by
  have hone : beyond ≤ 1 := Nat.le_trans honce.allowed (ConsumePhase.allowance_le_one _)
  rw [hphase] at honce
  cases h with
  | load =>
      rcases k.afterLoad_cases confirmed feed.cache.segment with
        ⟨seg, hload, -⟩ | ⟨hload, -⟩ | ⟨hload, -, hconfirmed⟩ | ⟨hload, -⟩
      · rw [hload]
        exact ⟨honce.allowed, nofun⟩
      · rw [hload]
        exact ⟨honce.allowed, nofun⟩
      · rw [hload]
        refine ⟨honce.allowed, ?_⟩
        intro cs' f' confirmed' heq
        cases heq
        exact hconfirmed
      · rw [hload]
        exact ⟨honce.allowed, nofun⟩
  | @startRead reason _ =>
      cases reason with
      | before start => exact ⟨honce.allowed, nofun⟩
      | after =>
          -- The one read that is allowed begins.
          have hconfirmed := honce.unconfirmed _ _ _ rfl
          subst hconfirmed
          have hzero : beyond ≤ 0 := honce.allowed
          refine ⟨?_, nofun⟩
          change beyond + 1 ≤ 1
          omega
  | accept => exact .of_one hone rfl nofun
  | readReturn => exact ReadsOnce.afterSourceRead hone
  | readDeliver _ _ => exact ⟨honce.allowed, nofun⟩
  | readAccept => exact ⟨honce.allowed, nofun⟩
  | caughtUp _ => exact ⟨honce.allowed, nofun⟩
  | behind _ => exact ⟨honce.allowed, nofun⟩
  | readStop _ => exact ⟨honce.allowed, nofun⟩
  | wake _ => exact ⟨honce.allowed, nofun⟩
  | @startReadClosed reason _ =>
      cases reason with
      | before start => exact .of_one hone rfl nofun
      | after => exact .of_one hone rfl nofun
  | waitClosed _ => exact .of_one hone rfl nofun
  | waitCanceled => exact .of_one hone rfl nofun
  | reject => exact .of_one hone rfl nofun
  | readReject => exact .of_one hone rfl nofun

end

/-! ## Calls that begin beyond the stream -/

/-- Where a call can be whose checkpoint is beyond the stream.  It reads from the source, and
fails because the offset is out of range, unless it has been interrupted. -/
inductive Refusing (interrupted : Prop) (cs : StreamRef) (f : FeedRef) : ConsumePhase → Prop where
  | load : Refusing interrupted cs f (.inFeed cs f false .load)
  | startRead : Refusing interrupted cs f (.inFeed cs f false (.startRead .after))
  | reading : Refusing interrupted cs f (.inFeed cs f false (.reading .after))
  | failed {e : SourceError} (herror : e = .offsetOutOfRange ∨ interrupted) :
      Refusing interrupted cs f (.inFeed cs f false (.readReturned .after (.failed e)))
  | returned {e : SourceError} (herror : e = .offsetOutOfRange ∨ interrupted) :
      Refusing interrupted cs f (.returned (.readFailed e))
  | closed (hinterrupted : interrupted) : Refusing interrupted cs f (.feedClosed cs)

/-- How many steps the call takes at most from here. -/
def ConsumePhase.stage : ConsumePhase → Nat
  | .inFeed _ _ _ .load => 4
  | .inFeed _ _ _ (.startRead _) => 3
  | .inFeed _ _ _ (.reading _) => 2
  | .inFeed _ _ _ (.readReturned _ _) => 1
  | _ => 0

section

variable {log : EventLog} {c c' : Catalog S} {k k' : Consumer} {cs : StreamRef} {f : FeedRef}
  {feed : Feed S} {confirmed : Bool} {phase : FeedPhase} {interrupted interrupted' : Prop}

theorem Refusing.imp {phase : ConsumePhase} (h : Refusing interrupted cs f phase)
    (himp : interrupted → interrupted') : Refusing interrupted' cs f phase := by
  cases h with
  | load => exact .load
  | startRead => exact .startRead
  | reading => exact .reading
  | failed herror => exact .failed (herror.imp_right himp)
  | returned herror => exact .returned (herror.imp_right himp)
  | closed hinterrupted => exact .closed (himp hinterrupted)

theorem Refusing.stream_eq {cs' : StreamRef} {f' : FeedRef}
    (h : Refusing interrupted cs f (.inFeed cs' f' confirmed phase)) : cs' = cs := by
  cases h <;> rfl

theorem Refusing.segment_eq_none {cs' : StreamRef} {f' : FeedRef}
    (h : Refusing interrupted cs f (.inFeed cs' f' confirmed phase)) : phase.segment = none := by
  cases h <;> rfl

/-- A call that is not interrupted fails because the offset is out of range. -/
theorem Refusing.result {phase : ConsumePhase} (h : Refusing interrupted cs f phase)
    (hnot : ¬ interrupted) :
    (∃ confirmed inner, phase = .inFeed cs f confirmed inner) ∨
      phase = .returned (.readFailed .offsetOutOfRange) := by
  cases h with
  | load => exact Or.inl ⟨_, _, rfl⟩
  | startRead => exact Or.inl ⟨_, _, rfl⟩
  | reading => exact Or.inl ⟨_, _, rfl⟩
  | failed _ => exact Or.inl ⟨_, _, rfl⟩
  | returned herror =>
      have herror := herror.resolve_right hnot
      subst herror
      exact Or.inr rfl
  | closed hinterrupted => exact absurd hinterrupted hnot

/-- From beyond the stream, the cached segment says to read from the source. -/
theorem Consumer.afterLoad_of_beyond (hbeyond : log.next < k.cp) (hbehind : feed.Behind log) :
    k.afterLoad false feed.cache.segment = .startRead .after := by
  have hordered := hbehind.ordered
  have hwithin := hbehind.within
  rcases k.afterLoad_cases false feed.cache.segment with
    ⟨seg, -, hlt, hend⟩ | ⟨-, hlt⟩ | ⟨hload, -⟩ | ⟨-, hnot⟩
  · omega
  · omega
  · exact hload
  · exact absurd ⟨by omega, rfl⟩ hnot

/-- A step of such a call passes nothing to the consumer, and brings it closer to its
end. -/
theorem FeedMove.refusing (h : FeedMove log c k cs f feed confirmed phase c' k')
    (hphase : k.phase = .inFeed cs f confirmed phase) (hbehind : feed.Behind log)
    (hclosed : feed.closed = true → interrupted)
    (hcontract : ∀ reason outcome, phase = .reading reason →
      k'.phase = .inFeed cs f confirmed (.readReturned reason outcome) →
      ReadContract log interrupted k.cp outcome)
    (hbeyond : log.next < k.cp) (hk : Refusing interrupted cs f k.phase) :
    Refusing interrupted cs f k'.phase ∧ k'.cp = k.cp ∧ k'.accepted = k.accepted ∧
      k'.phase.stage < k.phase.stage := by
  rw [hphase] at hk ⊢
  cases hk with
  | load =>
      cases h with
      | load =>
          rw [Consumer.afterLoad_of_beyond hbeyond hbehind]
          exact ⟨.startRead, rfl, rfl, Nat.lt_succ_self _⟩
  | startRead =>
      cases h with
      | startRead _ => exact ⟨.reading, rfl, rfl, Nat.lt_succ_self _⟩
      | startReadClosed hfeed => exact ⟨.closed (hclosed hfeed), rfl, rfl, Nat.succ_pos _⟩
  | reading =>
      cases h with
      | readDeliver hbegin hseg =>
          -- The source has nothing to deliver from there.
          have hordered := hseg.ordered
          have hwithin := hseg.within
          omega
      | @readStop _ outcome houtcome =>
          have hmeets := hcontract .after outcome rfl rfl
          cases outcome with
          | caughtUp => exact absurd rfl houtcome
          | ended =>
              have := hmeets.ended rfl
              omega
          | failed e =>
              refine ⟨.failed ?_, rfl, rfl, Nat.lt_succ_self _⟩
              rcases hmeets.beyond hbeyond with hfailed | hinterrupted
              · exact Or.inl (ReadOutcome.failed.inj hfailed)
              · exact Or.inr hinterrupted
  | failed herror =>
      cases h with
      | readReturn =>
          dsimp only
          rw [Consumer.afterSourceRead]
          split
          · rename_i hfeed
            exact ⟨.closed (hclosed hfeed), rfl, rfl, Nat.succ_pos _⟩
          · exact ⟨.returned herror, rfl, rfl, Nat.succ_pos _⟩

end

namespace FeedCall

variable {log : EventLog} {f : FeedRef} {call call' call₀ : FeedCall S} {cs : StreamRef}

/-- A call that has begun, but has done nothing yet. -/
structure Begun (log : EventLog) (cs : StreamRef) (f : FeedRef) (call : FeedCall S) : Prop where
  phase : call.consumer.phase = .inFeed cs f false .load
  beyond : call.beyond = 0
  served : call.Served log f

/-- What holds in every state of a call. -/
structure Regular (log : EventLog) (f : FeedRef) (call : FeedCall S) : Prop where
  served : call.Served log f
  once : ReadsOnce call.beyond call.consumer.phase

/-- What holds in every state of a call that begins within the stream. -/
structure Within (log : EventLog) (f : FeedRef) (call : FeedCall S) : Prop where
  served : call.Served log f
  within : call.consumer.WithinStream log

/-- What holds in every state of a call that begins beyond the stream. -/
structure Refused (log : EventLog) (cs : StreamRef) (f : FeedRef) (accepted : List Segment)
    (call : FeedCall S) : Prop where
  served : call.Served log f
  beyond : log.next < call.consumer.cp
  accepted : call.consumer.accepted = accepted
  refusing : Refusing (call.Interrupted f) cs f call.consumer.phase

theorem Regular.step (h : call.Regular log f) (hstep : Step log f call call') :
    call'.Regular log f := by
  refine ⟨hstep.served h.served, ?_⟩
  obtain ⟨feed, hfeed, -⟩ := h.served
  cases hstep with
  | own hown =>
      obtain ⟨cs, confirmed, phase, hphase, hmove, -, hbeyond, -⟩ := hown.move hfeed
      rw [hbeyond]
      exact hmove.readsOnce hphase h.once
  | catalog _ _ _ _ => exact h.once
  | cancel => exact h.once

theorem Within.step (h : call.Within log f) (hstep : Step log f call call') :
    call'.Within log f := by
  refine ⟨hstep.served h.served, ?_⟩
  obtain ⟨feed, hfeed, hbehind⟩ := h.served
  cases hstep with
  | own hown =>
      obtain ⟨cs, confirmed, phase, hphase, hmove, -, -, hread⟩ := hown.move hfeed
      exact hmove.withinStream hphase hbehind
        (fun reason outcome hreading hreturned =>
          (hread reason outcome hreading hreturned).outOfRange) h.within
  | catalog _ _ _ _ => exact h.within
  | cancel => exact h.within

/-- A step of the call itself brings it closer to its end. -/
theorem Refused.own {accepted : List Segment} (h : call.Refused log cs f accepted)
    (hown : Own log f call call') :
    call'.Refused log cs f accepted ∧
      call'.consumer.phase.stage < call.consumer.phase.stage := by
  obtain ⟨feed, hfeed, hbehind⟩ := h.served
  have hstep : Step log f call call' := .own hown
  obtain ⟨cs', confirmed, phase, hphase, hmove, -, -, hread⟩ := hown.move hfeed
  have hrefusing := h.refusing
  have hcs : cs' = cs := by
    rw [hphase] at hrefusing
    exact hrefusing.stream_eq
  subst hcs
  obtain ⟨hnext, hcp, haccepted, hstage⟩ := hmove.refusing hphase hbehind
    (fun hclosed => Or.inr ⟨feed, hfeed, hclosed⟩) hread h.beyond hrefusing
  refine ⟨⟨hstep.served h.served, ?_, haccepted.trans h.accepted,
    hnext.imp (hstep.interrupted h.served)⟩, hstage⟩
  rw [hcp]
  exact h.beyond

theorem Refused.step {accepted : List Segment} (h : call.Refused log cs f accepted)
    (hstep : Step log f call call') : call'.Refused log cs f accepted := by
  cases hstep with
  | own hown => exact (h.own hown).1
  | catalog hfeed hfeed' hbehind hclosed =>
      have hstep := Step.catalog hfeed hfeed' hbehind hclosed
      exact ⟨hstep.served h.served, h.beyond, h.accepted,
        h.refusing.imp (hstep.interrupted h.served)⟩
  | cancel =>
      exact ⟨h.served, h.beyond, h.accepted, h.refusing.imp fun _ => Or.inl rfl⟩

/-- A call that has not returned can take a step. -/
theorem Refused.progress {accepted : List Segment} (h : call.Refused log cs f accepted)
    {confirmed : Bool} {phase : FeedPhase}
    (hphase : call.consumer.phase = .inFeed cs f confirmed phase) :
    ∃ call', Own log f call call' := by
  obtain ⟨feed, hfeed, -⟩ := h.served
  have hrefusing := h.refusing
  rw [hphase] at hrefusing
  cases hrefusing with
  | load => exact ⟨_, .step hphase (.load hphase hfeed) (by simp) (by simp)⟩
  | startRead =>
      cases hclosed : feed.closed with
      | true =>
          exact ⟨_, .step hphase (.startReadClosed hphase hfeed hclosed) (by simp) (by simp)⟩
      | false => exact ⟨_, .step hphase (.startRead hphase hfeed hclosed) (by simp) (by simp)⟩
  | reading =>
      have hstop : Consumer.Step log call.catalog call.consumer call.catalog
          { call.consumer with
            phase := .inFeed cs f false (.readReturned .after (.failed .offsetOutOfRange)) } :=
        .readStop hphase (by simp)
      refine ⟨_, .step hphase hstop ?_ (by simp)⟩
      rintro reason outcome - hreturned
      cases hreturned
      exact .refused h.beyond
  | failed herror =>
      refine ⟨_, .step hphase (.readReturn hphase hfeed) (by simp) ?_⟩
      dsimp only
      rw [Consumer.afterSourceRead]
      split
      · simp
      · simp

/-- What a call that began beyond the stream has done, and can do. -/
structure Refuses (log : EventLog) (f : FeedRef) (call₀ call : FeedCall S) : Prop where
  /-- Nothing is passed to the consumer. -/
  delivering : call.consumer.delivering = none
  accepted : call.consumer.accepted = call₀.consumer.accepted
  /-- It does not wait for the cached segment to change. -/
  waiting : ∀ cs confirmed version, call.consumer.phase ≠ .inFeed cs f confirmed (.wait version)
  /-- It goes on until it returns. -/
  progress : ∀ cs confirmed phase, call.consumer.phase = .inFeed cs f confirmed phase →
    ∃ next, Own log f call next
  /-- It takes only so many steps. -/
  bounded : ∀ next, Own log f call next → next.consumer.phase.stage < call.consumer.phase.stage
  /-- If it is not interrupted, then it returns that the offset is out of range. -/
  returned : ¬ call.Interrupted f →
    (∃ cs confirmed phase, call.consumer.phase = .inFeed cs f confirmed phase) ∨
      call.consumer.phase = .returned (.readFailed .offsetOutOfRange)

theorem Refused.refuses (h : call.Refused log cs f call₀.consumer.accepted) :
    Refuses log f call₀ call := by
  have hrefusing := h.refusing
  refine ⟨?_, h.accepted, ?_, ?_, fun next hown => (h.own hown).2, ?_⟩
  · rw [Consumer.delivering]
    split
    · rename_i hphase
      rw [hphase] at hrefusing
      exact hrefusing.segment_eq_none
    · exact Eq.refl none
  · intro cs' confirmed version hphase
    rw [hphase] at hrefusing
    cases hrefusing
  · intro cs' confirmed phase hphase
    have hcs : cs' = cs := by
      rw [hphase] at hrefusing
      exact hrefusing.stream_eq
    subst hcs
    exact h.progress hphase
  · intro hnot
    rcases hrefusing.result hnot with hrunning | hreturned
    · exact Or.inl ⟨cs, hrunning⟩
    · exact Or.inr hreturned

/-- One call of `feed.consume`, from any offset and over any cached segments that do not end
beyond the stream. -/
theorem feed_consume_range (hbegun : call₀.Begun log cs f)
    (hrun : Relation.ReflTransGen (Step log f) call₀ call) :
    (log.next < call₀.consumer.cp → Refuses log f call₀ call) ∧
      (call₀.consumer.cp ≤ log.next →
        call.consumer.phase ≠ .returned (.readFailed .offsetOutOfRange)) ∧
      call.beyond ≤ 1 := by
  have hserved := hbegun.served
  refine ⟨?_, ?_, ?_⟩
  · intro hbeyond
    have hstart : call₀.Refused log cs f call₀.consumer.accepted := by
      refine ⟨hserved, hbeyond, rfl, ?_⟩
      rw [hbegun.phase]
      exact .load
    have hrefused := run_preserves (fun _ _ h hstep => Refused.step h hstep) hrun hstart
    exact hrefused.refuses
  · intro hwithin
    have hstart : call₀.Within log f := by
      refine ⟨hserved, hwithin, ?_⟩
      rw [hbegun.phase]
      trivial
    have hwithin := run_preserves (fun _ _ h hstep => Within.step h hstep) hrun hstart
    intro hphase
    have hreturned := hwithin.within.phase
    rw [hphase] at hreturned
    exact hreturned rfl
  · have hstart : call₀.Regular log f := by
      refine ⟨hserved, ?_⟩
      rw [hbegun.phase, hbegun.beyond]
      exact ⟨Nat.le_refl 0, nofun⟩
    have hregular := run_preserves (fun _ _ h hstep => Regular.step h hstep) hrun hstart
    exact Nat.le_trans hregular.once.allowed (ConsumePhase.allowance_le_one _)

/-- A call that begins beyond two events, of which the second is cached. -/
def pastTwoEvents : FeedCall Unit where
  catalog := (Catalog.empty 1).setFeed 0 (secondFeed ())
  consumer := { Consumer.start (uuid 100) {uuid 2, uuid 4} 3 with phase := .inFeed 0 0 false .load }
  canceled := false
  beyond := 0

theorem pastTwoEvents_begun : pastTwoEvents.Begun twoEvents 0 0 :=
  ⟨rfl, rfl, secondFeed (), rfl, by decide, by decide⟩

theorem feed_consume_range_pastTwoEvents :
    ∃ call : FeedCall Unit, Relation.ReflTransGen (Step twoEvents 0) pastTwoEvents call ∧
      call.consumer.phase = .returned (.readFailed .offsetOutOfRange) ∧
      Refuses twoEvents 0 pastTwoEvents call ∧ call.beyond ≤ 1 := by
  have hrefused : ∀ reason outcome, FeedPhase.reading .after = .reading reason →
      ConsumePhase.inFeed 0 0 false (.readReturned .after (.failed .offsetOutOfRange)) =
        .inFeed 0 0 false (.readReturned reason outcome) →
      ∀ interrupted, ReadContract twoEvents interrupted 3 outcome := by
    intro reason outcome _ hreturned interrupted
    cases hreturned
    exact .refused (by decide)
  have hrun : Relation.ReflTransGen (Step twoEvents 0) pastTwoEvents pastTwoEvents := .refl
  have hrun : Relation.ReflTransGen (Step twoEvents 0) _ _ :=
    hrun.tail (.own (.step rfl (.load rfl rfl) nofun nofun))
  have hrun : Relation.ReflTransGen (Step twoEvents 0) _ _ :=
    hrun.tail (.own (.step rfl (.startRead rfl rfl rfl) nofun nofun))
  have hrun : Relation.ReflTransGen (Step twoEvents 0) _ _ :=
    hrun.tail (.own (.step rfl (@Consumer.Step.readStop Unit _ _ _ _ _ _ _
      (.failed .offsetOutOfRange) rfl nofun)
      (fun reason outcome hreading hreturned => hrefused reason outcome hreading hreturned _)
      nofun))
  have hrun : Relation.ReflTransGen (Step twoEvents 0) _ _ :=
    hrun.tail (.own (.step rfl (.readReturn rfl rfl) nofun nofun))
  have hmain := feed_consume_range pastTwoEvents_begun hrun
  exact ⟨_, hrun, rfl, hmain.1 (by decide), hmain.2.2⟩

end FeedCall

end Runkit.EventStream
