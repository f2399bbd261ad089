/-
  EventStream/WakeUp.lean --- no append is missed by the follower of its stream.

  A signal says only that there may be something to load, and it is dropped if the
  follower's channel already holds one.  What carries the argument is `Bus.Pending`:
  from the moment at which an append is committed until the follower receives a
  signal, a signal is in the follower's channel, on its way there, or will be sent
  when the bus listens again.  The follower loads the stream after it receives, so
  what it has loaded once it waits again is everything, or a later signal is pending.
-/
import Runkit.EventStream.Local

set_option autoImplicit false

namespace Runkit.EventStream

open Runkit.Foundation
open Runkit.Signal

variable {S W : Type}

/-! ## What the other goroutines leave to a watch -/

/-- The change of the bus leaves the watch `i` as it is, and what is pending for it. -/
structure Keeps (i : S) (b b' : Bus S) : Prop where
  subscriber : ∀ sub, b.subscribers i = some sub →
    ∃ sub', b'.subscribers i = some sub' ∧ sub'.topic = sub.topic ∧ sub'.state = sub.state
  pending : ∀ sub, b.subscribers i = some sub → sub.state = .registered →
    b.Pending i sub.topic → b'.Pending i sub.topic

theorem Keeps.refl (i : S) (b : Bus S) : Keeps i b b :=
  ⟨fun sub hsub => ⟨sub, hsub, rfl, rfl⟩, fun _ _ _ h => h⟩

theorem Keeps.notify (i : S) (b : Bus S) (topic : String) : Keeps i b (b.notify topic) :=
  ⟨fun sub hsub => ⟨sub, by rwa [Bus.notify_subscribers], rfl, rfl⟩,
    fun _ _ _ h => h.notify topic⟩

section

variable [DecidableEq S] {b b' : Bus S} {i j : S}

theorem Keeps.run (hstep : Bus.RunStep b b') : Keeps i b b' := by
  refine ⟨?_, fun sub hsub hstate h => hstep.pending hsub rfl hstate h⟩
  intro sub hsub
  cases hstep with
  | @send signal j rest sub' subtopic ch _ hsub' _ _ =>
      by_cases heq : i = j
      · subst heq
        rw [hsub] at hsub'
        cases hsub'
        exact ⟨_, Function.update_self .., rfl, rfl⟩
      · exact ⟨sub, (Function.update_of_ne heq ..).trans hsub, rfl, rfl⟩
  | _ => exact ⟨sub, hsub, rfl, rfl⟩

theorem Keeps.watch {op : Bus.WatchOp} (hstep : Bus.WatchStep j op b b') (hne : i ≠ j) :
    Keeps i b b' := by
  refine ⟨?_, fun _ _ _ h => hstep.pending hne h⟩
  intro sub hsub
  have hset : ∀ other, ∃ sub', (b.setSubscriber j other).subscribers i = some sub' ∧
      sub'.topic = sub.topic ∧ sub'.state = sub.state :=
    fun other => ⟨sub, (Function.update_of_ne hne ..).trans hsub, rfl, rfl⟩
  cases hstep <;> exact hset _

end

/-! ## One follower -/

/-- The state of the subscriber of a follower that has not been canceled. -/
def FollowerPhase.subscriberState : FollowerPhase S → Option SubscriberState
  | .subscribing _ => some .created
  | .stopping _ _ => none
  | phase => phase.watch.map fun _ => .registered

/-- The watch that the follower goes back to without loading anything else first, with
its next offset by then. -/
def Follower.reached (f : Follower S) : Option (S × Nat) :=
  match f.phase with
  | .receiving i => if f.opened then some (i, f.next) else none
  | .loaded i seg true => some (i, seg.end_)
  | .delivering i seg true => some (i, seg.end_)
  | _ => none

/-- What holds of the follower of a stream that ends at `end_`. -/
structure Follower.Watching (b : Bus S) (id : UUID) (end_ : Nat) (f : Follower S) : Prop where
  subscribed : ∀ i, f.phase.watch = some i →
    ∃ sub, b.subscribers i = some sub ∧ sub.topic = appendTopic id ∧
      (f.canceled = false → ∀ state, f.phase.subscriberState = some state → sub.state = state)
  unopened : ∀ i, f.phase = .subscribing i → f.opened = false
  loaded : ∀ i seg exhausted, f.phase = .loaded i seg exhausted →
    seg.begin = f.next ∧ seg.begin ≤ seg.end_
  caughtUp : f.canceled = false → ∀ i next, f.reached = some (i, next) →
    next = end_ ∨ b.Pending i (appendTopic id)

namespace Follower

variable {b b' : Bus S} {id : UUID} {end_ : Nat} {f f' : Follower S}

theorem Watching.start (b : Bus S) (id : UUID) (end_ : Nat) :
    (start : Follower S).Watching b id end_ where
  subscribed := by rintro i ⟨⟩
  unopened := by rintro i ⟨⟩
  loaded := by rintro i seg exhausted ⟨⟩
  caughtUp := by rintro _ i next ⟨⟩

/-- A follower that goes back to its watch is registered there. -/
theorem reached_registered {i : S} {next : Nat} (h : f.reached = some (i, next)) :
    f.phase.watch = some i ∧ f.phase.subscriberState = some .registered := by
  rw [reached] at h
  split at h
  · rename_i j hphase
    split at h
    · cases h
      rw [hphase]
      exact ⟨rfl, rfl⟩
    · cases h
  · rename_i j seg hphase
    cases h
    rw [hphase]
    exact ⟨rfl, rfl⟩
  · rename_i j seg hphase
    cases h
    rw [hphase]
    exact ⟨rfl, rfl⟩
  · cases h

theorem Watching.keep (h : f.Watching b id end_)
    (hkeeps : ∀ i, f.phase.watch = some i → Keeps i b b') : f.Watching b' id end_ where
  subscribed := by
    intro i hi
    obtain ⟨sub, hsub, htopic, hstate⟩ := h.subscribed i hi
    obtain ⟨sub', hsub', htopic', hstate'⟩ := (hkeeps i hi).subscriber sub hsub
    refine ⟨sub', hsub', htopic'.trans htopic, ?_⟩
    intro hcanceled state hphase
    rw [hstate', hstate hcanceled state hphase]
  unopened := h.unopened
  loaded := h.loaded
  caughtUp := by
    intro hcanceled i next hreached
    obtain ⟨hi, hphase⟩ := reached_registered hreached
    obtain ⟨sub, hsub, htopic, hstate⟩ := h.subscribed i hi
    refine (h.caughtUp hcanceled i next hreached).imp_right ?_
    intro hpending
    rw [← htopic] at hpending ⊢
    exact (hkeeps i hi).pending sub hsub (hstate hcanceled _ hphase) hpending

/-- Once an append has been committed, a signal is pending. -/
theorem Watching.append (h : f.Watching b id end_) (end_' : Nat) :
    f.Watching (b.notify (appendTopic id)) id end_' where
  subscribed := by rw [Bus.notify_subscribers]; exact h.subscribed
  unopened := h.unopened
  loaded := h.loaded
  caughtUp := fun _ i _ _ => Or.inr (.notify_self b i _)

/-- A follower that keeps its watch, and that does not go back to it yet. -/
theorem Watching.move (h : f.Watching b id end_) (hcanceled : f'.canceled = f.canceled)
    (hwatch : ∀ i, f'.phase.watch = some i →
      f.phase.watch = some i ∧
        ∀ state, f'.phase.subscriberState = some state → f.phase.subscriberState = some state)
    (hunopened : ∀ i, f'.phase ≠ .subscribing i)
    (hloaded : ∀ i seg exhausted, f'.phase = .loaded i seg exhausted →
      seg.begin = f'.next ∧ seg.begin ≤ seg.end_)
    (hcaughtUp : ∀ i next, f'.reached = some (i, next) →
      next = end_ ∨ f.reached = some (i, next)) : f'.Watching b id end_ where
  subscribed := by
    intro i hi
    obtain ⟨hold, hstates⟩ := hwatch i hi
    obtain ⟨sub, hsub, htopic, hstate⟩ := h.subscribed i hold
    refine ⟨sub, hsub, htopic, ?_⟩
    intro hc state hphase
    exact hstate (hcanceled ▸ hc) state (hstates state hphase)
  unopened := fun i hi => absurd hi (hunopened i)
  loaded := hloaded
  caughtUp := by
    intro hc i next hreached
    rcases hcaughtUp i next hreached with hend | hold
    · exact Or.inl hend
    · exact h.caughtUp (hcanceled ▸ hc) i next hold

/-- A follower that moves on between two phases in which its watch is the same. -/
theorem Watching.advance (h : f.Watching b id end_) (hcanceled : f'.canceled = f.canceled)
    (hwatch : f.phase.watch = f'.phase.watch)
    (hstate : f.phase.subscriberState = f'.phase.subscriberState)
    (hunopened : ∀ i, f'.phase ≠ .subscribing i)
    (hloaded : ∀ i seg exhausted, f'.phase = .loaded i seg exhausted →
      seg.begin = f'.next ∧ seg.begin ≤ seg.end_)
    (hcaughtUp : ∀ i next, f'.reached = some (i, next) →
      next = end_ ∨ f.reached = some (i, next)) : f'.Watching b id end_ := by
  refine h.move hcanceled ?_ hunopened hloaded hcaughtUp
  intro i hi
  rw [hwatch, hstate]
  exact ⟨hi, fun _ hphase => hphase⟩

/-- A follower goes on once a segment has been delivered. -/
theorem Watching.afterDelivery {i : S} {n : Nat} {e : Bool} (h : f.Watching b id end_)
    (hwatch : f.phase.watch = some i) (hstate : f.phase.subscriberState = some .registered)
    (hreached : e = true → f.reached = some (i, n)) :
    ({ f with next := n, phase := Follower.afterDelivery i e } : Follower S).Watching b id
      end_ := by
  cases e with
  | false =>
      refine h.move rfl ?_ nofun nofun nofun
      rintro j ⟨⟩
      exact ⟨hwatch, by rintro state ⟨⟩; exact hstate⟩
  | true =>
      refine h.move rfl ?_ nofun nofun ?_
      · rintro j ⟨⟩
        exact ⟨hwatch, by rintro state ⟨⟩; exact hstate⟩
      · intro j next hnext
        refine Or.inr ((hreached rfl).trans ?_)
        cases hopened : f.opened with
        | false => simp [reached, Follower.afterDelivery, hopened] at hnext
        | true => simpa [reached, Follower.afterDelivery, hopened] using hnext

/-- A follower that has just changed its own watch, and does not go back to it yet. -/
theorem Watching.own {i : S} {sub : Subscriber} (hsub : b.subscribers i = some sub)
    (htopic : sub.topic = appendTopic id) (hwatch : f.phase.watch = some i)
    (hstate : f.canceled = false → ∀ state, f.phase.subscriberState = some state →
      sub.state = state)
    (hunopened : f.opened = false ∨ ∀ j, f.phase ≠ .subscribing j)
    (hloaded : ∀ j seg exhausted, f.phase ≠ .loaded j seg exhausted)
    (hreached : f.reached = none) : f.Watching b id end_ where
  subscribed := by
    intro j hj
    rw [hwatch] at hj
    cases hj
    exact ⟨sub, hsub, htopic, hstate⟩
  unopened := fun j hj => hunopened.resolve_right fun hne => hne j hj
  loaded := fun j seg exhausted hphase => absurd hphase (hloaded j seg exhausted)
  caughtUp := by
    intro _ j next h
    rw [hreached] at h
    cases h

/-- A follower that has been canceled, or that stops its watch, is told nothing more. -/
theorem Watching.unsubscribe [DecidableEq S] {i : S} {op : Bus.WatchOp}
    (h : f.Watching b id end_) (hwatch : f.phase.watch = some i)
    (hends : f.canceled = true ∨ ∃ cause, f.phase = .stopping i cause)
    (hop : op = .delete ∨ op = .close) (hstep : Bus.WatchStep i op b b') :
    f.Watching b' id end_ where
  subscribed := by
    intro j hj
    rw [hwatch] at hj
    cases hj
    obtain ⟨sub, hsub, htopic, -⟩ := h.subscribed i hwatch
    have hstate : ∀ other : Subscriber, f.canceled = false →
        ∀ state, f.phase.subscriberState = some state → other.state = state := by
      intro other hcanceled state hphase
      rcases hends with hends | ⟨cause, hends⟩
      · rw [hcanceled] at hends
        cases hends
      · rw [hends] at hphase
        cases hphase
    cases hstep with
    | create _ _ => rcases hop with hop | hop <;> cases hop
    | register _ _ _ => rcases hop with hop | hop <;> cases hop
    | receive _ _ => rcases hop with hop | hop <;> cases hop
    | delete _ hsub' _ =>
        rw [hsub] at hsub'
        cases hsub'
        exact ⟨_, Function.update_self .., htopic, hstate _⟩
    | close hsub' _ _ =>
        rw [hsub] at hsub'
        cases hsub'
        exact ⟨_, Function.update_self .., htopic, hstate _⟩
  unopened := h.unopened
  loaded := h.loaded
  caughtUp := by
    intro hcanceled j next hreached
    rcases hends with hends | ⟨cause, hends⟩
    · rw [hcanceled] at hends
      cases hends
    · rw [reached, hends] at hreached
      cases hreached

/-- A follower without a watch. -/
theorem Watching.without (hwatch : f.phase.watch = none) : f.Watching b id end_ where
  subscribed := by
    intro i hi
    rw [hwatch] at hi
    cases hi
  unopened := by
    intro i hphase
    rw [hphase] at hwatch
    cases hwatch
  loaded := by
    intro i seg exhausted hphase
    rw [hphase] at hwatch
    cases hwatch
  caughtUp := by
    intro _ i next hreached
    rw [(reached_registered hreached).1] at hwatch
    cases hwatch

section

variable [DecidableEq S] {l l' : Local W} {stream : Option EventLog}

/-- A follower changes the bus only through its own watch. -/
theorem Step.bus (hstep : Step stream id b l f b' l' f') :
    b' = b ∨ ∃ i op, Bus.WatchStep i op b b' ∧
      (f.phase.watch = some i ∨ b.subscribers i = none) := by
  cases hstep with
  | subscribe _ _ hwatch =>
      refine Or.inr ⟨_, _, hwatch, Or.inr ?_⟩
      cases hwatch with
      | create hnew _ => exact hnew
  | register hphase hwatch => exact Or.inr ⟨_, _, hwatch, Or.inl (by rw [hphase]; rfl)⟩
  | receive hphase hwatch => exact Or.inr ⟨_, _, hwatch, Or.inl (by rw [hphase]; rfl)⟩
  | _ => exact Or.inl rfl

/-- A follower's watch is the one that it had, or a new one. -/
theorem Step.watch (hstep : Step stream id b l f b' l' f') {i : S}
    (hi : f'.phase.watch = some i) : f.phase.watch = some i ∨ b.subscribers i = none := by
  cases hstep with
  | subscribe _ _ hwatch =>
      cases hi
      cases hwatch with
      | create hnew _ => exact Or.inr hnew
  | register hphase _ => exact Or.inl (by rw [hphase]; exact hi)
  | receive hphase _ =>
      refine Or.inl ?_
      rw [hphase]
      dsimp only at hi
      split at hi <;> exact hi
  | channelClosed hphase _ _ => exact Or.inl (by rw [hphase]; exact hi)
  | loadOffset hphase _ => exact Or.inl (by rw [hphase]; exact hi)
  | announce hphase _ _ => exact Or.inl (by rw [hphase]; exact hi)
  | load hphase _ => exact Or.inl (by rw [hphase]; exact hi)
  | deliver hphase _ _ _ => exact Or.inl (by rw [hphase]; exact hi)
  | skip hphase _ =>
      refine Or.inl ?_
      rw [hphase]
      dsimp only [afterDelivery] at hi
      split at hi <;> exact hi
  | delivered hphase _ =>
      refine Or.inl ?_
      rw [hphase]
      dsimp only [afterDelivery] at hi
      split at hi <;> exact hi
  | error cause hphase => exact Or.inl (by rcases hphase with h | h <;> (rw [h]; exact hi))
  | stop _ _ _ =>
      dsimp only at hi
      split at hi <;> cases hi
  | fail _ _ _ => cases hi
  | failed _ _ => cases hi
  | cancel => exact Or.inl hi

theorem Step.watching (h : f.Watching b id end_)
    (hend : ∀ log, stream = some log → end_ = log.next)
    (hstep : Step stream id b l f b' l' f') : f'.Watching b' id end_ := by
  cases hstep with
  | subscribe _ _ hwatch =>
      cases hwatch with
      | create _ _ =>
          refine .own (Function.update_self ..) rfl rfl ?_ (Or.inl rfl) nofun rfl
          rintro - state ⟨⟩
          rfl
  | register hphase hwatch =>
      have hopened := h.unopened _ hphase
      cases hwatch with
      | @register _ sub _ hsub _ =>
          obtain ⟨sub', hsub', htopic, -⟩ := h.subscribed _ (by rw [hphase]; rfl)
          rw [hsub] at hsub'
          cases hsub'
          refine .own (Function.update_self ..) htopic rfl ?_ (Or.inl hopened) nofun ?_
          · rintro - state ⟨⟩
            rfl
          · simp [reached, hopened]
  | receive hphase hwatch =>
      cases hwatch with
      | @receive _ sub subtopic ch hsub _ =>
          obtain ⟨sub', hsub', htopic, hstate⟩ := h.subscribed _ (by rw [hphase]; rfl)
          rw [hsub] at hsub'
          cases hsub'
          rw [hphase] at hstate
          cases f.opened with
          | false =>
              exact .own (Function.update_self ..) htopic rfl hstate (Or.inr nofun) nofun rfl
          | true =>
              exact .own (Function.update_self ..) htopic rfl hstate (Or.inr nofun) nofun rfl
  | channelClosed hphase _ _ =>
      refine h.move rfl ?_ nofun nofun nofun
      rintro i ⟨⟩
      exact ⟨by rw [hphase]; rfl, nofun⟩
  | loadOffset hphase _ =>
      exact h.advance rfl (by rw [hphase]; rfl) (by rw [hphase]; rfl) nofun nofun nofun
  | announce hphase _ _ =>
      exact h.advance rfl (by rw [hphase]; rfl) (by rw [hphase]; rfl) nofun nofun nofun
  | @load _ _ i seg exhausted hphase hload =>
      obtain ⟨log, hstream, -, hbegin, hof, hexhausted, -⟩ := loadSegment_ok hload
      refine h.advance rfl (by rw [hphase]; rfl) (by rw [hphase]; rfl) nofun ?_ ?_
      · rintro j seg' exhausted' ⟨⟩
        exact ⟨hbegin, hof.ordered⟩
      · -- The segment was loaded from the stream as it is.
        intro j next hreached
        cases exhausted with
        | false => cases hreached
        | true =>
            cases hreached
            exact Or.inl ((hexhausted rfl).trans (hend log hstream).symm)
  | @deliver _ _ i seg exhausted rest hphase _ _ _ =>
      refine h.advance rfl (by rw [hphase]; rfl) (by rw [hphase]; rfl) nofun nofun ?_
      intro j next hreached
      refine Or.inr ?_
      cases exhausted with
      | false => cases hreached
      | true =>
          rw [reached, hphase]
          exact hreached
  | @skip _ _ i seg exhausted hphase hadvances =>
      obtain ⟨hbegin, hordered⟩ := h.loaded i seg exhausted hphase
      have hnext : f.next = seg.end_ := by omega
      refine h.afterDelivery (n := f.next) (by rw [hphase]; rfl) (by rw [hphase]; rfl) ?_
      rintro rfl
      rw [reached, hphase, hnext]
  | @delivered _ _ i seg exhausted hphase _ =>
      refine h.afterDelivery (by rw [hphase]; rfl) (by rw [hphase]; rfl) ?_
      rintro rfl
      rw [reached, hphase]
  | error cause hphase =>
      refine h.move rfl ?_ nofun nofun nofun
      rintro i ⟨⟩
      exact ⟨by rcases hphase with hphase | hphase <;> (rw [hphase]; rfl), nofun⟩
  | stop _ _ _ =>
      refine .without ?_
      dsimp only
      split <;> rfl
  | fail _ _ _ => exact .without rfl
  | failed _ _ => exact .without rfl
  | cancel =>
      refine ⟨?_, h.unopened, h.loaded, nofun⟩
      intro i hi
      obtain ⟨sub, hsub, htopic, -⟩ := h.subscribed i hi
      exact ⟨sub, hsub, htopic, nofun⟩

end

end Follower

/-! ## Whole runs -/

namespace LocalWorld

variable [DecidableEq S] [DecidableEq W] {s s' : LocalWorld S W}

/-- What holds in every state. -/
structure Wakes (s : LocalWorld S W) : Prop where
  bus : s.bus.Valid
  followers : ∀ id, (s.followers id).Watching s.bus id (s.log id).next
  distinct : ∀ id id' i, (s.followers id).phase.watch = some i →
    (s.followers id').phase.watch = some i → id = id'

omit [DecidableEq S] [DecidableEq W] in
theorem Wakes.start (source : Local W) : (start source : LocalWorld S W).Wakes where
  bus := .start
  followers := fun id => .start _ id _
  distinct := by rintro id id' i ⟨⟩

omit [DecidableEq S] [DecidableEq W] in
/-- The bus changes, and no follower. -/
theorem Wakes.setBus (h : s.Wakes) {b : Bus S} (hvalid : b.Valid)
    (hkeeps : ∀ id i, (s.followers id).phase.watch = some i → Keeps i s.bus b) :
    ({ s with bus := b } : LocalWorld S W).Wakes where
  bus := hvalid
  followers := fun id => (h.followers id).keep (hkeeps id)
  distinct := h.distinct

omit [DecidableEq S] [DecidableEq W] in
/-- A stream changes, and a signal is sent.  If the stream's end changes, the signal is
the one that its follower watches. -/
theorem Wakes.setStream (h : s.Wakes) {id : UUID} {log : EventLog} {topic : String}
    (hsignal : log.next = (s.log id).next ∨ topic = appendTopic id) :
    ({ s with
        streams := Function.update s.streams id (some log)
        bus := s.bus.notify topic } : LocalWorld S W).Wakes where
  bus := h.bus.notify topic
  followers := by
    intro id'
    have hkeep := (h.followers id').keep fun i _ => .notify i _ topic
    rw [LocalWorld.log]
    dsimp only
    by_cases heq : id' = id
    · subst heq
      rw [Function.update_self]
      rcases hsignal with hnext | rfl
      · rw [← hnext] at hkeep
        exact hkeep
      · exact (h.followers id').append _
    · rw [Function.update_of_ne heq]
      exact hkeep
  distinct := h.distinct

omit [DecidableEq W] in
/-- A follower takes a step.  Its watch is not that of another follower. -/
theorem Wakes.follow (h : s.Wakes) {id : UUID} {b : Bus S} {l : Local W} {f : Follower S}
    (hstep : Follower.Step (s.streams id) id s.bus s.source (s.followers id) b l f) :
    ({ s with
        bus := b
        source := l
        followers := Function.update s.followers id f } : LocalWorld S W).Wakes := by
  have hvalid : b.Valid := by
    rcases hstep.bus with rfl | ⟨i, op, hwatch, -⟩
    · exact h.bus
    · exact hwatch.valid h.bus
  have hother : ∀ id' i j, id' ≠ id → (s.followers id').phase.watch = some i →
      ((s.followers id).phase.watch = some j ∨ s.bus.subscribers j = none) → i ≠ j := by
    rintro id' i j hne hi hj rfl
    rcases hj with hj | hnone
    · exact hne (h.distinct id' id i hi hj)
    · obtain ⟨sub, hsub, -⟩ := (h.followers id').subscribed i hi
      rw [hnone] at hsub
      cases hsub
  refine ⟨hvalid, ?_, ?_⟩
  · intro id'
    dsimp only
    by_cases heq : id' = id
    · subst heq
      rw [Function.update_self]
      refine hstep.watching (h.followers id') ?_
      intro log hstream
      exact congrArg Log.next (LocalWorld.log_eq (s := s) hstream)
    · rw [Function.update_of_ne heq]
      refine (h.followers id').keep ?_
      intro i hi
      rcases hstep.bus with rfl | ⟨j, op, hwatch, hj⟩
      · exact .refl i _
      · exact .watch hwatch (hother id' i j heq hi hj)
  · intro id₁ id₂ i h₁ h₂
    dsimp only at h₁ h₂
    by_cases heq₁ : id₁ = id
    · by_cases heq₂ : id₂ = id
      · rw [heq₁, heq₂]
      · subst heq₁
        rw [Function.update_self] at h₁
        rw [Function.update_of_ne heq₂] at h₂
        exact absurd rfl (hother id₂ i i heq₂ h₂ (hstep.watch h₁))
    · rw [Function.update_of_ne heq₁] at h₁
      by_cases heq₂ : id₂ = id
      · subst heq₂
        rw [Function.update_self] at h₂
        exact absurd rfl (hother id₁ i i heq₁ h₁ (hstep.watch h₂))
      · rw [Function.update_of_ne heq₂] at h₂
        exact h.distinct id₁ id₂ i h₁ h₂

theorem Wakes.step (h : s.Wakes) (hstep : Step s s') : s'.Wakes := by
  cases hstep with
  | create hstream => exact h.setStream (Or.inl (by rw [LocalWorld.log, hstream]; rfl))
  | append _ _ => exact h.setStream (Or.inr rfl)
  | notify topic => exact h.setBus (h.bus.notify topic) fun _ i _ => .notify i _ topic
  | run hstep => exact h.setBus (hstep.valid h.bus) fun _ _ _ => .run hstep
  | watch hother hstep =>
      refine h.setBus (hstep.valid h.bus) ?_
      intro id i hi
      refine .watch hstep ?_
      rintro rfl
      exact hother id hi
  | @unsubscribe id i op b hwatch hends hop hstep =>
      refine ⟨hstep.valid h.bus, ?_, h.distinct⟩
      intro id'
      by_cases heq : id' = id
      · subst heq
        exact (h.followers id').unsubscribe hwatch hends hop hstep
      · refine (h.followers id').keep ?_
        intro j hj
        refine .watch hstep ?_
        rintro rfl
        exact heq (h.distinct id' id j hj hwatch)
  | follow hstep => exact h.follow hstep
  | source hstep => exact ⟨h.bus, h.followers, h.distinct⟩

theorem Wakes.run (h : s.Wakes) (hrun : Reaches s s') : s'.Wakes := by
  refine run_preserves ?_ hrun h
  intro s₁ s₂ h₁ hstep
  exact h₁.step hstep

end LocalWorld

/-- While the bus is listening and has woken its subscribers, a follower that waits for
a signal has loaded everything that has been committed, unless the notification of
an append is still in flight.  The bus never sends on a channel that is closed. -/
theorem no_lost_wake_up [DecidableEq S] [DecidableEq W] {source : Local W}
    {s : LocalWorld S W} (hreaches : LocalWorld.Reaches (.start source) s) :
    ¬ s.bus.Panics ∧
      ∀ id i sub, (s.followers id).phase = .receiving i → (s.followers id).opened = true →
        (s.followers id).canceled = false → s.bus.subscribers i = some sub →
        sub.subtopic.receive = .blocks → s.bus.connected = true → s.bus.phase = .waiting →
        appendTopic id ∉ s.bus.inFlight → (s.followers id).next = (s.log id).next := by
  have hwakes := (LocalWorld.Wakes.start source).run hreaches
  refine ⟨hwakes.bus.not_panics, ?_⟩
  intro id i sub hphase hopened hcanceled hsub hblocks hconnected hwaiting hflight
  have hreached : (s.followers id).reached = some (i, (s.followers id).next) := by
    rw [Follower.reached, hphase]
    simp [hopened]
  rcases (hwakes.followers id).caughtUp hcanceled i _ hreached with hnext | hpending
  · exact hnext
  · -- Nothing can be pending.
    rcases hpending with ⟨sub', hsub', hbuffer⟩ | hconnected' | hflight' | hcoming
    · rw [hsub] at hsub'
      cases hsub'
      exact absurd (Channel.receive_blocks hblocks).1 hbuffer
    · rw [hconnected] at hconnected'
      cases hconnected'
    · exact absurd hflight' hflight
    · rw [hwaiting] at hcoming
      exact hcoming.elim

theorem no_lost_wake_up_appended : ∃ s : LocalWorld Unit Unit,
    s.followers (uuid 100) = caughtUpFollower ∧ s.log (uuid 100) = twoEvents ∧
      (s.followers (uuid 100)).next = (s.log (uuid 100)).next ∧ ¬ s.bus.Panics := by
  obtain ⟨s, hreaches, hlog, hfollower, hconnected, hphase, hflight, ⟨sub, hsub, hblocks⟩, -⟩ :=
    overflowed_reached
  obtain ⟨hpanics, hnext⟩ := no_lost_wake_up hreaches
  refine ⟨s, hfollower, hlog, ?_, hpanics⟩
  refine hnext (uuid 100) () sub ?_ ?_ ?_ hsub hblocks hconnected hphase ?_
  · rw [hfollower]
    rfl
  · rw [hfollower]
    rfl
  · rw [hfollower]
    rfl
  · rw [hflight]
    exact List.not_mem_nil

end Runkit.EventStream
