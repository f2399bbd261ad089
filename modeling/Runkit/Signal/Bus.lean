/-
  Signal/Bus.lean --- the signal bus.

  Source: internal/signal/bus.go.

  Signals are PostgreSQL notifications.  `Bus.run` receives them on one connection
  and sends each of them to the subscribers of its topic; it does not wait for a
  subscriber whose channel is full.  Notifications that are committed while no
  connection is listening are lost, so `Bus.run` wakes every subscriber once it
  listens again.

  PostgreSQL is assumed to deliver, to a connection that is listening, every
  notification that is committed after LISTEN took effect (`Bus.notify`).  The
  connection can be lost at any time, with any part of what is on its way.
-/
import Runkit.Foundation.Channel
import Runkit.Foundation.Run

set_option autoImplicit false

namespace Runkit.Signal

open Runkit.Foundation

variable {S : Type}

/-! ## Topics -/

/-- `strings.CutPrefix`. -/
def cutPrefix (s front : String) : Option String :=
  if front.toList.isPrefixOf s.toList then
    some (String.ofList (s.toList.drop front.toList.length))
  else none

/-- The part of a topic that is beneath another one. -/
def subtopicOf (parent topic : String) : Option String :=
  if topic = parent then some "" else cutPrefix topic (parent ++ ".")

@[simp] theorem subtopicOf_self (topic : String) : subtopicOf topic topic = some "" := by
  simp [subtopicOf]

example : subtopicOf "a.b" "a.b.c" = some "c" ∧ subtopicOf "a.b" "a.bc" = none := by decide

/-! ## The bus -/

/-- How far `Bus.Watch`, or the function that stops the watch, has got. -/
inductive SubscriberState where
  /-- The channel has been made. -/
  | created
  /-- The subscriber is in `Bus.subscribers`. -/
  | registered
  /-- The subscriber has been deleted from `Bus.subscribers`. -/
  | deleted
  deriving DecidableEq, Repr

/-- `subscriber`. -/
structure Subscriber where
  topic : String
  subtopic : Channel String
  state : SubscriberState

/-- What is sent to the subscribers: `Bus.wake` or `Bus.dispatch`. -/
inductive Broadcast where
  | wake
  | dispatch (topic : String)
  deriving DecidableEq, Repr

/-- What a subscriber of the topic is sent. -/
def Broadcast.subtopic : Broadcast → String → Option String
  | .wake, _ => some ""
  | .dispatch topic, parent => subtopicOf parent topic

/-- Where `Bus.run` is. -/
inductive Phase (S : Type) where
  /-- It is not running, or LISTEN has not taken effect. -/
  | down
  /-- LISTEN has taken effect. -/
  | listening
  /-- It holds the mutex, with the subscribers that are still to be sent the signal. -/
  | sending (signal : Broadcast) (rest : List S)
  /-- Waiting for a notification. -/
  | waiting

/-- `Bus`, with its connection. -/
structure Bus (S : Type) where
  subscribers : S → Option Subscriber
  /-- The connection exists and is listening. -/
  connected : Bool
  /-- The notifications that are on their way. -/
  inFlight : List String
  phase : Phase S

namespace Bus

/-- Nobody has subscribed, and `Bus.Run` has not been called. -/
def start : Bus S where
  subscribers := fun _ => none
  connected := false
  inFlight := []
  phase := .down

/-- `Bus.run` holds the mutex. -/
def locked (b : Bus S) : Bool :=
  match b.phase with
  | .sending _ _ => true
  | _ => false

/-- The subscriber is in `Bus.subscribers`. -/
def Registered (b : Bus S) (i : S) : Prop :=
  ∃ sub, b.subscribers i = some sub ∧ sub.state = .registered

/-- A notification is committed. -/
def notify (b : Bus S) (topic : String) : Bus S :=
  if b.connected then { b with inFlight := b.inFlight ++ [topic] } else b

variable [DecidableEq S]

def setSubscriber (b : Bus S) (i : S) (sub : Subscriber) : Bus S :=
  { b with subscribers := Function.update b.subscribers i (some sub) }

/-- One step of `Bus.run`, or of its connection. -/
inductive RunStep : Bus S → Bus S → Prop where
  /-- LISTEN takes effect on a new connection. -/
  | listen {b : Bus S} (hphase : b.phase = .down) :
      RunStep b { b with connected := true, inFlight := [], phase := .listening }
  /-- The connection is lost. -/
  | lose {b : Bus S} (received : Nat) :
      RunStep b { b with connected := false, inFlight := b.inFlight.take received }
  /-- `WaitForNotification` returns an error. -/
  | fail {b : Bus S} (hphase : b.phase = .waiting) :
      RunStep b { b with connected := false, inFlight := [], phase := .down }
  | wake {b : Bus S} {rest : List S} (hphase : b.phase = .listening)
      (hrest : Enumerates b.Registered rest) :
      RunStep b { b with phase := .sending .wake rest }
  | dispatch {b : Bus S} {topic : String} {inFlight : List String} {rest : List S}
      (hphase : b.phase = .waiting) (hnext : b.inFlight = topic :: inFlight)
      (hrest : Enumerates b.Registered rest) :
      RunStep b { b with inFlight := inFlight, phase := .sending (.dispatch topic) rest }
  | send {b : Bus S} {signal : Broadcast} {i : S} {rest : List S} {sub : Subscriber}
      {subtopic : String} {ch : Channel String}
      (hphase : b.phase = .sending signal (i :: rest)) (hsub : b.subscribers i = some sub)
      (hsubtopic : signal.subtopic sub.topic = some subtopic)
      (hsent : sub.subtopic.trySend subtopic = .sent ch) :
      RunStep b
        { b.setSubscriber i { sub with subtopic := ch } with phase := .sending signal rest }
  /-- The subscriber's channel is full, so the signal is dropped. -/
  | drop {b : Bus S} {signal : Broadcast} {i : S} {rest : List S} {sub : Subscriber}
      {subtopic : String}
      (hphase : b.phase = .sending signal (i :: rest)) (hsub : b.subscribers i = some sub)
      (hsubtopic : signal.subtopic sub.topic = some subtopic)
      (hfull : sub.subtopic.trySend subtopic = .full) :
      RunStep b { b with phase := .sending signal rest }
  /-- The signal is not on the subscriber's topic. -/
  | skip {b : Bus S} {signal : Broadcast} {i : S} {rest : List S} {sub : Subscriber}
      (hphase : b.phase = .sending signal (i :: rest)) (hsub : b.subscribers i = some sub)
      (hsubtopic : signal.subtopic sub.topic = none) :
      RunStep b { b with phase := .sending signal rest }
  | sent {b : Bus S} {signal : Broadcast} (hphase : b.phase = .sending signal []) :
      RunStep b { b with phase := .waiting }

/-- What is done with a watch, by `Bus.Watch`, by the function that stops the watch
and by receiving from its channel. -/
inductive WatchOp where
  | create (topic : String) (capacity : Nat)
  | register
  | receive
  | delete
  | close
  deriving DecidableEq, Repr

/-- One step of the watch `i`. -/
inductive WatchStep (i : S) : WatchOp → Bus S → Bus S → Prop where
  /-- The channel is made, and holds `""`.  `Bus.Watch` panics if the capacity is not
  positive. -/
  | create {b : Bus S} {topic : String} {capacity : Nat} (hnew : b.subscribers i = none)
      (hcapacity : 0 < capacity) :
      WatchStep i (.create topic capacity) b
        (b.setSubscriber i
          { topic := topic
            subtopic := .make capacity [""] hcapacity
            state := .created })
  | register {b : Bus S} {sub : Subscriber} (hfree : b.locked = false)
      (hsub : b.subscribers i = some sub) (hstate : sub.state = .created) :
      WatchStep i .register b (b.setSubscriber i { sub with state := .registered })
  | receive {b : Bus S} {sub : Subscriber} {subtopic : String} {ch : Channel String}
      (hsub : b.subscribers i = some sub)
      (hreceive : sub.subtopic.receive = .value subtopic ch) :
      WatchStep i .receive b (b.setSubscriber i { sub with subtopic := ch })
  | delete {b : Bus S} {sub : Subscriber} (hfree : b.locked = false)
      (hsub : b.subscribers i = some sub) (hstate : sub.state = .registered) :
      WatchStep i .delete b (b.setSubscriber i { sub with state := .deleted })
  | close {b : Bus S} {sub : Subscriber} (hsub : b.subscribers i = some sub)
      (hstate : sub.state = .deleted) (hopen : sub.subtopic.closed = false) :
      WatchStep i .close b (b.setSubscriber i { sub with subtopic := sub.subtopic.close })

omit [DecidableEq S]

/-! ## Sends on closed channels -/

/-- `Bus.run` is about to send on a channel that is closed, which panics. -/
def Panics (b : Bus S) : Prop :=
  ∃ signal i rest sub subtopic, b.phase = .sending signal (i :: rest) ∧
    b.subscribers i = some sub ∧ signal.subtopic sub.topic = some subtopic ∧
    sub.subtopic.trySend subtopic = .panics

/-- Channels are closed only once their subscribers have been deleted, and no
subscriber is deleted while signals are being sent. -/
structure Valid (b : Bus S) : Prop where
  opened : ∀ i sub, b.subscribers i = some sub → sub.state ≠ .deleted →
    sub.subtopic.closed = false
  nodup : ∀ signal rest, b.phase = .sending signal rest → rest.Nodup
  members : ∀ signal rest, b.phase = .sending signal rest → ∀ i ∈ rest, b.Registered i

theorem Valid.start : (start : Bus S).Valid where
  opened := by intro i sub h; cases h
  nodup := by intro signal rest h; cases h
  members := by intro signal rest h; cases h

theorem Valid.not_panics {b : Bus S} (h : b.Valid) : ¬ b.Panics := by
  rintro ⟨signal, i, rest, sub, subtopic, hphase, hsub, -, hpanics⟩
  obtain ⟨sub', hsub', hstate⟩ := h.members signal (i :: rest) hphase i List.mem_cons_self
  rw [hsub'] at hsub
  cases hsub
  have hopen := h.opened i sub hsub' (by rw [hstate]; decide)
  rw [Channel.trySend_panics, hopen] at hpanics
  cases hpanics

theorem locked_eq_false {b : Bus S} (h : b.locked = false) {signal : Broadcast} {rest : List S} :
    b.phase ≠ .sending signal rest := by
  intro hphase
  rw [locked, hphase] at h
  cases h

@[simp] theorem notify_subscribers (b : Bus S) (topic : String) :
    (b.notify topic).subscribers = b.subscribers := by
  rw [notify]; split <;> rfl

@[simp] theorem notify_phase (b : Bus S) (topic : String) : (b.notify topic).phase = b.phase := by
  rw [notify]; split <;> rfl

@[simp] theorem notify_connected (b : Bus S) (topic : String) :
    (b.notify topic).connected = b.connected := by
  rw [notify]; split <;> rfl

theorem mem_notify_inFlight {b : Bus S} {topic other : String} (h : topic ∈ b.inFlight) :
    topic ∈ (b.notify other).inFlight := by
  rw [notify]
  split
  · exact List.mem_append_left _ h
  · exact h

theorem Valid.notify {b : Bus S} (h : b.Valid) (topic : String) : (b.notify topic).Valid where
  opened := by rw [notify_subscribers]; exact h.opened
  nodup := by rw [notify_phase]; exact h.nodup
  members := by
    rw [notify_phase]
    intro signal rest hphase i hi
    rw [Registered, notify_subscribers]
    exact h.members signal rest hphase i hi

section

variable [DecidableEq S] {b b' : Bus S}

@[simp] theorem setSubscriber_phase (i : S) (sub : Subscriber) :
    (b.setSubscriber i sub).phase = b.phase := rfl

/-- Replacing a subscriber by one that is registered if it was leaves the others
registered. -/
theorem Registered.setSubscriber {i j : S} {sub : Subscriber} (h : b.Registered j)
    (hi : b.Registered i → sub.state = .registered) : (b.setSubscriber i sub).Registered j := by
  by_cases heq : j = i
  · subst heq
    exact ⟨sub, Function.update_self .., hi h⟩
  · obtain ⟨other, hother, hstate⟩ := h
    exact ⟨other, (Function.update_of_ne heq ..).trans hother, hstate⟩

/-- Replacing a subscriber keeps `opened`. -/
theorem Valid.opened_setSubscriber (h : b.Valid) {i : S} {sub : Subscriber}
    (hopen : sub.state ≠ .deleted → sub.subtopic.closed = false) :
    ∀ j other, (b.setSubscriber i sub).subscribers j = some other → other.state ≠ .deleted →
      other.subtopic.closed = false := by
  intro j other hother
  obtain ⟨-, hnew⟩ | ⟨-, hold⟩ := update_eq_some hother
  · cases hnew
    exact hopen
  · exact h.opened j other hold

theorem RunStep.valid (h : b.Valid) (hstep : RunStep b b') : b'.Valid := by
  -- A signal is sent to the subscribers that are registered at that time.
  have hbegin : ∀ {b' : Bus S} {signal : Broadcast} {rest : List S},
      b'.subscribers = b.subscribers → b'.phase = .sending signal rest →
      Enumerates b.Registered rest → b'.Valid := by
    intro b' signal rest hsubscribers hphase hrest
    refine ⟨by rw [hsubscribers]; exact h.opened, ?_, ?_⟩
    · intro signal' rest' hphase'
      rw [hphase] at hphase'
      cases hphase'
      exact hrest.nodup
    · intro signal' rest' hphase' i hi
      rw [hphase] at hphase'
      cases hphase'
      rw [Registered, hsubscribers]
      exact (hrest.mem_iff i).mp hi
  -- Going on with the other subscribers.
  have hnext : ∀ {b' : Bus S} {signal : Broadcast} {i : S} {rest : List S},
      b.phase = .sending signal (i :: rest) → b'.phase = .sending signal rest →
      (∀ i sub, b'.subscribers i = some sub → sub.state ≠ .deleted →
        sub.subtopic.closed = false) →
      (∀ j, b.Registered j → b'.Registered j) → b'.Valid := by
    intro b' signal i rest hphase hphase' hopened hregistered
    refine ⟨hopened, ?_, ?_⟩
    · intro signal' rest' hphase''
      rw [hphase'] at hphase''
      cases hphase''
      exact (List.nodup_cons.mp (h.nodup _ _ hphase)).2
    · intro signal' rest' hphase'' j hj
      rw [hphase'] at hphase''
      cases hphase''
      exact hregistered j (h.members _ _ hphase j (List.mem_cons_of_mem _ hj))
  -- Going on without a signal.
  have hidle : ∀ {b' : Bus S}, b'.subscribers = b.subscribers →
      (∀ signal rest, b'.phase ≠ .sending signal rest) → b'.Valid := by
    intro b' hsubscribers hphase
    exact ⟨by rw [hsubscribers]; exact h.opened, fun _ _ hp => absurd hp (hphase _ _),
      fun _ _ hp => absurd hp (hphase _ _)⟩
  cases hstep with
  | listen _ => exact hidle rfl (by rintro signal rest ⟨⟩)
  | lose _ => exact ⟨h.opened, h.nodup, h.members⟩
  | fail _ => exact hidle rfl (by rintro signal rest ⟨⟩)
  | wake _ hrest => exact hbegin rfl rfl hrest
  | dispatch _ _ hrest => exact hbegin rfl rfl hrest
  | @send signal i rest sub subtopic ch hphase hsub _ hsent =>
      obtain ⟨-, hopen, -⟩ := Channel.trySend_sent hsent
      refine hnext hphase rfl (h.opened_setSubscriber fun _ => hopen) ?_
      intro j hj
      refine hj.setSubscriber ?_
      rintro ⟨sub', hsub', hstate⟩
      rw [hsub] at hsub'
      cases hsub'
      exact hstate
  | drop hphase _ _ _ => exact hnext hphase rfl h.opened fun _ hj => hj
  | skip hphase _ _ => exact hnext hphase rfl h.opened fun _ hj => hj
  | sent _ => exact hidle rfl (by rintro signal rest ⟨⟩)

theorem WatchStep.valid {i : S} {op : WatchOp} (h : b.Valid) (hstep : WatchStep i op b b') :
    b'.Valid := by
  -- A step that leaves the subscriber registered if it was.
  have hset : ∀ {sub : Subscriber}, (sub.state ≠ .deleted → sub.subtopic.closed = false) →
      (b.Registered i → sub.state = .registered) → (b.setSubscriber i sub).Valid := by
    intro sub hopen hregistered
    refine ⟨h.opened_setSubscriber hopen, h.nodup, ?_⟩
    intro signal rest hphase j hj
    exact (h.members signal rest hphase j hj).setSubscriber hregistered
  cases hstep with
  | create hnew _ =>
      refine hset (fun _ => rfl) ?_
      rintro ⟨sub, hsub, -⟩
      rw [hnew] at hsub
      cases hsub
  | @register _ sub _ hsub hstate =>
      exact hset (fun _ => h.opened i sub hsub (by rw [hstate]; decide)) fun _ => rfl
  | @receive _ sub subtopic ch hsub hreceive =>
      obtain ⟨-, hclosed⟩ := Channel.receive_value hreceive
      refine hset (fun hstate => hclosed.trans (h.opened i sub hsub hstate)) ?_
      rintro ⟨sub', hsub', hstate⟩
      rw [hsub] at hsub'
      cases hsub'
      exact hstate
  | delete hfree _ _ =>
      -- The mutex is free, so no signal is being sent.
      exact ⟨h.opened_setSubscriber fun hstate => absurd rfl hstate,
        fun _ _ hphase => absurd hphase (locked_eq_false hfree),
        fun _ _ hphase => absurd hphase (locked_eq_false hfree)⟩
  | @close _ sub hsub hstate _ =>
      refine hset (fun hne => absurd hstate hne) ?_
      rintro ⟨sub', hsub', hregistered⟩
      rw [hsub] at hsub'
      cases hsub'
      rw [hstate] at hregistered
      cases hregistered

end

/-! ## Signals that are on their way -/

/-- A subscriber of the topic, if it is registered, is still to be sent a signal that
covers everything that has been committed so far. -/
def Coming (b : Bus S) (i : S) (topic : String) : Prop :=
  b.connected = false ∨ topic ∈ b.inFlight ∨
    match b.phase with
    | .down => True
    | .listening => True
    | .sending signal rest => i ∈ rest ∧ signal.subtopic topic ≠ none
    | .waiting => False

/-- The watch has something to receive, or will have. -/
def Pending (b : Bus S) (i : S) (topic : String) : Prop :=
  (∃ sub, b.subscribers i = some sub ∧ sub.subtopic.buffer ≠ []) ∨ b.Coming i topic

/-- The notification of a topic is on its way to those who watch it. -/
theorem Pending.notify_self (b : Bus S) (i : S) (topic : String) :
    (b.notify topic).Pending i topic := by
  refine Or.inr ?_
  cases hconnected : b.connected with
  | false => exact Or.inl (by rw [notify_connected, hconnected])
  | true => exact Or.inr (Or.inl (by simp [notify, hconnected]))

theorem Pending.notify {b : Bus S} {i : S} {topic : String} (h : b.Pending i topic)
    (other : String) : (b.notify other).Pending i topic := by
  rcases h with hbuffer | hconnected | hflight | hphase
  · exact Or.inl (by rwa [notify_subscribers])
  · exact Or.inr (Or.inl (by rwa [notify_connected]))
  · exact Or.inr (Or.inr (Or.inl (mem_notify_inFlight hflight)))
  · exact Or.inr (Or.inr (Or.inr (by rwa [notify_phase])))

section

variable [DecidableEq S] {b b' : Bus S} {i : S} {topic : String}

/-- `Bus.run` drops a signal only if the subscriber has something to receive. -/
theorem RunStep.pending (hstep : RunStep b b') {sub : Subscriber}
    (hsub : b.subscribers i = some sub) (htopic : sub.topic = topic)
    (hstate : sub.state = .registered) (h : b.Pending i topic) : b'.Pending i topic := by
  have hregistered : b.Registered i := ⟨sub, hsub, hstate⟩
  cases hstep with
  | listen _ => exact Or.inr (Or.inr (Or.inr True.intro))
  | lose _ => exact Or.inr (Or.inl rfl)
  | fail _ => exact Or.inr (Or.inl rfl)
  | wake _ hrest =>
      exact Or.inr (Or.inr (Or.inr ⟨(hrest.mem_iff i).mpr hregistered, nofun⟩))
  | @dispatch topic' inFlight rest hphase hnext hrest =>
      rcases h with hbuffer | hconnected | hflight | hcoming
      · exact Or.inl hbuffer
      · exact Or.inr (Or.inl hconnected)
      · rw [hnext, List.mem_cons] at hflight
        rcases hflight with rfl | hflight
        · refine Or.inr (Or.inr (Or.inr ⟨(hrest.mem_iff i).mpr hregistered, ?_⟩))
          rw [Broadcast.subtopic, subtopicOf_self]
          nofun
        · exact Or.inr (Or.inr (Or.inl hflight))
      · rw [hphase] at hcoming
        exact hcoming.elim
  | @send signal j rest sub' subtopic ch hphase hsub' _ hsent =>
      obtain ⟨-, -, hbuffer'⟩ := Channel.trySend_sent hsent
      by_cases heq : i = j
      · subst heq
        refine Or.inl ⟨_, Function.update_self .., ?_⟩
        rw [hbuffer']
        simp
      · rcases h with ⟨other, hother, hne⟩ | hconnected | hflight | hcoming
        · exact Or.inl ⟨other, (Function.update_of_ne heq ..).trans hother, hne⟩
        · exact Or.inr (Or.inl hconnected)
        · exact Or.inr (Or.inr (Or.inl hflight))
        · rw [hphase] at hcoming
          exact Or.inr (Or.inr (Or.inr ⟨(List.mem_cons.mp hcoming.1).resolve_left heq, hcoming.2⟩))
  | @drop signal j rest sub' subtopic hphase hsub' _ hfull =>
      obtain ⟨-, hbuffer'⟩ := Channel.trySend_full hfull
      by_cases heq : i = j
      · subst heq
        exact Or.inl ⟨sub', hsub', hbuffer'⟩
      · rcases h with hbuffer | hconnected | hflight | hcoming
        · exact Or.inl hbuffer
        · exact Or.inr (Or.inl hconnected)
        · exact Or.inr (Or.inr (Or.inl hflight))
        · rw [hphase] at hcoming
          exact Or.inr (Or.inr (Or.inr ⟨(List.mem_cons.mp hcoming.1).resolve_left heq, hcoming.2⟩))
  | @skip signal j rest sub' hphase hsub' hsubtopic =>
      rcases h with hbuffer | hconnected | hflight | hcoming
      · exact Or.inl hbuffer
      · exact Or.inr (Or.inl hconnected)
      · exact Or.inr (Or.inr (Or.inl hflight))
      · rw [hphase] at hcoming
        refine Or.inr (Or.inr (Or.inr ⟨(List.mem_cons.mp hcoming.1).resolve_left ?_, hcoming.2⟩))
        -- The subscriber that is left out has another topic.
        rintro rfl
        rw [hsub'] at hsub
        cases hsub
        rw [htopic] at hsubtopic
        exact hcoming.2 hsubtopic
  | @sent signal hphase =>
      rcases h with hbuffer | hconnected | hflight | hcoming
      · exact Or.inl hbuffer
      · exact Or.inr (Or.inl hconnected)
      · exact Or.inr (Or.inr (Or.inl hflight))
      · rw [hphase] at hcoming
        cases hcoming.1

/-- What one watch does has no effect on what another one will receive. -/
theorem WatchStep.pending {j : S} {op : WatchOp} (hstep : WatchStep j op b b') (hne : i ≠ j)
    (h : b.Pending i topic) : b'.Pending i topic := by
  have hset : ∀ sub, (b.setSubscriber j sub).Pending i topic := by
    intro sub
    rcases h with ⟨other, hother, hbuffer⟩ | hcoming
    · exact Or.inl ⟨other, (Function.update_of_ne hne ..).trans hother, hbuffer⟩
    · exact Or.inr hcoming
  cases hstep <;> exact hset _

end

end Bus

end Runkit.Signal
