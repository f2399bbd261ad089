/-
  Cluster/Heartbeats.lean --- how a node keeps its view of the live nodes.

  Source: internal/cluster/node.go.

  `Node.Run` reads heartbeats from a channel, one at a time or, on a tick, all that are
  waiting; on a tick it also removes the nodes it has not heard of for too long.  Signals
  may arrive, and the channel may be closed, between any two steps.

  Beside the variables of the node, the state holds what has happened so far: which
  signals have arrived, which heartbeats have been read and when, and how often the set
  of live nodes has changed.  The node's map is a function of the heartbeats that have
  been read (`Timely`), and the membership that it has published last is that of the map
  unless it is about to publish another one (`Published`).
-/
import Runkit.Cluster.Membership
import Runkit.Foundation.Channel
import Runkit.Foundation.Run

set_option autoImplicit false

namespace Runkit.Cluster

open Runkit.Foundation

/-! ## The node -/

/-- `Node`.  `Node.Run` panics unless the interval is positive and shorter than the
timeout. -/
structure Node where
  id : UUID
  interval : Time
  timeout : Time
  positive : 0 < interval
  longer : interval < timeout

/-- The map from nodes to the times at which their last heartbeats were read. -/
abbrev Heartbeats := List (UUID × Time)

namespace Heartbeats

def has (beats : Heartbeats) (id : UUID) : Bool := beats.any fun beat => decide (beat.1 = id)

def set (beats : Heartbeats) (id : UUID) (now : Time) : Heartbeats :=
  if beats.has id then beats.map fun beat => if beat.1 = id then (id, now) else beat
  else beats ++ [(id, now)]

def keys (beats : Heartbeats) : List UUID := beats.map Prod.fst

theorem has_iff {beats : Heartbeats} {id : UUID} :
    beats.has id = true ↔ ∃ at_, (id, at_) ∈ beats := by
  simp [has]

theorem mem_keys {beats : Heartbeats} {id : UUID} :
    id ∈ beats.keys ↔ ∃ at_, (id, at_) ∈ beats := by
  simp [keys]

theorem mem_set {beats : Heartbeats} {id : UUID} {now : Time} {beat : UUID × Time} :
    beat ∈ beats.set id now ↔ beat = (id, now) ∨ (beat.1 ≠ id ∧ beat ∈ beats) := by
  unfold set
  split
  · rename_i hhas
    obtain ⟨at_, hat⟩ := has_iff.mp hhas
    rw [List.mem_map]
    constructor
    · rintro ⟨other, hother, rfl⟩
      split
      · exact Or.inl rfl
      · rename_i hne
        exact Or.inr ⟨hne, hother⟩
    · rintro (rfl | ⟨hne, hmem⟩)
      · exact ⟨_, hat, if_pos rfl⟩
      · exact ⟨beat, hmem, if_neg hne⟩
  · rename_i hhas
    rw [List.mem_append, List.mem_singleton]
    constructor
    · rintro (hmem | rfl)
      · refine Or.inr ⟨?_, hmem⟩
        rintro rfl
        exact hhas (has_iff.mpr ⟨beat.2, hmem⟩)
      · exact Or.inl rfl
    · rintro (rfl | ⟨-, hmem⟩)
      · exact Or.inr rfl
      · exact Or.inl hmem

theorem mem_keys_set {beats : Heartbeats} {id other : UUID} {now : Time} :
    other ∈ (beats.set id now).keys ↔ other = id ∨ other ∈ beats.keys := by
  rw [mem_keys, mem_keys]
  constructor
  · rintro ⟨at_, hat⟩
    rcases mem_set.mp hat with hbeat | ⟨-, hmem⟩
    · exact Or.inl (congrArg Prod.fst hbeat)
    · exact Or.inr ⟨at_, hmem⟩
  · rintro (rfl | ⟨at_, hat⟩)
    · exact ⟨now, mem_set.mpr (Or.inl rfl)⟩
    · by_cases heq : other = id
      · exact ⟨now, mem_set.mpr (Or.inl (by rw [heq]))⟩
      · exact ⟨at_, mem_set.mpr (Or.inr ⟨heq, hat⟩)⟩

end Heartbeats

/-- Where `Node.Run` is. -/
inductive NodePhase where
  /-- At the `select`. -/
  | select
  /-- In `drainHeartbeats`, on a tick.  The set of live nodes may have changed. -/
  | draining (changed : Bool)
  /-- About to call `expireNodes`. -/
  | expiring (changed : Bool)
  | returned
  deriving DecidableEq, Repr

/-- The set of live nodes has changed, and the change has not been published. -/
def NodePhase.changed : NodePhase → Bool
  | .select => false
  | .draining changed => changed
  | .expiring changed => changed
  | .returned => false

structure NodeState where
  phase : NodePhase
  /-- The channel of signals on the heartbeat topic.  Each signal is what its topic has
  beneath that one. -/
  channel : Channel String
  heartbeats : Heartbeats
  /-- It is nil until it is published for the first time. -/
  membership : Option Membership
  /-- The last reading of the clock. -/
  now : Time
  /-- How many heartbeats the node has sent. -/
  sent : Nat
  /-- The signals that have been put into the channel. -/
  arrived : List String
  /-- The signals that have been received from it. -/
  taken : List String
  /-- The signals that had arrived when the last tick began. -/
  atTick : List String
  /-- The heartbeats that have been read, and when. -/
  reads : List (UUID × Time)
  /-- How many times a node has been added to the map, or removed from it. -/
  changes : Nat
  /-- How many memberships have been published, and the number of changes at the last
  one. -/
  stores : Nat
  changesAtStore : Nat

/-- The membership of a node that has stopped. -/
def stoppedMembership : Membership where
  nodeID := uuid 0
  isLive := false
  peers := []
  others := nofun

namespace NodeState

variable (node : Node) (parse : String → Option UUID)

/-- `Node.sendHeartbeat`.  The node does nothing about a heartbeat that can not be sent. -/
def sendHeartbeat (st : NodeState) : NodeState := { st with sent := st.sent + 1 }

/-- `membership.Store`. -/
def store (st : NodeState) (m : Membership) : NodeState :=
  { st with
    membership := some m
    stores := st.stores + 1
    changesAtStore := st.changes }

/-- `Node.publishMembershipChange`. -/
def publish (st : NodeState) : NodeState :=
  st.store (publishMembershipChange node.id st.heartbeats.keys)

/-- The heartbeat of the node is recorded. -/
def record (st : NodeState) (id : UUID) (now : Time) : NodeState :=
  { st with
    heartbeats := st.heartbeats.set id now
    now := now
    reads := st.reads ++ [(id, now)]
    changes := if st.heartbeats.has id then st.changes else st.changes + 1 }

/-- `Node.recordHeartbeat`, with `changed` and `joined`. -/
def recordHeartbeat (st : NodeState) (id : String) (now : Time) : NodeState × Bool × Bool :=
  match parse id with
  | none => (st, false, false)
  | some nodeID =>
      if st.heartbeats.has nodeID then (st.record nodeID now, false, false)
      else (st.record nodeID now, true, decide (nodeID ≠ node.id))

/-- `Node.handleHeartbeat`. -/
def handleHeartbeat (st : NodeState) (nodeID : String) (now : Time) : NodeState × Bool :=
  if nodeID = "" then (st, false)
  else
    let (st, changed, joined) := recordHeartbeat node parse st nodeID now
    (if joined then st.sendHeartbeat else st, changed)

/-- `Node.expireNodes`. -/
def expireNodes (st : NodeState) (now : Time) : NodeState × Bool :=
  let expired := st.heartbeats.filter fun beat => decide (node.timeout < now - beat.2)
  ({ st with
      heartbeats := st.heartbeats.filter fun beat => decide (now - beat.2 ≤ node.timeout)
      now := now
      changes := st.changes + expired.length }, !expired.isEmpty)

/-- A signal has been received. -/
def took (st : NodeState) (signal : String) (channel : Channel String) : NodeState :=
  { st with
    channel := channel
    taken := st.taken ++ [signal] }

/-- The `select` receives a signal. -/
def onSignal (st : NodeState) (signal : String) (channel : Channel String) (now : Time) :
    NodeState :=
  let (st, changed) := handleHeartbeat node parse (st.took signal channel) signal now
  if changed then st.publish node else st

/-- `drainHeartbeats` receives a signal. -/
def onDrain (st : NodeState) (changed : Bool) (signal : String) (channel : Channel String)
    (now : Time) : NodeState :=
  let (st, changed') := handleHeartbeat node parse (st.took signal channel) signal now
  { st with phase := .draining (changed || changed') }

/-- The rest of a tick, once no more signals are waiting. -/
def onExpire (st : NodeState) (changed : Bool) (now : Time) : NodeState :=
  let (st, changed') := expireNodes node st now
  let st := { st with phase := .select }
  if changed || changed' then st.publish node else st

/-- `Node.Run` returns. -/
def stop (st : NodeState) : NodeState := { st.store stoppedMembership with phase := .returned }

end NodeState

/-- The steps of `Node.Run`, and what happens around it. -/
inductive NodeStep (node : Node) (parse : String → Option UUID) : NodeState → NodeState → Prop where
  /-- A signal arrives.  If the channel is full, it is dropped. -/
  | signal {st : NodeState} {signal : String} {channel : Channel String}
      (hsend : st.channel.trySend signal = .sent channel) :
      NodeStep node parse st
        { st with channel := channel, arrived := st.arrived ++ [signal] }
  | close {st : NodeState} : NodeStep node parse st { st with channel := st.channel.close }
  | heartbeat {st : NodeState} {signal : String} {channel : Channel String} {now : Time}
      (hphase : st.phase = .select) (hreceive : st.channel.receive = .value signal channel)
      (hnow : st.now ≤ now) :
      NodeStep node parse st (st.onSignal node parse signal channel now)
  | tick {st : NodeState} (hphase : st.phase = .select) :
      NodeStep node parse st
        { st.sendHeartbeat with phase := .draining false, atTick := st.arrived }
  | drain {st : NodeState} {changed : Bool} {signal : String} {channel : Channel String}
      {now : Time} (hphase : st.phase = .draining changed)
      (hreceive : st.channel.receive = .value signal channel) (hnow : st.now ≤ now) :
      NodeStep node parse st (st.onDrain node parse changed signal channel now)
  /-- No signal is waiting. -/
  | drained {st : NodeState} {changed : Bool} (hphase : st.phase = .draining changed)
      (hreceive : st.channel.receive = .blocks) :
      NodeStep node parse st { st with phase := .expiring changed }
  | expire {st : NodeState} {changed : Bool} {now : Time} (hphase : st.phase = .expiring changed)
      (hnow : st.now ≤ now) :
      NodeStep node parse st (st.onExpire node changed now)
  /-- The context is canceled. -/
  | canceled {st : NodeState} (hphase : st.phase = .select) : NodeStep node parse st st.stop
  /-- The channel is closed. -/
  | closed {st : NodeState} (hphase : st.phase = .select ∨ ∃ changed, st.phase = .draining changed)
      (hreceive : st.channel.receive = .closed) : NodeStep node parse st st.stop

/-- The state of the node when `Node.Run` gets to the `select` for the first time. -/
def NodeState.start (channel : Channel String) (now : Time) : NodeState where
  phase := .select
  channel := channel
  heartbeats := []
  membership := none
  now := now
  sent := 1
  arrived := channel.buffer
  taken := []
  atTick := []
  reads := []
  changes := 0
  stores := 0
  changesAtStore := 0

/-- The state is reached in some run of the node. -/
def NodeState.Reached (node : Node) (parse : String → Option UUID) (st : NodeState) : Prop :=
  ∃ channel now, Relation.ReflTransGen (NodeStep node parse) (.start channel now) st

/-! ## The map and the heartbeats -/

/-- The node whose heartbeat a signal is. -/
def heartbeatOf (parse : String → Option UUID) (signal : String) : Option UUID :=
  if signal = "" then none else parse signal

section

variable {node : Node} {parse : String → Option UUID} {st st' : NodeState}

theorem handleHeartbeat_of_none {signal : String} {now : Time}
    (h : heartbeatOf parse signal = none) :
    st.handleHeartbeat node parse signal now = (st, false) := by
  unfold heartbeatOf at h
  unfold NodeState.handleHeartbeat
  split
  · rfl
  · rename_i hne
    rw [if_neg hne] at h
    rw [NodeState.recordHeartbeat, h]
    rfl

theorem handleHeartbeat_of_some (node : Node) (st : NodeState) (now : Time) {signal : String}
    {id : UUID} (h : heartbeatOf parse signal = some id) :
    ∃ sent, st.handleHeartbeat node parse signal now =
      ({ st.record id now with sent := sent }, !st.heartbeats.has id) := by
  unfold heartbeatOf at h
  unfold NodeState.handleHeartbeat
  split at h
  · cases h
  · rename_i hne
    rw [if_neg hne, NodeState.recordHeartbeat, h]
    dsimp only
    cases hhas : st.heartbeats.has id with
    | true => exact ⟨_, rfl⟩
    | false =>
        cases hjoined : decide (id ≠ node.id) with
        | true => exact ⟨_, rfl⟩
        | false => exact ⟨_, rfl⟩

/-- The map holds the last heartbeat of each node that has been read, except for those
that were read too long ago. -/
structure NodeState.Timely (node : Node) (parse : String → Option UUID) (st : NodeState) :
    Prop where
  reads : st.reads.map Prod.fst = st.taken.filterMap (heartbeatOf parse)
  past : ∀ beat ∈ st.reads, beat.2 ≤ st.now
  read : ∀ beat ∈ st.heartbeats, beat ∈ st.reads
  latest : ∀ beat ∈ st.heartbeats, ∀ beat' ∈ st.reads, beat'.1 = beat.1 → beat'.2 ≤ beat.2
  kept : ∀ beat ∈ st.reads, beat.1 ∈ st.heartbeats.keys ∨ node.timeout < st.now - beat.2

namespace NodeState

theorem Timely.handleHeartbeat (h : st.Timely node parse) (signal : String)
    (channel : Channel String) {now : Time} (hnow : st.now ≤ now) :
    ((st.took signal channel).handleHeartbeat node parse signal now).1.Timely node parse := by
  cases hbeat : heartbeatOf parse signal with
  | none =>
      rw [handleHeartbeat_of_none hbeat]
      refine ⟨?_, h.past, h.read, h.latest, h.kept⟩
      change st.reads.map Prod.fst = (st.taken ++ [signal]).filterMap (heartbeatOf parse)
      rw [List.filterMap_append, ← h.reads]
      simp [hbeat]
  | some id =>
      obtain ⟨sent, hhandle⟩ :=
        handleHeartbeat_of_some node (st.took signal channel) now hbeat
      rw [hhandle]
      refine ⟨?_, ?_, ?_, ?_, ?_⟩
      · change (st.reads ++ [(id, now)]).map Prod.fst =
          (st.taken ++ [signal]).filterMap (heartbeatOf parse)
        rw [List.filterMap_append, ← h.reads]
        simp [hbeat]
      · intro beat hmem
        rcases List.mem_append.mp hmem with hmem | hmem
        · exact Int.le_trans (h.past beat hmem) hnow
        · rw [List.mem_singleton.mp hmem]
          exact Int.le_refl now
      · intro beat hmem
        rcases Heartbeats.mem_set.mp hmem with rfl | ⟨-, hmem⟩
        · exact List.mem_append_right _ (List.mem_singleton.mpr rfl)
        · exact List.mem_append_left _ (h.read beat hmem)
      · intro beat hmem beat' hread hid
        rcases Heartbeats.mem_set.mp hmem with rfl | ⟨hne, hmem⟩
        · rcases List.mem_append.mp hread with hread | hread
          · exact Int.le_trans (h.past beat' hread) hnow
          · rw [List.mem_singleton.mp hread]
        · rcases List.mem_append.mp hread with hread | hread
          · exact h.latest beat hmem beat' hread hid
          · rw [List.mem_singleton.mp hread] at hid
            exact absurd hid.symm hne
      · intro beat hread
        change beat.1 ∈ (st.heartbeats.set id now).keys ∨ node.timeout < now - beat.2
        rw [Heartbeats.mem_keys_set]
        rcases List.mem_append.mp hread with hread | hread
        · rcases h.kept beat hread with hkey | hold
          · exact Or.inl (Or.inr hkey)
          · exact Or.inr (lt_of_lt_of_le hold (Int.sub_le_sub_right hnow _))
        · rw [List.mem_singleton.mp hread]
          exact Or.inl (Or.inl rfl)

/-- After `expireNodes`, the map holds the nodes of which a heartbeat was read within the
timeout. -/
theorem Timely.mem_expireNodes (h : st.Timely node parse) {now : Time} (hnow : st.now ≤ now)
    {id : UUID} :
    id ∈ (st.expireNodes node now).1.heartbeats.keys ↔
      ∃ at_, (id, at_) ∈ st.reads ∧ now - at_ ≤ node.timeout := by
  change id ∈ Heartbeats.keys (st.heartbeats.filter fun beat =>
    decide (now - beat.2 ≤ node.timeout)) ↔ _
  rw [Heartbeats.mem_keys]
  constructor
  · rintro ⟨at_, hat⟩
    rw [List.mem_filter, decide_eq_true_eq] at hat
    exact ⟨at_, h.read _ hat.1, hat.2⟩
  · rintro ⟨at_, hread, hrecent⟩
    rcases h.kept _ hread with hkey | hold
    · -- What is in the map is a later heartbeat, or this one.
      obtain ⟨last, hlast⟩ := Heartbeats.mem_keys.mp hkey
      have hle := h.latest _ hlast _ hread rfl
      refine ⟨last, ?_⟩
      rw [List.mem_filter, decide_eq_true_eq]
      exact ⟨hlast, Int.le_trans (Int.sub_le_sub_left hle now) hrecent⟩
    · have hexpired := lt_of_lt_of_le hold (Int.sub_le_sub_right hnow at_)
      exact absurd hrecent (Int.not_le.mpr hexpired)

theorem Timely.expireNodes (h : st.Timely node parse) {now : Time} (hnow : st.now ≤ now) :
    (st.expireNodes node now).1.Timely node parse where
  reads := h.reads
  past := fun beat hread => Int.le_trans (h.past beat hread) hnow
  read := fun beat hmem => h.read beat (List.mem_of_mem_filter hmem)
  latest := fun beat hmem => h.latest beat (List.mem_of_mem_filter hmem)
  kept := by
    intro beat hread
    rw [h.mem_expireNodes hnow]
    by_cases hrecent : now - beat.2 ≤ node.timeout
    · exact Or.inl ⟨beat.2, hread, hrecent⟩
    · exact Or.inr (Int.not_le.mp hrecent)

end NodeState

/-! ## The map and the membership -/

/-- What handling heartbeats or expiring nodes does, given whether it reports that the set
of live nodes has changed. -/
structure Updates (st st' : NodeState) (changed : Bool) : Prop where
  phase : st'.phase = st.phase
  channel : st'.channel = st.channel
  membership : st'.membership = st.membership
  arrived : st'.arrived = st.arrived
  taken : st'.taken = st.taken
  atTick : st'.atTick = st.atTick
  stores : st'.stores = st.stores
  changesAtStore : st'.changesAtStore = st.changesAtStore
  same : changed = false → st'.changes = st.changes ∧
    ∀ id, id ∈ st'.heartbeats.keys ↔ id ∈ st.heartbeats.keys
  more : changed = true → st.changes < st'.changes ∧
    ∃ id, ¬ (id ∈ st'.heartbeats.keys ↔ id ∈ st.heartbeats.keys)

theorem Updates.with_phase {changed : Bool} {phase : NodePhase} (h : Updates st st' changed)
    (hphase : st.phase = phase) : { st' with phase := phase } = st' := by
  rw [← hphase, ← h.phase]

theorem Updates.changes_iff {changed : Bool} (h : Updates st st' changed) :
    st'.changes = st.changes ↔ ∀ id, id ∈ st'.heartbeats.keys ↔ id ∈ st.heartbeats.keys := by
  cases changed with
  | true =>
      obtain ⟨hlt, id, hid⟩ := h.more rfl
      exact ⟨fun heq => absurd heq (Nat.ne_of_gt hlt), fun hkeys => absurd (hkeys id) hid⟩
  | false => exact ⟨fun _ => (h.same rfl).2, fun _ => (h.same rfl).1⟩

theorem handleHeartbeat_updates (node : Node) (parse : String → Option UUID) (st : NodeState)
    (signal : String) (now : Time) :
    Updates st (st.handleHeartbeat node parse signal now).1
      (st.handleHeartbeat node parse signal now).2 := by
  cases hbeat : heartbeatOf parse signal with
  | none =>
      rw [handleHeartbeat_of_none hbeat]
      exact ⟨rfl, rfl, rfl, rfl, rfl, rfl, rfl, rfl, fun _ => ⟨rfl, fun _ => Iff.rfl⟩, nofun⟩
  | some id =>
      obtain ⟨sent, hhandle⟩ := handleHeartbeat_of_some node st now hbeat
      rw [hhandle]
      refine ⟨rfl, rfl, rfl, rfl, rfl, rfl, rfl, rfl, ?_, ?_⟩
      · intro hsame
        have hhas : st.heartbeats.has id = true := by simpa using hsame
        refine ⟨if_pos hhas, ?_⟩
        intro other
        change other ∈ (st.heartbeats.set id now).keys ↔ _
        rw [Heartbeats.mem_keys_set, or_iff_right_iff_imp]
        rintro rfl
        exact Heartbeats.mem_keys.mpr (Heartbeats.has_iff.mp hhas)
      · intro hmore
        have hhas : st.heartbeats.has id = false := by simpa using hmore
        have hnew : id ∉ st.heartbeats.keys := by
          rw [Heartbeats.mem_keys, ← Heartbeats.has_iff, hhas]
          decide
        refine ⟨?_, id, ?_⟩
        · change st.changes < if st.heartbeats.has id then st.changes else st.changes + 1
          rw [hhas]
          exact Nat.lt_succ_self _
        · intro hiff
          exact hnew (hiff.mp (Heartbeats.mem_keys_set.mpr (Or.inl rfl)))

theorem NodeState.Timely.expireNodes_updates (h : st.Timely node parse) (now : Time) :
    Updates st (st.expireNodes node now).1 (st.expireNodes node now).2 := by
  refine ⟨rfl, rfl, rfl, rfl, rfl, rfl, rfl, rfl, ?_, ?_⟩
  · intro hsame
    have hexpired : (st.heartbeats.filter fun beat => decide (node.timeout < now - beat.2)) =
        [] := by
      simpa [NodeState.expireNodes] using hsame
    refine ⟨?_, ?_⟩
    · change st.changes + List.length _ = st.changes
      rw [hexpired]
      rfl
    · have hall : (st.heartbeats.filter fun beat => decide (now - beat.2 ≤ node.timeout)) =
          st.heartbeats := by
        refine List.filter_eq_self.mpr ?_
        intro beat hmem
        have hnot := List.filter_eq_nil_iff.mp hexpired beat hmem
        rw [decide_eq_true_eq] at hnot ⊢
        exact Int.not_lt.mp hnot
      intro id
      change id ∈ Heartbeats.keys (List.filter _ _) ↔ _
      rw [hall]
  · intro hmore
    have hexpired : (st.heartbeats.filter fun beat => decide (node.timeout < now - beat.2)) ≠
        [] := by
      simpa [NodeState.expireNodes] using hmore
    refine ⟨?_, ?_⟩
    · have := List.length_pos_of_ne_nil hexpired
      change st.changes < st.changes + List.length _
      omega
    · obtain ⟨beat, hbeat⟩ := List.exists_mem_of_ne_nil _ hexpired
      rw [List.mem_filter, decide_eq_true_eq] at hbeat
      refine ⟨beat.1, ?_⟩
      intro hiff
      -- The node has no other heartbeat in the map.
      obtain ⟨at_, hat⟩ := Heartbeats.mem_keys.mp
        (hiff.mpr (Heartbeats.mem_keys.mpr ⟨beat.2, hbeat.1⟩))
      change (beat.1, at_) ∈ List.filter _ _ at hat
      rw [List.mem_filter, decide_eq_true_eq] at hat
      have hle := h.latest beat hbeat.1 (beat.1, at_) (h.read _ hat.1) rfl
      have hkept := Int.le_trans (Int.sub_le_sub_left hle now) hat.2
      exact absurd hbeat.2 (Int.not_lt.mpr hkept)

namespace NodeState

/-- The membership that has been published last names exactly the nodes in the map. -/
def Published (node : Node) (st : NodeState) : Prop :=
  match st.membership with
  | none => ∀ id, id ∉ st.heartbeats.keys
  | some m =>
      m.nodeID = node.id ∧ (m.isLive = true ↔ node.id ∈ st.heartbeats.keys) ∧
        ∀ id, id ∈ m.peers ↔ id ∈ st.heartbeats.keys ∧ id ≠ node.id

theorem published_publish (node : Node) (st : NodeState) : (st.publish node).Published node := by
  refine ⟨rfl, ?_, ?_⟩
  · simp [publish, store, publishMembershipChange]
  · intro id
    simp [publish, store, publishMembershipChange]

theorem Published.of_same (h : st.Published node) (hmembership : st'.membership = st.membership)
    (hkeys : ∀ id, id ∈ st'.heartbeats.keys ↔ id ∈ st.heartbeats.keys) :
    st'.Published node := by
  unfold Published at h ⊢
  rw [hmembership]
  simpa only [hkeys] using h

/-- What is true of the state in every run. -/
structure Consistent (node : Node) (parse : String → Option UUID) (st : NodeState) : Prop where
  timely : st.Timely node parse
  queue : st.arrived = st.taken ++ st.channel.buffer
  atTick : st.atTick <+: st.arrived
  drained : ∀ changed, st.phase = .expiring changed → st.atTick <+: st.taken
  counted : st.changesAtStore ≤ st.changes
  published : st.phase ≠ .returned → st.phase.changed = false → st.Published node
  unpublished : st.phase.changed = true → st.changesAtStore < st.changes
  stopped : st.phase = .returned → st.membership = some stoppedMembership

theorem Consistent.start (channel : Channel String) (now : Time) :
    (start channel now).Consistent node parse where
  timely := ⟨rfl, nofun, nofun, nofun, nofun⟩
  queue := rfl
  atTick := List.nil_prefix
  drained := nofun
  counted := Nat.le_refl _
  published := fun _ _ => nofun
  unpublished := nofun
  stopped := nofun

theorem Timely.of_publish (h : st.Timely node parse) : (st.publish node).Timely node parse :=
  ⟨h.reads, h.past, h.read, h.latest, h.kept⟩

theorem Timely.of_phase (h : st.Timely node parse) (phase : NodePhase) :
    { st with phase := phase }.Timely node parse :=
  ⟨h.reads, h.past, h.read, h.latest, h.kept⟩

/-- The state after an update that is yet to be published if it has changed the set of live
nodes. -/
theorem Consistent.pending {phase : NodePhase} {changed : Bool}
    (h : st.Consistent node parse) (hrunning : st.phase ≠ .returned)
    {signals : List String} {channel : Channel String}
    (hupdates : Updates { st with taken := signals, channel := channel } st' changed)
    (htimely : st'.Timely node parse) (hqueue : st.arrived = signals ++ channel.buffer)
    (hdrained : ∀ c, phase = .expiring c → st.atTick <+: signals)
    (hphase : phase.changed = (st.phase.changed || changed)) (hnext : phase ≠ .returned) :
    { st' with phase := phase }.Consistent node parse where
  timely := htimely.of_phase phase
  queue := by
    change st'.arrived = st'.taken ++ st'.channel.buffer
    rw [hupdates.arrived, hupdates.taken, hupdates.channel]
    exact hqueue
  atTick := by
    change st'.atTick <+: st'.arrived
    rw [hupdates.atTick, hupdates.arrived]
    exact h.atTick
  drained := by
    intro c hc
    change st'.atTick <+: st'.taken
    rw [hupdates.atTick, hupdates.taken]
    exact hdrained c hc
  counted := by
    change st'.changesAtStore ≤ st'.changes
    rw [hupdates.changesAtStore]
    refine Nat.le_trans h.counted ?_
    cases changed with
    | true => exact Nat.le_of_lt (hupdates.more rfl).1
    | false => exact Nat.le_of_eq (hupdates.same rfl).1.symm
  published := by
    intro _ hunchanged
    obtain ⟨hbefore, hsame⟩ := Bool.or_eq_false_iff.mp (hphase.symm.trans hunchanged)
    exact (h.published hrunning hbefore).of_same hupdates.membership (hupdates.same hsame).2
  unpublished := by
    intro hchanged
    change st'.changesAtStore < st'.changes
    rw [hupdates.changesAtStore]
    rcases (Bool.or_eq_true _ _).mp (hphase.symm.trans hchanged) with hbefore | hmore
    · have hlt : st.changesAtStore < st.changes := h.unpublished hbefore
      cases changed with
      | true => exact Nat.lt_trans hlt (hupdates.more rfl).1
      | false => rwa [(hupdates.same rfl).1]
    · exact Nat.lt_of_le_of_lt h.counted (hupdates.more hmore).1
  stopped := fun hreturned => absurd hreturned hnext

/-- The state at the `select`, once a pending change has been published. -/
theorem Consistent.publishIf {phase : NodePhase}
    (h : { st with phase := phase }.Consistent node parse) (hrunning : phase ≠ .returned) :
    (if phase.changed then { st with phase := .select }.publish node
      else { st with phase := .select }).Consistent node parse := by
  have htimely : st.Timely node parse := h.timely.of_phase st.phase
  split
  · exact ⟨(htimely.of_phase .select).of_publish, h.queue, h.atTick, nofun, Nat.le_refl _,
      fun _ _ => published_publish node _, nofun, nofun⟩
  · rename_i hunchanged
    exact ⟨htimely.of_phase .select, h.queue, h.atTick, nofun, h.counted,
      fun _ _ => h.published hrunning (by simpa using hunchanged), nofun, nofun⟩

theorem Consistent.queue_took (h : st.Consistent node parse) {signal : String}
    {channel : Channel String} (hreceive : st.channel.receive = .value signal channel) :
    st.arrived = (st.taken ++ [signal]) ++ channel.buffer := by
  rw [h.queue, (Channel.receive_value hreceive).1, List.append_assoc, List.singleton_append]

theorem Consistent.onSignal_pending (h : st.Consistent node parse) {signal : String}
    {channel : Channel String} {now : Time} (hphase : st.phase = .select)
    (hreceive : st.channel.receive = .value signal channel) (hnow : st.now ≤ now) :
    { ((st.took signal channel).handleHeartbeat node parse signal now).1 with
      phase := .draining ((st.took signal channel).handleHeartbeat node parse signal now).2
    }.Consistent node parse :=
  h.pending (by rw [hphase]; nofun)
    (handleHeartbeat_updates node parse (st.took signal channel) signal now)
    (h.timely.handleHeartbeat signal channel hnow) (h.queue_took hreceive) nofun
    (by rw [hphase]; rfl) nofun

theorem Consistent.onSignal (h : st.Consistent node parse) {signal : String}
    {channel : Channel String} {now : Time} (hphase : st.phase = .select)
    (hreceive : st.channel.receive = .value signal channel) (hnow : st.now ≤ now) :
    (st.onSignal node parse signal channel now).Consistent node parse := by
  have hpublished := (h.onSignal_pending hphase hreceive hnow).publishIf nofun
  rwa [(handleHeartbeat_updates node parse (st.took signal channel) signal now).with_phase
    hphase] at hpublished

theorem Consistent.onDrain (h : st.Consistent node parse) {signal : String}
    {channel : Channel String} {now : Time} {changed : Bool} (hphase : st.phase = .draining changed)
    (hreceive : st.channel.receive = .value signal channel) (hnow : st.now ≤ now) :
    (st.onDrain node parse changed signal channel now).Consistent node parse :=
  h.pending (by rw [hphase]; nofun)
    (handleHeartbeat_updates node parse (st.took signal channel) signal now)
    (h.timely.handleHeartbeat signal channel hnow) (h.queue_took hreceive) nofun
    (by rw [hphase]; rfl) nofun

theorem Consistent.onExpire_pending (h : st.Consistent node parse) {now : Time} {changed : Bool}
    (hphase : st.phase = .expiring changed) (hnow : st.now ≤ now) :
    { (st.expireNodes node now).1 with
      phase := .expiring (changed || (st.expireNodes node now).2) }.Consistent node parse :=
  h.pending (by rw [hphase]; nofun) (h.timely.expireNodes_updates now)
    (h.timely.expireNodes hnow) h.queue (fun _ _ => h.drained changed hphase)
    (by rw [hphase]; rfl) nofun

theorem Consistent.onExpire (h : st.Consistent node parse) {now : Time} {changed : Bool}
    (hphase : st.phase = .expiring changed) (hnow : st.now ≤ now) :
    (st.onExpire node changed now).Consistent node parse :=
  (h.onExpire_pending hphase hnow).publishIf nofun

theorem Consistent.stop (h : st.Consistent node parse) : st.stop.Consistent node parse where
  timely := ⟨h.timely.reads, h.timely.past, h.timely.read, h.timely.latest, h.timely.kept⟩
  queue := h.queue
  atTick := h.atTick
  drained := nofun
  counted := Nat.le_refl _
  published := fun hrunning => absurd rfl hrunning
  unpublished := nofun
  stopped := fun _ => rfl

theorem Consistent.step (h : st.Consistent node parse) (hstep : NodeStep node parse st st') :
    st'.Consistent node parse := by
  cases hstep with
  | @signal signal channel hsend =>
      obtain ⟨-, -, hbuffer⟩ := Channel.trySend_sent hsend
      refine ⟨⟨h.timely.reads, h.timely.past, h.timely.read, h.timely.latest, h.timely.kept⟩, ?_,
        h.atTick.trans (List.prefix_append _ _), h.drained, h.counted, h.published,
        h.unpublished, h.stopped⟩
      change st.arrived ++ [signal] = st.taken ++ channel.buffer
      rw [hbuffer, h.queue, List.append_assoc]
  | close =>
      exact ⟨⟨h.timely.reads, h.timely.past, h.timely.read, h.timely.latest, h.timely.kept⟩,
        h.queue, h.atTick, h.drained, h.counted, h.published, h.unpublished, h.stopped⟩
  | heartbeat hphase hreceive hnow => exact h.onSignal hphase hreceive hnow
  | tick hphase =>
      refine ⟨⟨h.timely.reads, h.timely.past, h.timely.read, h.timely.latest, h.timely.kept⟩,
        h.queue, List.prefix_rfl, nofun, h.counted, ?_, nofun, nofun⟩
      intro _ _
      exact h.published (by rw [hphase]; nofun) (by rw [hphase]; rfl)
  | drain hphase hreceive hnow => exact h.onDrain hphase hreceive hnow
  | @drained changed hphase hreceive =>
      have hempty := (Channel.receive_blocks hreceive).1
      refine ⟨h.timely.of_phase _, h.queue, h.atTick, ?_, h.counted, ?_, ?_, nofun⟩
      · intro _ _
        have hprefix := h.atTick
        rwa [h.queue, hempty, List.append_nil] at hprefix
      · intro _ hunchanged
        exact h.published (by rw [hphase]; nofun) (by rw [hphase]; exact hunchanged)
      · intro hchanged
        exact h.unpublished (by rw [hphase]; exact hchanged)
  | expire hphase hnow => exact h.onExpire hphase hnow
  | canceled hphase => exact h.stop
  | closed hphase hreceive => exact h.stop

theorem Reached.consistent (h : st.Reached node parse) : st.Consistent node parse := by
  obtain ⟨channel, now, hrun⟩ := h
  exact run_preserves (fun _ _ h hstep => h.step hstep) hrun (.start channel now)

/-- How a step changes the map, and when it publishes a membership. -/
structure StepEffect (st st' : NodeState) : Prop where
  changes : st'.changes = st.changes ↔
    ∀ id, id ∈ st'.heartbeats.keys ↔ id ∈ st.heartbeats.keys
  unchanged : st'.stores = st.stores → st'.changesAtStore = st.changesAtStore
  stored : st'.stores ≠ st.stores → st'.changesAtStore = st'.changes ∧
    (st'.phase ≠ .returned → st.changesAtStore < st'.changes)

/-- Steps that leave the map as it is, and publish nothing. -/
theorem StepEffect.idle (hchanges : st'.changes = st.changes)
    (hbeats : st'.heartbeats = st.heartbeats) (hstores : st'.stores = st.stores)
    (hat : st'.changesAtStore = st.changesAtStore) : StepEffect st st' where
  changes := by
    rw [hbeats]
    exact ⟨fun _ _ => Iff.rfl, fun _ => hchanges⟩
  unchanged := fun _ => hat
  stored := fun hne => absurd hstores hne

/-- Publishing a change that is pending. -/
theorem StepEffect.publishIf {phase : NodePhase} {changed : Bool}
    {signals : List String} {channel : Channel String}
    (hupdates : Updates { st with taken := signals, channel := channel } st' changed)
    (hpending : { st' with phase := phase }.Consistent node parse) :
    StepEffect st (if phase.changed then { st' with phase := .select }.publish node
      else { st' with phase := .select }) := by
  split
  · rename_i hchanged
    refine ⟨hupdates.changes_iff, ?_, ?_⟩
    · intro hstores
      change st'.stores + 1 = st.stores at hstores
      rw [hupdates.stores] at hstores
      exact absurd hstores (Nat.succ_ne_self _)
    · intro _
      refine ⟨rfl, ?_⟩
      intro _
      have hlt : st'.changesAtStore < st'.changes := hpending.unpublished hchanged
      rwa [hupdates.changesAtStore] at hlt
  · exact ⟨hupdates.changes_iff, fun _ => hupdates.changesAtStore,
      fun hne => absurd hupdates.stores hne⟩

theorem StepEffect.stop (st : NodeState) : StepEffect st st.stop where
  changes := ⟨fun _ _ => Iff.rfl, fun _ => rfl⟩
  unchanged := fun hstores => absurd hstores (Nat.succ_ne_self _)
  stored := fun _ => ⟨rfl, fun hrunning => absurd rfl hrunning⟩

/-- A membership is published only after a change of the map. -/
theorem Consistent.stepEffect (h : st.Consistent node parse)
    (hstep : NodeStep node parse st st') : StepEffect st st' := by
  cases hstep with
  | signal hsend => exact .idle rfl rfl rfl rfl
  | close => exact .idle rfl rfl rfl rfl
  | @heartbeat signal channel now hphase hreceive hnow =>
      have hpending := h.onSignal_pending hphase hreceive hnow
      have hupdates := handleHeartbeat_updates node parse (st.took signal channel) signal now
      have heffect := StepEffect.publishIf hupdates hpending
      rwa [hupdates.with_phase hphase] at heffect
  | tick hphase => exact .idle rfl rfl rfl rfl
  | @drain changed signal channel now hphase hreceive hnow =>
      have hupdates := handleHeartbeat_updates node parse (st.took signal channel) signal now
      exact ⟨hupdates.changes_iff, fun _ => hupdates.changesAtStore,
        fun hne => absurd hupdates.stores hne⟩
  | drained hphase hreceive => exact .idle rfl rfl rfl rfl
  | @expire changed now hphase hnow =>
      exact StepEffect.publishIf (h.timely.expireNodes_updates now)
        (h.onExpire_pending hphase hnow)
  | canceled hphase => exact .stop st
  | closed hphase hreceive => exact .stop st

end NodeState

end

/-- In every run of a node, the membership that it has published last names the nodes in its
map whenever it waits; after every tick these are the nodes of which a heartbeat was read
within the timeout, with no heartbeat left waiting that had arrived before the tick; a
membership is published only after a change of the map; and once the node has stopped there
are no live nodes. -/
theorem node_publishes_live_nodes {node : Node} {parse : String → Option UUID} {st : NodeState}
    (h : st.Reached node parse) :
    (st.phase = .select → st.Published node) ∧
      (∀ changed now, st.phase = .expiring changed → st.now ≤ now →
        (∀ id, id ∈ (st.onExpire node changed now).heartbeats.keys ↔
          ∃ at_, (id, at_) ∈ st.reads ∧ now - at_ ≤ node.timeout) ∧
        st.reads.map Prod.fst = st.taken.filterMap (heartbeatOf parse) ∧
        st.atTick <+: st.taken) ∧
      (∀ st', NodeStep node parse st st' → NodeState.StepEffect st st') ∧
      (st.phase = .returned → ∃ m, st.membership = some m ∧ m.liveNodes = ∅) := by
  have hconsistent := h.consistent
  refine ⟨?_, ?_, fun st' hstep => hconsistent.stepEffect hstep, ?_⟩
  · intro hphase
    exact hconsistent.published (by rw [hphase]; nofun) (by rw [hphase]; rfl)
  · intro changed now hphase hnow
    refine ⟨?_, hconsistent.timely.reads, hconsistent.drained changed hphase⟩
    intro id
    rw [← hconsistent.timely.mem_expireNodes hnow]
    unfold NodeState.onExpire
    dsimp only
    split
    · exact Iff.rfl
    · exact Iff.rfl
  · intro hphase
    exact ⟨_, hconsistent.stopped hphase, rfl⟩

/-- A node that hears itself. -/
def soleNode : Node where
  id := uuid 1
  interval := 1
  timeout := 3
  positive := by decide
  longer := by decide

/-- The node publishes that it is live when it reads its first heartbeat, and again that
nobody is when a tick finds that no other one has followed. -/
theorem node_publishes_live_nodes_expired :
    ∃ st : NodeState, st.Reached soleNode (fun _ => some (uuid 1)) ∧
      st.membership.map Membership.isLive = some true ∧
      (∀ id, id ∈ (st.onExpire soleNode false 4).heartbeats.keys ↔
        ∃ at_, (id, at_) ∈ st.reads ∧ 4 - at_ ≤ soleNode.timeout) ∧
      (st.onExpire soleNode false 4).membership.map Membership.isLive = some false := by
  have hreached : NodeState.Reached soleNode (fun _ => some (uuid 1))
      { ({ (NodeState.onSignal soleNode (fun _ => some (uuid 1))
          (.start (.make 64 ["a"] (by decide)) 0) "a" (.make 64 [] (by decide)) 0).sendHeartbeat
            with phase := .draining false, atTick := ["a"] } : NodeState) with
        phase := .expiring false } := by
    refine ⟨.make 64 ["a"] (by decide), 0, ?_⟩
    refine ((Relation.ReflTransGen.single (.heartbeat rfl rfl (Int.le_refl 0))).tail
      (.tick rfl)).tail (.drained rfl rfl)
  refine ⟨_, hreached, rfl, ?_, rfl⟩
  exact ((node_publishes_live_nodes hreached).2.1 false 4 rfl (by decide)).1

/-- One of several nodes with the same settings. -/
def sampleNode (id : UUID) : Node := { soleNode with id := id }

end Runkit.Cluster
