/-
  Cluster/Network.lean --- heartbeats between the nodes of a cluster.

  Source: internal/cluster/node.go, with Send, run, wake and dispatch of
  internal/signal/bus.go and the triggers of internal/schema/ddl/00-eventstream.

  The nodes of a cluster learn of each other by notifications of one database.  A notification
  goes to every engine that is listening at the time, in order; an engine may lose its
  connection with anything that is on its way, and its bus drops signals that do not fit into
  the channel of a watcher.  Event streams send notifications too, on topics of their own.
  A node may stop, or crash, at any time.

  Two facts about the views of the nodes follow.  Nothing but a heartbeat is taken for one, so
  a node is never thought to be live before it has been started.  And a node that has stopped
  is found out: once no heartbeat of it is on its way to another node, that node drops it on
  the first tick after the timeout.

  The text of a node's ID is parsed by a library.  All that is assumed of it is that it parses
  what it has written.
-/
import Runkit.Cluster.Heartbeats
import Runkit.EventStream.Local
import Runkit.Signal.Bus

set_option autoImplicit false

namespace Runkit.Cluster

open Runkit.Foundation Runkit.Signal Runkit.EventStream

/-! ## Topics -/

/-- `heartbeatTopic`. -/
def heartbeatTopic : String := "heartbeat"

/-- `heartbeatBufferSize`. -/
def heartbeatBufferSize : Nat := 64

/-- The topic on which `Node.sendHeartbeat` sends. -/
def heartbeatTopicOf (id : UUID) : String := heartbeatTopic ++ "." ++ id.asString

/-- What the bus makes of a topic that is beneath another one. -/
theorem subtopicOf_append (parent rest : String) :
    subtopicOf parent (parent ++ "." ++ rest) = some rest := by
  have hne : parent ++ "." ++ rest ≠ parent := by
    intro heq
    have hlength := congrArg String.length heq
    rw [String.length_append, String.length_append] at hlength
    have hdot : ".".length = 1 := rfl
    omega
  have hlist : (parent ++ "." ++ rest).toList = (parent ++ ".").toList ++ rest.toList :=
    String.toList_append
  have hfront : (parent ++ ".").toList.isPrefixOf (parent ++ "." ++ rest).toList = true := by
    rw [List.isPrefixOf_iff_prefix, hlist]
    exact List.prefix_append _ _
  rw [subtopicOf, if_neg hne, cutPrefix, if_pos hfront, hlist, List.drop_left,
    String.ofList_toList]

/-- A topic that begins with another letter. -/
theorem subtopicOf_heartbeatTopic_eq_none {front rest : String} {chars : List Char}
    (hfront : front.toList = 'e' :: chars) : subtopicOf heartbeatTopic (front ++ rest) = none := by
  have hlist : (front ++ rest).toList = 'e' :: (chars ++ rest.toList) := by
    rw [String.toList_append, hfront, List.cons_append]
  have hne : front ++ rest ≠ heartbeatTopic := by
    intro heq
    rw [heq] at hlist
    exact absurd (List.cons.inj hlist).1 (by decide)
  have hprefix : ¬ (heartbeatTopic ++ ".").toList.isPrefixOf (front ++ rest).toList = true := by
    rw [hlist]
    exact Bool.false_ne_true
  rw [subtopicOf, if_neg hne, cutPrefix, if_neg hprefix]

/-! ## The network -/

/-- An engine, as far as its node and its connection for notifications are concerned. -/
structure Member where
  node : NodeState
  /-- The connection exists and is listening. -/
  listening : Bool
  /-- The notifications that are on their way. -/
  inFlight : List String
  /-- The engine has ended without stopping. -/
  crashed : Bool

/-- Notifications are committed. -/
def Member.notify (topics : List String) (m : Member) : Member :=
  if m.listening then { m with inFlight := m.inFlight ++ topics } else m

/-- The engines that have been started, by the IDs of their nodes. -/
abbrev Network := UUID → Option Member

namespace Network

/-- The notifications go to every engine. -/
def notify (net : Network) (topics : List String) : Network :=
  fun id => (net id).map (.notify topics)

def set (net : Network) (id : UUID) (m : Member) : Network := Function.update net id (some m)

/-- No engine has been started. -/
def start : Network := fun _ => none

/-- One step of a node, of a bus or of a connection. -/
inductive Step (nodes : UUID → Node) (parse : String → Option UUID) : Network → Network → Prop where
  /-- `Node.Run` is called, and sends a heartbeat unless it fails to. -/
  | run {net : Network} {id : UUID} {now : Time} {listening : Bool} {copies : Nat}
      (hnew : net id = none) (hcopies : copies ≤ 1) :
      Step nodes parse net
        ((net.set id
          { node := .start (.make heartbeatBufferSize [""] (by decide)) now
            listening := listening
            inFlight := []
            crashed := false }).notify (List.replicate copies (heartbeatTopicOf (nodes id).id)))
  /-- A step of the node, which may send heartbeats. -/
  | node {net : Network} {id : UUID} {m : Member} {st : NodeState} {copies : Nat}
      (hm : net id = some m) (hruns : m.crashed = false)
      (hstep : NodeStep (nodes id) parse m.node st) (hown : st.arrived = m.node.arrived)
      (hcopies : copies ≤ st.sent - m.node.sent) :
      Step nodes parse net
        ((net.set id { m with node := st }).notify
          (List.replicate copies (heartbeatTopicOf (nodes id).id)))
  /-- An event stream has been created, or events have been appended to it. -/
  | eventStream {net : Network} {topic : String} {streamID : UUID}
      (htopic : topic = createTopic streamID ∨ topic = appendTopic streamID) :
      Step nodes parse net (net.notify [topic])
  | listen {net : Network} {id : UUID} {m : Member} (hm : net id = some m) :
      Step nodes parse net (net.set id { m with listening := true, inFlight := [] })
  /-- The connection is lost. -/
  | lose {net : Network} {id : UUID} {m : Member} (received : Nat) (hm : net id = some m) :
      Step nodes parse net
        (net.set id { m with listening := false, inFlight := m.inFlight.take received })
  /-- `Bus.dispatch` sends the signal to the node. -/
  | dispatch {net : Network} {id : UUID} {m : Member} {topic subtopic : String}
      {inFlight : List String} {channel : Channel String} (hm : net id = some m)
      (hnext : m.inFlight = topic :: inFlight)
      (hsubtopic : Broadcast.subtopic (.dispatch topic) heartbeatTopic = some subtopic)
      (hsend : m.node.channel.trySend subtopic = .sent channel) :
      Step nodes parse net
        (net.set id
          { m with
            node := { m.node with channel := channel, arrived := m.node.arrived ++ [subtopic] }
            inFlight := inFlight })
  /-- `Bus.dispatch` does not send the signal to the node, which does not watch its topic, has
  stopped to watch it or is not fast enough. -/
  | ignore {net : Network} {id : UUID} {m : Member} {topic : String} {inFlight : List String}
      (hm : net id = some m) (hnext : m.inFlight = topic :: inFlight) :
      Step nodes parse net (net.set id { m with inFlight := inFlight })
  | wake {net : Network} {id : UUID} {m : Member} {subtopic : String} {channel : Channel String}
      (hm : net id = some m) (hsubtopic : Broadcast.subtopic .wake heartbeatTopic = some subtopic)
      (hsend : m.node.channel.trySend subtopic = .sent channel) :
      Step nodes parse net
        (net.set id
          { m with
            node := { m.node with channel := channel, arrived := m.node.arrived ++ [subtopic] } })
  | crash {net : Network} {id : UUID} {m : Member} (hm : net id = some m) :
      Step nodes parse net (net.set id { m with crashed := true })

/-- The state is reached from one in which no engine has been started. -/
def Reached (nodes : UUID → Node) (parse : String → Option UUID) (net : Network) : Prop :=
  Relation.ReflTransGen (Step nodes parse) start net

end Network

/-! ## What a node does by itself -/

/-- A step of a node other than the arrival of a signal: which heartbeats it reads, and what
becomes of the membership. -/
structure OwnStep (node : Node) (parse : String → Option UUID) (st st' : NodeState) : Prop where
  buffer : ∀ signal ∈ st'.channel.buffer, signal ∈ st.channel.buffer
  reads : ∃ more, st'.reads = st.reads ++ more ∧
    ∀ beat ∈ more, ∃ signal ∈ st.channel.buffer, heartbeatOf parse signal = some beat.1
  membership : st'.membership = st.membership ∨ st'.membership = some stoppedMembership ∨
    st'.membership = some (publishMembershipChange node.id st'.heartbeats.keys)
  returned : st.phase = .returned → st'.phase = .returned ∧ st'.sent = st.sent

section

variable {node : Node} {parse : String → Option UUID} {st st' : NodeState}

/-- Steps that read nothing, and publish nothing. -/
theorem OwnStep.idle (hbuffer : st'.channel.buffer = st.channel.buffer)
    (hreads : st'.reads = st.reads) (hmembership : st'.membership = st.membership)
    (hreturned : st.phase = .returned → st'.phase = .returned ∧ st'.sent = st.sent) :
    OwnStep node parse st st' where
  buffer := by
    rw [hbuffer]
    exact fun _ => id
  reads := ⟨[], by rw [hreads, List.append_nil], nofun⟩
  membership := Or.inl hmembership
  returned := hreturned

/-- Handling a signal that has been received. -/
theorem handleHeartbeat_reads (node : Node) (parse : String → Option UUID) (st : NodeState)
    (signal : String) (now : Time) :
    ∃ more, (st.handleHeartbeat node parse signal now).1.reads = st.reads ++ more ∧
      ∀ beat ∈ more, heartbeatOf parse signal = some beat.1 := by
  cases hbeat : heartbeatOf parse signal with
  | none =>
      rw [handleHeartbeat_of_none hbeat]
      exact ⟨[], (List.append_nil _).symm, nofun⟩
  | some id =>
      obtain ⟨sent, hhandle⟩ := handleHeartbeat_of_some node st now hbeat
      rw [hhandle]
      refine ⟨[(id, now)], rfl, ?_⟩
      intro beat hmem
      rw [List.mem_singleton.mp hmem]

/-- Receiving a signal and handling it, and publishing the membership or not. -/
theorem OwnStep.receive {signal : String} {channel : Channel String} (now : Time)
    (hreceive : st.channel.receive = .value signal channel) (hrunning : st.phase ≠ .returned)
    (hchannel : st'.channel = channel)
    (hreads : st'.reads =
      ((st.took signal channel).handleHeartbeat node parse signal now).1.reads)
    (hmembership : st'.membership = st.membership ∨
      st'.membership = some (publishMembershipChange node.id st'.heartbeats.keys)) :
    OwnStep node parse st st' := by
  obtain ⟨hbuffer, -⟩ := Channel.receive_value hreceive
  obtain ⟨more, hmore, hsignal⟩ :=
    handleHeartbeat_reads node parse (st.took signal channel) signal now
  refine ⟨?_, ⟨more, hreads.trans hmore, ?_⟩, hmembership.imp_right Or.inr,
    fun hreturned => absurd hreturned hrunning⟩
  · rw [hchannel, hbuffer]
    exact fun _ => List.mem_cons_of_mem _
  · intro beat hbeat
    exact ⟨signal, by rw [hbuffer]; exact List.mem_cons_self, hsignal beat hbeat⟩

theorem NodeStep.own (hstep : NodeStep node parse st st') (hown : st'.arrived = st.arrived) :
    OwnStep node parse st st' := by
  cases hstep with
  | @signal signal channel hsend =>
      have hlength := congrArg List.length hown
      rw [List.length_append] at hlength
      exact absurd hlength (Nat.succ_ne_self _)
  | close => exact .idle rfl rfl rfl fun hreturned => ⟨hreturned, rfl⟩
  | @heartbeat signal channel now hphase hreceive hnow =>
      have hupdates := handleHeartbeat_updates node parse (st.took signal channel) signal now
      have hrunning : st.phase ≠ .returned := by
        rw [hphase]
        decide
      unfold NodeState.onSignal
      dsimp only
      split
      · exact .receive now hreceive hrunning hupdates.channel rfl (Or.inr rfl)
      · exact .receive now hreceive hrunning hupdates.channel rfl (Or.inl hupdates.membership)
  | tick hphase =>
      refine .idle rfl rfl rfl fun hreturned => ?_
      cases hphase.symm.trans hreturned
  | @drain changed signal channel now hphase hreceive hnow =>
      have hupdates := handleHeartbeat_updates node parse (st.took signal channel) signal now
      have hrunning : st.phase ≠ .returned := by
        rw [hphase]
        nofun
      exact .receive now hreceive hrunning hupdates.channel rfl (Or.inl hupdates.membership)
  | drained hphase hreceive =>
      refine .idle rfl rfl rfl fun hreturned => ?_
      cases hphase.symm.trans hreturned
  | @expire changed now hphase hnow =>
      have hrunning : st.phase = .returned → False := by
        intro hreturned
        cases hphase.symm.trans hreturned
      unfold NodeState.onExpire
      dsimp only
      split
      · exact ⟨fun _ => id, ⟨[], (List.append_nil _).symm, nofun⟩, Or.inr (Or.inr rfl),
          fun hreturned => (hrunning hreturned).elim⟩
      · exact .idle rfl rfl rfl fun hreturned => (hrunning hreturned).elim
  | canceled hphase =>
      refine ⟨fun _ => id, ⟨[], (List.append_nil _).symm, nofun⟩, Or.inr (Or.inl rfl), ?_⟩
      intro _
      exact ⟨rfl, rfl⟩
  | closed hphase hreceive =>
      refine ⟨fun _ => id, ⟨[], (List.append_nil _).symm, nofun⟩, Or.inr (Or.inl rfl), ?_⟩
      intro _
      exact ⟨rfl, rfl⟩

end

/-! ## Where heartbeats come from -/

/-- If a notification on the topic is a heartbeat, it is that of one of the nodes. -/
def Carries (parse : String → Option UUID) (P : UUID → Prop) (topic : String) : Prop :=
  ∀ subtopic id, subtopicOf heartbeatTopic topic = some subtopic →
    heartbeatOf parse subtopic = some id → P id

namespace Member

/-- Every heartbeat that is on its way to the node is that of one of the given nodes. -/
structure Hears (parse : String → Option UUID) (P : UUID → Prop) (m : Member) : Prop where
  inFlight : ∀ topic ∈ m.inFlight, Carries parse P topic
  buffer : ∀ signal ∈ m.node.channel.buffer, ∀ id, heartbeatOf parse signal = some id → P id

/-- The node sends no more heartbeats. -/
def Stopped (m : Member) : Prop := m.crashed = true ∨ m.node.phase = .returned

/-- What can become of an engine, while only the given nodes send heartbeats. -/
structure Evolves (node : Node) (parse : String → Option UUID) (P : UUID → Prop)
    (m m' : Member) : Prop where
  hears : m.Hears parse P → m'.Hears parse P
  reads : ∃ more, m'.node.reads = m.node.reads ++ more ∧
    (m.Hears parse P → ∀ beat ∈ more, P beat.1)
  consistent : m.node.Consistent node parse → m'.node.Consistent node parse
  membership : m'.node.membership = m.node.membership ∨
    m'.node.membership = some stoppedMembership ∨
    m'.node.membership = some (publishMembershipChange node.id m'.node.heartbeats.keys)
  stopped : m.Stopped → m'.Stopped

/-- An engine that has just been started. -/
structure Fresh (node : Node) (parse : String → Option UUID) (P : UUID → Prop) (m : Member) :
    Prop where
  hears : m.Hears parse P
  reads : m.node.reads = []
  consistent : m.node.Consistent node parse
  membership : m.node.membership = none

section

variable {node : Node} {parse : String → Option UUID} {P Q : UUID → Prop} {m m' : Member}

theorem Hears.mono (h : m.Hears parse P) (himp : ∀ id, P id → Q id) : m.Hears parse Q where
  inFlight := fun topic htopic subtopic id hsub hbeat =>
    himp id (h.inFlight topic htopic subtopic id hsub hbeat)
  buffer := fun signal hsignal id hbeat => himp id (h.buffer signal hsignal id hbeat)

theorem notify_node (topics : List String) (m : Member) : (m.notify topics).node = m.node := by
  rw [notify]
  split <;> rfl

theorem notify_crashed (topics : List String) (m : Member) :
    (m.notify topics).crashed = m.crashed := by
  rw [notify]
  split <;> rfl

theorem Hears.notify {topics : List String} (h : m.Hears parse P)
    (hcarries : ∀ topic ∈ topics, Carries parse P topic) : (m.notify topics).Hears parse P where
  inFlight := by
    intro topic hmem
    rw [Member.notify] at hmem
    split at hmem
    · rcases List.mem_append.mp hmem with hold | hnew
      · exact h.inFlight topic hold
      · exact hcarries topic hnew
    · exact h.inFlight topic hmem
  buffer := by
    rw [notify_node]
    exact h.buffer

theorem Evolves.notify {topics : List String} (h : m.Evolves node parse P m')
    (hcarries : ∀ topic ∈ topics, Carries parse P topic) :
    m.Evolves node parse P (m'.notify topics) where
  hears := fun hm => (h.hears hm).notify hcarries
  reads := by
    rw [notify_node]
    exact h.reads
  consistent := by
    rw [notify_node]
    exact h.consistent
  membership := by
    rw [notify_node]
    exact h.membership
  stopped := by
    intro hm
    rw [Stopped, notify_crashed, notify_node]
    exact h.stopped hm

theorem Fresh.notify {topics : List String} (h : m.Fresh node parse P)
    (hcarries : ∀ topic ∈ topics, Carries parse P topic) :
    (m.notify topics).Fresh node parse P where
  hears := h.hears.notify hcarries
  reads := by
    rw [notify_node]
    exact h.reads
  consistent := by
    rw [notify_node]
    exact h.consistent
  membership := by
    rw [notify_node]
    exact h.membership

/-- Only notifications are lost, or the engine crashes. -/
theorem Evolves.idle (hnode : m'.node = m.node) (hinFlight : ∀ t ∈ m'.inFlight, t ∈ m.inFlight)
    (hcrashed : m.crashed = true → m'.crashed = true) : m.Evolves node parse P m' where
  hears := fun h => ⟨fun topic hmem => h.inFlight topic (hinFlight topic hmem),
    by rw [hnode]; exact h.buffer⟩
  reads := ⟨[], by rw [hnode, List.append_nil], fun _ => nofun⟩
  consistent := by
    rw [hnode]
    exact id
  membership := by
    rw [hnode]
    exact Or.inl rfl
  stopped := by
    rw [Stopped, Stopped, hnode]
    exact Or.imp_left hcrashed

theorem Evolves.ownStep {st : NodeState} (hstep : NodeStep node parse m.node st)
    (hown : st.arrived = m.node.arrived) : m.Evolves node parse P { m with node := st } := by
  have hstep' := hstep.own hown
  obtain ⟨more, hreads, hmore⟩ := hstep'.reads
  refine ⟨?_, ⟨more, hreads, ?_⟩, fun h => h.step hstep, hstep'.membership, ?_⟩
  · intro h
    exact ⟨h.inFlight, fun signal hmem => h.buffer signal (hstep'.buffer signal hmem)⟩
  · intro h beat hbeat
    obtain ⟨signal, hsignal, hbeatOf⟩ := hmore beat hbeat
    exact h.buffer signal hsignal beat.1 hbeatOf
  · exact Or.imp_right fun hreturned => (hstep'.returned hreturned).1

/-- A signal arrives, which may be a heartbeat of one of the nodes. -/
theorem Evolves.signal {signal : String} {channel : Channel String} {inFlight : List String}
    (hsend : m.node.channel.trySend signal = .sent channel)
    (hinFlight : ∀ t ∈ inFlight, t ∈ m.inFlight)
    (hsignal : m.Hears parse P → ∀ id, heartbeatOf parse signal = some id → P id) :
    m.Evolves node parse P
      { m with
        node := { m.node with channel := channel, arrived := m.node.arrived ++ [signal] }
        inFlight := inFlight } := by
  obtain ⟨-, -, hbuffer⟩ := Channel.trySend_sent hsend
  refine ⟨?_, ⟨[], (List.append_nil _).symm, fun _ => nofun⟩, fun h => h.step (.signal hsend),
    Or.inl rfl, id⟩
  intro h
  refine ⟨fun topic hmem => h.inFlight topic (hinFlight topic hmem), ?_⟩
  intro other hother
  change other ∈ channel.buffer at hother
  rw [hbuffer] at hother
  rcases List.mem_append.mp hother with hold | hnew
  · exact h.buffer other hold
  · rw [List.mem_singleton.mp hnew]
    exact hsignal h

end

end Member

/-! ## Steps of the network -/

namespace Network

/-- What can become of a network, while only the given nodes send heartbeats. -/
structure Evolves (nodes : UUID → Node) (parse : String → Option UUID) (P : UUID → Prop)
    (net net' : Network) : Prop where
  old : ∀ id m, net id = some m →
    ∃ m', net' id = some m' ∧ m.Evolves (nodes id) parse P m'
  new : ∀ id m', net id = none → net' id = some m' → m'.Fresh (nodes id) parse P

section

variable {nodes : UUID → Node} {parse : String → Option UUID} {P : UUID → Prop}
  {net net' : Network}

theorem Evolves.refl (net : Network) : net.Evolves nodes parse P net where
  old := fun _ m hm => ⟨m, hm, .idle rfl (fun _ => id) id⟩
  new := by
    intro id m' hnone hm'
    rw [hnone] at hm'
    cases hm'

theorem Evolves.set {id : UUID} {m m' : Member} (hm : net id = some m)
    (h : m.Evolves (nodes id) parse P m') : net.Evolves nodes parse P (net.set id m') where
  old := by
    intro other k hk
    by_cases heq : other = id
    · subst heq
      cases hm.symm.trans hk
      exact ⟨m', Function.update_self .., h⟩
    · refine ⟨k, (Function.update_of_ne heq ..).trans hk, ?_⟩
      exact .idle rfl (fun _ hmem => hmem) fun h => h
  new := by
    intro other k hnone hk
    rcases update_eq_some hk with ⟨rfl, -⟩ | ⟨-, hold⟩
    · cases hm.symm.trans hnone
    · cases hnone.symm.trans hold

theorem Evolves.start {id : UUID} {m : Member} (hnew : net id = none)
    (h : m.Fresh (nodes id) parse P) : net.Evolves nodes parse P (net.set id m) where
  old := by
    intro other k hk
    have hne : other ≠ id := by
      rintro rfl
      cases hnew.symm.trans hk
    exact ⟨k, (Function.update_of_ne hne ..).trans hk, .idle rfl (fun _ hmem => hmem) fun h => h⟩
  new := by
    intro other k hnone hk
    rcases update_eq_some hk with ⟨rfl, hset⟩ | ⟨-, hold⟩
    · cases hset
      exact h
    · cases hnone.symm.trans hold

theorem Evolves.notify {topics : List String} (h : net.Evolves nodes parse P net')
    (hcarries : ∀ topic ∈ topics, Carries parse P topic) :
    net.Evolves nodes parse P (net'.notify topics) where
  old := by
    intro id m hm
    obtain ⟨m', hm', hevolves⟩ := h.old id m hm
    exact ⟨m'.notify topics, by rw [Network.notify, hm']; rfl, hevolves.notify hcarries⟩
  new := by
    intro id m' hnone hm'
    obtain ⟨k, hk, rfl⟩ := Option.map_eq_some_iff.mp hm'
    exact (h.new id k hnone hk).notify hcarries

/-- A heartbeat of a node is that of the node. -/
theorem carries_heartbeat (hparse : ∀ id : UUID, parse id.asString = some id) {id : UUID}
    (hP : P id) : Carries parse P (heartbeatTopicOf id) := by
  intro subtopic other hsub hbeat
  rw [heartbeatTopicOf, subtopicOf_append] at hsub
  cases hsub
  unfold heartbeatOf at hbeat
  split at hbeat
  · cases hbeat
  · rw [hparse] at hbeat
    cases hbeat
    exact hP

/-- Notifications of event streams are no heartbeats. -/
theorem carries_eventStream {topic : String} {streamID : UUID}
    (htopic : topic = createTopic streamID ∨ topic = appendTopic streamID) :
    Carries parse P topic := by
  have hnone : subtopicOf heartbeatTopic topic = none := by
    rcases htopic with rfl | rfl
    · exact subtopicOf_heartbeatTopic_eq_none rfl
    · exact subtopicOf_heartbeatTopic_eq_none rfl
  intro subtopic id hsub _
  rw [hnone] at hsub
  cases hsub

theorem fresh_start {node : Node} (now : Time) (listening : Bool) :
    Member.Fresh node parse P
      { node := .start (.make heartbeatBufferSize [""] (by decide)) now
        listening := listening
        inFlight := []
        crashed := false } where
  hears := by
    refine ⟨nofun, ?_⟩
    intro signal hsignal id hbeat
    rw [List.mem_singleton.mp hsignal] at hbeat
    cases hbeat
  reads := rfl
  consistent := .start _ now
  membership := rfl

/-- Heartbeats are sent by nodes that run. -/
theorem Step.evolves (hid : ∀ id, (nodes id).id = id)
    (hparse : ∀ id : UUID, parse id.asString = some id) (hstep : Step nodes parse net net')
    (hP : ∀ id, net' id ≠ none → (∀ m, net id = some m → ¬ m.Stopped) → P id) :
    net.Evolves nodes parse P net' := by
  have hbeats : ∀ (id : UUID) (copies : Nat), (copies ≠ 0 → P id) →
      ∀ topic ∈ List.replicate copies (heartbeatTopicOf (nodes id).id),
        Carries parse P topic := by
    intro id copies hsends topic hmem
    obtain ⟨hcopies, rfl⟩ := List.mem_replicate.mp hmem
    rw [hid]
    exact carries_heartbeat hparse (hsends hcopies)
  have hset : ∀ {id : UUID} {m : Member} {topics : List String},
      ((net.set id m).notify topics) id ≠ none := by
    intro id m topics hnone
    rw [notify, set, Function.update_self] at hnone
    cases hnone
  cases hstep with
  | @run id now listening copies hnew hcopies =>
      refine (Evolves.start hnew (fresh_start now listening)).notify (hbeats id copies ?_)
      intro _
      refine hP id hset ?_
      intro m hm
      cases hnew.symm.trans hm
  | @node id m st copies hm hruns hstep hown hcopies =>
      refine (Evolves.set hm (.ownStep hstep hown)).notify (hbeats id copies ?_)
      intro hsends
      refine hP id hset ?_
      intro k hk hstopped
      cases hm.symm.trans hk
      rcases hstopped with hcrashed | hreturned
      · rw [hruns] at hcrashed
        cases hcrashed
      · rw [((hstep.own hown).returned hreturned).2, Nat.sub_self] at hcopies
        exact hsends (Nat.le_zero.mp hcopies)
  | @eventStream topic streamID htopic =>
      refine (Evolves.refl net).notify ?_
      intro other hmem
      rw [List.mem_singleton.mp hmem]
      exact carries_eventStream htopic
  | listen hm => exact .set hm (.idle rfl nofun fun h => h)
  | lose received hm => exact .set hm (.idle rfl (fun _ => List.mem_of_mem_take) fun h => h)
  | @dispatch id m topic subtopic inFlight channel hm hnext hsubtopic hsend =>
      refine .set hm (.signal hsend ?_ ?_)
      · rw [hnext]
        exact fun _ => List.mem_cons_of_mem _
      · intro h other hbeat
        have hmem : topic ∈ m.inFlight := by
          rw [hnext]
          exact List.mem_cons_self
        exact h.inFlight topic hmem subtopic other hsubtopic hbeat
  | @ignore id m topic inFlight hm hnext =>
      refine .set hm (.idle rfl ?_ fun h => h)
      rw [hnext]
      exact fun _ => List.mem_cons_of_mem _
  | @wake id m subtopic channel hm hsubtopic hsend =>
      refine .set hm (.signal hsend (fun _ hmem => hmem) ?_)
      intro _ other hbeat
      cases hsubtopic
      cases hbeat
  | crash hm => exact .set hm (.idle rfl (fun _ hmem => hmem) fun _ => rfl)

/-! ## Every run -/

/-- What a node knows is true: the nodes of which it has read heartbeats, and those that are
live in the membership it has published last, have been started. -/
structure Truthful (nodes : UUID → Node) (parse : String → Option UUID) (net : Network)
    (id : UUID) (m : Member) : Prop where
  consistent : m.node.Consistent (nodes id) parse
  hears : m.Hears parse fun other => net other ≠ none
  reads : ∀ beat ∈ m.node.reads, net beat.1 ≠ none
  peers : ∀ membership, m.node.membership = some membership →
    ∀ other ∈ membership.peers, net other ≠ none

/-- The nodes in the map are some of those whose heartbeats have been read. -/
theorem exists_read {node : Node} {st : NodeState} (h : st.Consistent node parse) {id : UUID}
    (hmem : id ∈ st.heartbeats.keys) : ∃ at_, (id, at_) ∈ st.reads := by
  obtain ⟨at_, hat⟩ := Heartbeats.mem_keys.mp hmem
  exact ⟨at_, h.timely.read _ hat⟩

theorem Truthful.evolves {id : UUID} {m m' : Member} (h : Truthful nodes parse net id m)
    (hgrows : ∀ other, net other ≠ none → net' other ≠ none)
    (hevolves : m.Evolves (nodes id) parse (fun other => net' other ≠ none) m') :
    Truthful nodes parse net' id m' := by
  have hhears : m.Hears parse fun other => net' other ≠ none := h.hears.mono hgrows
  have hconsistent := hevolves.consistent h.consistent
  obtain ⟨more, hreads, hmore⟩ := hevolves.reads
  have hread : ∀ beat ∈ m'.node.reads, net' beat.1 ≠ none := by
    intro beat hbeat
    rw [hreads] at hbeat
    rcases List.mem_append.mp hbeat with hold | hnew
    · exact hgrows _ (h.reads beat hold)
    · exact hmore hhears beat hnew
  refine ⟨hconsistent, hevolves.hears hhears, hread, ?_⟩
  intro membership hmembership other hother
  rcases hevolves.membership with hsame | hstopped | hpublished
  · rw [hsame] at hmembership
    exact hgrows _ (h.peers membership hmembership other hother)
  · cases hstopped.symm.trans hmembership
    cases hother
  · cases hpublished.symm.trans hmembership
    obtain ⟨at_, hat⟩ := exists_read hconsistent (List.mem_of_mem_filter hother)
    exact hread _ hat

theorem Truthful.fresh {id : UUID} {m : Member}
    (h : m.Fresh (nodes id) parse fun other => net other ≠ none) :
    Truthful nodes parse net id m where
  consistent := h.consistent
  hears := h.hears
  reads := by
    rw [h.reads]
    exact nofun
  peers := by
    rw [h.membership]
    exact nofun

theorem Reached.truthful (hid : ∀ id, (nodes id).id = id)
    (hparse : ∀ id : UUID, parse id.asString = some id) (h : Reached nodes parse net) :
    ∀ id m, net id = some m → Truthful nodes parse net id m := by
  have hpreserves : ∀ net net' : Network,
      (∀ id m, net id = some m → Truthful nodes parse net id m) → Step nodes parse net net' →
        ∀ id m, net' id = some m → Truthful nodes parse net' id m := by
    intro net net' hnet hstep id m' hm'
    have hevolves := hstep.evolves hid hparse fun _ hstarted _ => hstarted
    have hgrows : ∀ other, net other ≠ none → net' other ≠ none := by
      intro other hother
      obtain ⟨k, hk⟩ := Option.ne_none_iff_exists'.mp hother
      obtain ⟨k', hk', -⟩ := hevolves.old other k hk
      rw [hk']
      exact Option.some_ne_none k'
    cases hm : net id with
    | none => exact .fresh (hevolves.new id m' hm hm')
    | some m =>
        obtain ⟨k, hk, hmember⟩ := hevolves.old id m hm
        cases hk.symm.trans hm'
        exact (hnet id m hm).evolves hgrows hmember
  exact run_preserves hpreserves h nofun

/-- A node is never thought to be live unless it has been started: neither is it in the map of
any node, nor is it a peer in any membership that a node has published. -/
theorem live_nodes_started (hid : ∀ id, (nodes id).id = id)
    (hparse : ∀ id : UUID, parse id.asString = some id) (h : Reached nodes parse net) {id : UUID}
    {m : Member} (hm : net id = some m) :
    (∀ other ∈ m.node.heartbeats.keys, ∃ k, net other = some k) ∧
      ∀ membership, m.node.membership = some membership →
        ∀ other ∈ membership.peers, ∃ k, net other = some k := by
  have htruthful := h.truthful hid hparse id m hm
  refine ⟨?_, ?_⟩
  · intro other hmem
    obtain ⟨at_, hat⟩ := exists_read htruthful.consistent hmem
    exact Option.ne_none_iff_exists'.mp (htruthful.reads _ hat)
  · intro membership hmembership other hother
    exact Option.ne_none_iff_exists'.mp (htruthful.peers membership hmembership other hother)

end

/-- A parser that parses the texts of UUIDs and nothing else. -/
noncomputable def sampleParse : String → Option UUID := Function.partialInv UUID.asString

theorem sampleParse_asString (id : UUID) : sampleParse id.asString = some id :=
  Function.partialInv_left UUID.asString_injective id

/-- The node 1 before it reads a heartbeat of the node 2. -/
def sampleListening : NodeState :=
  { NodeState.start (.make heartbeatBufferSize [(uuid 2).asString] (by decide)) 0 with
    arrived := ["", (uuid 2).asString]
    taken := [""] }

/-- The node 1 after it has read a heartbeat of the node 2. -/
def sampleHeard (sent : Nat) : NodeState :=
  NodeState.publish (sampleNode (uuid 1))
    { (NodeState.start (.make heartbeatBufferSize [] (by decide)) 0).record (uuid 2) 0 with
      arrived := ["", (uuid 2).asString]
      taken := ["", (uuid 2).asString]
      sent := sent }

/-- Both nodes have been started, and the node 2 has stopped again. -/
theorem sample_reached : ∃ (net : Network) (sent : Nat) (stopped : Member),
    Reached sampleNode sampleParse net ∧
      net (uuid 1) = some
        { node := sampleHeard sent
          listening := true
          inFlight := []
          crashed := false } ∧
      net (uuid 2) = some stopped ∧ stopped.Stopped := by
  have hbeat : heartbeatOf sampleParse (uuid 2).asString = some (uuid 2) := by
    have hne : (uuid 2).asString ≠ "" := by decide
    rw [heartbeatOf, if_neg hne, sampleParse_asString]
  obtain ⟨sent, hhandle⟩ := handleHeartbeat_of_some (sampleNode (uuid 1))
    (sampleListening.took (uuid 2).asString (.make heartbeatBufferSize [] (by decide))) 0 hbeat
  have hheard : sampleListening.onSignal (sampleNode (uuid 1)) sampleParse (uuid 2).asString
      (.make heartbeatBufferSize [] (by decide)) 0 = sampleHeard sent := by
    rw [NodeState.onSignal, hhandle]
    rfl
  have hstep : NodeStep (sampleNode (uuid 1)) sampleParse sampleListening (sampleHeard sent) := by
    rw [← hheard]
    exact .heartbeat rfl rfl (Int.le_refl 0)
  have h : Reached sampleNode sampleParse start := .refl
  have h : Reached sampleNode sampleParse _ := h.tail
    (@Step.run _ _ _ (uuid 1) 0 true 0 rfl (by decide))
  have h : Reached sampleNode sampleParse _ := h.tail
    (@Step.node _ _ _ (uuid 1) _ _ 0 rfl rfl (.heartbeat rfl rfl (Int.le_refl 0)) rfl
      (Nat.zero_le _))
  have h : Reached sampleNode sampleParse _ := h.tail
    (@Step.run _ _ _ (uuid 2) 0 false 1 rfl (by decide))
  have h : Reached sampleNode sampleParse _ := h.tail
    (@Step.dispatch _ _ _ (uuid 1) _ _ _ _ _ rfl rfl
      (subtopicOf_append heartbeatTopic (uuid 2).asString) rfl)
  have h : Reached sampleNode sampleParse _ := h.tail
    (@Step.node _ _ _ (uuid 2) _ _ 0 rfl rfl (.canceled rfl) rfl (Nat.zero_le _))
  have h : Reached sampleNode sampleParse _ := h.tail
    (@Step.node _ _ _ (uuid 1) ⟨sampleListening, true, [], false⟩ (sampleHeard sent) 0 rfl rfl
      hstep rfl (Nat.zero_le _))
  exact ⟨_, sent, _, h, rfl, rfl, Or.inr rfl⟩

theorem live_nodes_started_heard : ∃ (net : Network) (m k : Member),
    Reached sampleNode sampleParse net ∧ net (uuid 1) = some m ∧
      uuid 2 ∈ m.node.heartbeats.keys ∧ net (uuid 2) = some k := by
  obtain ⟨net, sent, stopped, h, hm, -, -⟩ := sample_reached
  have hmem : uuid 2 ∈ (sampleHeard sent).heartbeats.keys := List.mem_singleton.mpr rfl
  obtain ⟨k, hk⟩ :=
    (live_nodes_started (fun _ => rfl) sampleParse_asString h hm).1 (uuid 2) hmem
  exact ⟨net, _, k, h, hm, hmem, hk⟩

/-! ## Nodes that have stopped -/

section

variable {nodes : UUID → Node} {parse : String → Option UUID} {net net' : Network}

/-- The node `a` has stopped, and since then the node `b` has read no heartbeat of it, beside
those that it had read before. -/
structure Silent (nodes : UUID → Node) (parse : String → Option UUID) (a b : UUID)
    (reads : List (UUID × Time)) (net : Network) : Prop where
  stopped : ∃ m, net a = some m ∧ m.Stopped
  silent : ∃ m more, net b = some m ∧ m.node.Consistent (nodes b) parse ∧
    m.Hears parse (fun other => other ≠ a) ∧ m.node.reads = reads ++ more ∧
    ∀ beat ∈ more, beat.1 ≠ a

theorem Silent.step (hid : ∀ id, (nodes id).id = id)
    (hparse : ∀ id : UUID, parse id.asString = some id) {a b : UUID}
    {reads : List (UUID × Time)} (h : Silent nodes parse a b reads net)
    (hstep : Step nodes parse net net') : Silent nodes parse a b reads net' := by
  obtain ⟨ma, hma, hstopped⟩ := h.stopped
  obtain ⟨mb, more, hmb, hconsistent, hhears, hreads, hmore⟩ := h.silent
  have hevolves : net.Evolves nodes parse (fun other => other ≠ a) net' := by
    refine hstep.evolves hid hparse ?_
    rintro id - hruns rfl
    exact hruns ma hma hstopped
  obtain ⟨ma', hma', hma''⟩ := hevolves.old a ma hma
  obtain ⟨mb', hmb', hmb''⟩ := hevolves.old b mb hmb
  obtain ⟨later, hlater, hlater'⟩ := hmb''.reads
  refine ⟨⟨ma', hma', hma''.stopped hstopped⟩, mb', more ++ later, hmb',
    hmb''.consistent hconsistent, hmb''.hears hhears, ?_, ?_⟩
  · rw [hlater, hreads, List.append_assoc]
  · intro beat hbeat
    rcases List.mem_append.mp hbeat with hold | hnew
    · exact hmore beat hold
    · exact hlater' hhears beat hnew

/-- A node that has stopped or crashed is found out.  Once no heartbeat of it is on its way to
another node, that node removes it at the first tick that is later than its timeout, and in
every tick that follows it is still gone. -/
theorem stopped_nodes_expire (hid : ∀ id, (nodes id).id = id)
    (hparse : ∀ id : UUID, parse id.asString = some id) (h : Reached nodes parse net)
    {a b : UUID} {ma mb mb' : Member} (hma : net a = some ma) (hstopped : ma.Stopped)
    (hmb : net b = some mb) (hquiet : mb.Hears parse fun other => other ≠ a)
    (hlater : Relation.ReflTransGen (Step nodes parse) net net') (hmb' : net' b = some mb')
    {changed : Bool} {now : Time} (hnow : mb'.node.now ≤ now)
    (hlate : mb.node.now + (nodes b).timeout < now) :
    a ∉ (mb'.node.onExpire (nodes b) changed now).heartbeats.keys := by
  have hconsistent := (h.truthful hid hparse b mb hmb).consistent
  have hstart : Silent nodes parse a b mb.node.reads net :=
    ⟨⟨ma, hma, hstopped⟩, mb, [], hmb, hconsistent, hquiet, (List.append_nil _).symm, nofun⟩
  obtain ⟨k, more, hk, hconsistent', -, hreads, hmore⟩ :=
    (run_preserves (fun _ _ h hstep => h.step hid hparse hstep) hlater hstart).silent
  cases hk.symm.trans hmb'
  have hkeys : a ∈ (mb'.node.onExpire (nodes b) changed now).heartbeats.keys ↔
      a ∈ (mb'.node.expireNodes (nodes b) now).1.heartbeats.keys := by
    unfold NodeState.onExpire
    dsimp only
    split
    · exact Iff.rfl
    · exact Iff.rfl
  rw [hkeys, hconsistent'.timely.mem_expireNodes hnow]
  rintro ⟨at_, hat, hrecent⟩
  rw [hreads] at hat
  rcases List.mem_append.mp hat with hold | hnew
  · -- The last heartbeat of `a` was read before, and its time is over.
    have hpast : at_ ≤ mb.node.now := hconsistent.timely.past _ hold
    have hlate' : mb.node.now + (nodes b).timeout < (nodes b).timeout + at_ :=
      lt_of_lt_of_le hlate (Int.le_add_of_sub_right_le hrecent)
    rw [Int.add_comm] at hlate'
    exact absurd hpast (Int.not_le.mpr (Int.lt_of_add_lt_add_left hlate'))
  · exact hmore _ hnew rfl

end

/-- The node 1 has read a heartbeat of the node 2 at the time 0, and finds out on a tick at the
time 4 that the node 2 has stopped. -/
theorem stopped_nodes_expire_stopped : ∃ (net : Network) (m : Member),
    Reached sampleNode sampleParse net ∧ net (uuid 1) = some m ∧
      m.node.phase = .expiring false ∧ uuid 2 ∈ m.node.heartbeats.keys ∧
      uuid 2 ∉ (m.node.onExpire (sampleNode (uuid 1)) false 4).heartbeats.keys := by
  obtain ⟨net, sent, stopped, h, hm, hstopped, hstopped'⟩ := sample_reached
  have hquiet : Member.Hears sampleParse (fun other => other ≠ uuid 2)
      ⟨sampleHeard sent, true, [], false⟩ := ⟨nofun, nofun⟩
  have hnow : (sampleHeard sent).now ≤ 4 := Int.le_of_lt (Int.ofNat_lt.mpr (by decide))
  have hlate : (sampleHeard sent).now + (sampleNode (uuid 1)).timeout < 4 :=
    Int.ofNat_lt.mpr (by decide)
  have hrun : Relation.ReflTransGen (Step sampleNode sampleParse) net net := .refl
  have hrun : Relation.ReflTransGen (Step sampleNode sampleParse) net _ := hrun.tail
    (@Step.node _ _ _ (uuid 1) _ _ 0 hm rfl (.tick rfl) rfl (Nat.zero_le _))
  have hrun : Relation.ReflTransGen (Step sampleNode sampleParse) net _ := hrun.tail
    (@Step.node _ _ _ (uuid 1) _ _ 0 rfl rfl (.drained rfl rfl) rfl (Nat.zero_le _))
  exact ⟨_, _, h.trans hrun, rfl, rfl, List.mem_singleton.mpr rfl,
    stopped_nodes_expire (fun _ => rfl) sampleParse_asString h hstopped hstopped' hm hquiet hrun
      rfl hnow hlate⟩

end Network

end Runkit.Cluster
