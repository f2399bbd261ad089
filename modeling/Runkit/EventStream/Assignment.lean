/-
  EventStream/Assignment.lean --- which node of a cluster consumes a stream.

  Source: Consumer.Run of internal/eventstream/consumer.go, Node.Membership of
  internal/cluster/node.go, StreamIDs and publish of internal/eventstream/catalog.go.

  `Consumer.Run` loads the stream IDs and then the membership, reconciles the stream consumers
  with both, and waits until one of the two changes.  Meanwhile the node goes on publishing
  memberships, streams come and go, and the stream consumers run.

  A consumer is at rest when it waits and neither has changed.  Nothing that was published is
  lost on the way, so a consumer at rest has reconciled with what is current.  The engines of
  a cluster share nothing but their heartbeats, any of which may be delayed or lost: each
  engine is in any state that it can reach alone, and whatever holds of all such states holds
  however the engines interleave.

  An engine has a consumer for each handler that consumes events; the model is of one handler.
-/
import Runkit.Cluster.Heartbeats
import Runkit.EventStream.Cache
import Runkit.EventStream.Reconcile

set_option autoImplicit false

namespace Runkit.EventStream

open Runkit.Foundation Runkit.Cluster

/-! ## Observables -/

namespace Observable

variable {α : Type} {o o' : Observable α} {value : α} {version : Nat}

/-- The value has been loaded with the version, at some time in the past. -/
structure Loaded (o : Observable α) (value : α) (version : Nat) : Prop where
  le : version ≤ o.version
  current : version = o.version → value = o.value

theorem loaded_self (o : Observable α) : o.Loaded o.value o.version :=
  ⟨Nat.le_refl _, fun _ => rfl⟩

theorem loaded_store (o : Observable α) (value : α) : (o.store value).Loaded o.value o.version :=
  ⟨Nat.le_succ _, fun heq => absurd heq.symm (Nat.succ_ne_self _)⟩

/-- What has been loaded stays so while the value is replaced. -/
theorem Loaded.trans (h : o.Loaded value version) (hlater : o'.Loaded o.value o.version) :
    o'.Loaded value version := by
  refine ⟨Nat.le_trans h.le hlater.le, ?_⟩
  intro heq
  have hversion : o.version = o'.version := Nat.le_antisymm hlater.le (heq ▸ h.le)
  rw [h.current (heq.trans hversion.symm), hlater.current hversion]

end Observable

/-- `Catalog.publish`. -/
def publishStreamID (streamIDs : Observable (Finset UUID)) (id : UUID) (present : Bool) :
    Observable (Finset UUID) :=
  if decide (id ∈ streamIDs.value) = present then streamIDs
  else if present then streamIDs.store (insert id streamIDs.value)
  else streamIDs.store (streamIDs.value.erase id)

theorem loaded_publishStreamID (streamIDs : Observable (Finset UUID)) (id : UUID)
    (present : Bool) :
    (publishStreamID streamIDs id present).Loaded streamIDs.value streamIDs.version := by
  unfold publishStreamID
  split
  · exact streamIDs.loaded_self
  · split
    · exact streamIDs.loaded_store _
    · exact streamIDs.loaded_store _

/-- `Node.Membership`. -/
def nodeMembership (st : NodeState) : Observable (Option Membership) where
  value := st.membership
  version := st.stores

/-- A step of the node replaces its membership or leaves it. -/
theorem loaded_nodeStep {node : Node} {parse : String → Option UUID} {st st' : NodeState}
    (hstep : NodeStep node parse st st') :
    (nodeMembership st').Loaded st.membership st.stores := by
  have hpublishIf : ∀ (changed : Bool) (st₁ : NodeState), st₁.membership = st.membership →
      st₁.stores = st.stores →
        (nodeMembership (if changed then st₁.publish node else st₁)).Loaded st.membership
          st.stores := by
    intro changed st₁ hmembership hstores
    rw [← hmembership, ← hstores]
    split
    · exact (nodeMembership st₁).loaded_store _
    · exact (nodeMembership st₁).loaded_self
  cases hstep with
  | signal hsend => exact (nodeMembership st).loaded_self
  | close => exact (nodeMembership st).loaded_self
  | @heartbeat signal channel now hphase hreceive hnow =>
      have hupdates := handleHeartbeat_updates node parse (st.took signal channel) signal now
      exact hpublishIf _ _ hupdates.membership hupdates.stores
  | tick hphase => exact (nodeMembership st).loaded_self
  | @drain changed signal channel now hphase hreceive hnow =>
      have hupdates := handleHeartbeat_updates node parse (st.took signal channel) signal now
      exact hpublishIf false { (NodeState.handleHeartbeat node parse (st.took signal channel)
        signal now).1 with phase := _ } hupdates.membership hupdates.stores
  | drained hphase hreceive => exact (nodeMembership st).loaded_self
  | @expire changed now hphase hnow => exact hpublishIf _ _ rfl rfl
  | canceled hphase => exact (nodeMembership st).loaded_store _
  | closed hphase hreceive => exact (nodeMembership st).loaded_store _

/-! ## The consumer -/

/-- Where `Consumer.Run` is.  The versions are those of the stream IDs and of the membership
that it has loaded. -/
inductive ConsumerRunPhase where
  /-- At the top of the loop. -/
  | loading
  | loadedStreamIDs (streamIDs : Finset UUID) (streamsVersion : Nat)
  | loaded (streamIDs : Finset UUID) (streamsVersion : Nat) (membership : Option Membership)
      (membershipVersion : Nat)
  /-- In `reconcile`. -/
  | reconciling (streamsVersion membershipVersion : Nat)
  | select (streamsVersion membershipVersion : Nat)
  /-- In `group.Wait`. -/
  | waiting
  | returned (err : RunError)

/-- A consumer, with the node and the stream IDs of its engine. -/
structure NodeConsumer where
  node : NodeState
  streamIDs : Observable (Finset UUID)
  phase : ConsumerRunPhase
  reconciler : Reconciler

namespace NodeConsumer

/-- The state in which `Consumer.Run` is called.  The stream IDs are nil, which is an empty
set. -/
def start (node : NodeState) : NodeConsumer where
  node := node
  streamIDs := { value := ∅, version := 0 }
  phase := .loading
  reconciler := .start

/-- One step of the engine. -/
inductive Step (hash : Bytes → UInt64) (less : UUID → UUID → Bool) (workload : UUID → UUID)
    (node : Node) (parse : String → Option UUID) : NodeConsumer → NodeConsumer → Prop where
  | node {c : NodeConsumer} {st : NodeState} (hstep : NodeStep node parse c.node st) :
      Step hash less workload node parse c { c with node := st }
  | publish {c : NodeConsumer} {id : UUID} {present : Bool} :
      Step hash less workload node parse c
        { c with streamIDs := publishStreamID c.streamIDs id present }
  | loadStreamIDs {c : NodeConsumer} (hphase : c.phase = .loading) :
      Step hash less workload node parse c
        { c with phase := .loadedStreamIDs c.streamIDs.value c.streamIDs.version }
  | loadMembership {c : NodeConsumer} {streamIDs : Finset UUID} {streamsVersion : Nat}
      (hphase : c.phase = .loadedStreamIDs streamIDs streamsVersion) :
      Step hash less workload node parse c
        { c with
          phase := .loaded streamIDs streamsVersion (nodeMembership c.node).value
            (nodeMembership c.node).version }
  /-- `reconcile` is called, with what has been loaded. -/
  | reconcile {c : NodeConsumer} {streamIDs : Finset UUID} {membership : Option Membership}
      {streamsVersion membershipVersion : Nat} {order : List UUID}
      (hphase : c.phase = .loaded streamIDs streamsVersion membership membershipVersion)
      (horder : ∀ streamID, streamID ∈ order ↔ streamID ∈ c.reconciler.stopStreamConsumer) :
      Step hash less workload node parse c
        { c with
          phase := .reconciling streamsVersion membershipVersion
          reconciler := { c.reconciler with
            phase := .stopping
              { streamIDs := streamIDs, membership := membership,
                before := c.reconciler.consumers } order } }
  /-- Any other step of `reconcile`, of a stop function or of a stream consumer. -/
  | reconciler {c : NodeConsumer} {st : Reconciler}
      (hstep : Reconciler.Step hash less workload c.reconciler st)
      (hsame : c.reconciler.phase.idle → st.phase = c.reconciler.phase) :
      Step hash less workload node parse c { c with reconciler := st }
  | reconciled {c : NodeConsumer} {streamsVersion membershipVersion : Nat} {call : ReconcileCall}
      (hphase : c.phase = .reconciling streamsVersion membershipVersion)
      (hreturned : c.reconciler.phase = .returned call) :
      Step hash less workload node parse c
        { c with phase := .select streamsVersion membershipVersion }
  | streamIDsChanged {c : NodeConsumer} {streamsVersion membershipVersion : Nat}
      (hphase : c.phase = .select streamsVersion membershipVersion)
      (hchanged : c.streamIDs.version ≠ streamsVersion) :
      Step hash less workload node parse c { c with phase := .loading }
  | membershipChanged {c : NodeConsumer} {streamsVersion membershipVersion : Nat}
      (hphase : c.phase = .select streamsVersion membershipVersion)
      (hchanged : (nodeMembership c.node).version ≠ membershipVersion) :
      Step hash less workload node parse c { c with phase := .loading }
  | done {c : NodeConsumer} {streamsVersion membershipVersion : Nat}
      (hphase : c.phase = .select streamsVersion membershipVersion)
      (hdone : c.reconciler.ctxDone = true) :
      Step hash less workload node parse c { c with phase := .waiting }
  /-- Every stream consumer has returned.  If one has failed, its error is returned, and else
  that of the context. -/
  | returns {c : NodeConsumer} {err : RunError} (hphase : c.phase = .waiting)
      (hstopped : ∀ i k, c.reconciler.consumers i = some k → ¬ k.Running)
      (herr : err = .fatal ↔ ∃ i k, c.reconciler.consumers i = some k ∧ k.Failed) :
      Step hash less workload node parse c { c with phase := .returned err }

/-- The state is reached in some run of the engine. -/
def Reached (hash : Bytes → UInt64) (less : UUID → UUID → Bool) (workload : UUID → UUID)
    (node : Node) (parse : String → Option UUID) (c : NodeConsumer) : Prop :=
  ∃ channel now,
    Relation.ReflTransGen (Step hash less workload node parse) (start (.start channel now)) c

theorem Reached.tail {hash : Bytes → UInt64} {less : UUID → UUID → Bool}
    {workload : UUID → UUID} {node : Node} {parse : String → Option UUID} {c c' : NodeConsumer}
    (h : c.Reached hash less workload node parse)
    (hstep : Step hash less workload node parse c c') :
    c'.Reached hash less workload node parse := by
  obtain ⟨channel, now, hrun⟩ := h
  exact ⟨channel, now, hrun.tail hstep⟩

/-- The consumer waits, and nothing that it waits for has happened. -/
def AtRest (c : NodeConsumer) : Prop :=
  c.phase = .select c.streamIDs.version (nodeMembership c.node).version

end NodeConsumer

/-! ## Calls of `reconcile` by the consumer -/

namespace Reconciler

section

variable {hash : Bytes → UInt64} {less : UUID → UUID → Bool} {workload : UUID → UUID}
  {st st' : Reconciler}

/-- Only a call of `reconcile` changes which call it is. -/
theorem Step.call_eq (hstep : Step hash less workload st st')
    (hsame : st.phase.idle → st'.phase = st.phase) : st'.phase.call = st.phase.call := by
  cases hstep with
  | reconcile hphase _ => rw [hsame hphase]
  | keep hphase _ => rw [hphase]; rfl
  | go hphase _ _ => rw [hphase]; rfl
  | wait hphase => rw [hphase]; rfl
  | waited hphase _ _ => rw [hphase]; rfl
  | skip hphase _ => rw [hphase]; rfl
  | startStreamConsumer hphase _ _ => rw [hphase]; rfl
  | set hphase => rw [hphase]; rfl
  | returns hphase => rw [hphase]; rfl
  | cancel _ _ => rfl
  | stopped _ _ _ => rfl
  | consumer _ _ => rfl
  | cancelContext => rfl

/-- Stream consumers are started by `reconcile` alone. -/
theorem Step.stopped_of_idle (hstep : Step hash less workload st st') (hidle : st.phase.idle)
    (hstopped : ∀ i k, st.consumers i = some k → ¬ k.Running) :
    ∀ i k, st'.consumers i = some k → ¬ k.Running := by
  cases hstep with
  | reconcile _ _ => exact hstopped
  | keep _ _ => exact hstopped
  | go _ _ _ => exact hstopped
  | wait _ => exact hstopped
  | waited _ _ _ => exact hstopped
  | skip _ _ => exact hstopped
  | startStreamConsumer hphase _ _ =>
      rw [hphase] at hidle
      exact hidle.elim
  | set _ => exact hstopped
  | returns _ => exact hstopped
  | @cancel i k before after _ hconsumer =>
      intro j k' hconsumer'
      rcases update_eq_some hconsumer' with ⟨-, hk⟩ | ⟨-, hother⟩
      · cases hk
        exact hstopped i k hconsumer
      · exact hstopped j k' hother
  | stopped _ _ _ => exact hstopped
  | @consumer i k k' hconsumer hstep => exact absurd hstep.running (hstopped i k hconsumer)
  | cancelContext => exact hstopped

theorem Invariant.step (h : st.Invariant hash less workload)
    (hstep : Step hash less workload st st') : st'.Invariant hash less workload :=
  ⟨h.tracked.step h.staged hstep, h.staged.step h.tracked hstep⟩

/-- After a call, only streams are consumed that it was given and that the node is
responsible for. -/
theorem Invariant.mem_responsible (h : st.Invariant hash less workload) {call : ReconcileCall}
    (hphase : st.phase = .returned call) {streamID : UUID} (hconsumed : st.Consumed streamID) :
    streamID ∈ responsible hash less workload call.streamIDs call.membership := by
  obtain ⟨i, k, hconsumer, rfl, hrunning⟩ := hconsumed
  have hidle : st.phase.idle := by
    rw [hphase]
    trivial
  have hlookup := h.tracked.lookup_of_idle h.staged hidle hconsumer hrunning
  have hstaged := h.staged
  rw [Staged, hphase] at hstaged
  exact hstaged.2.1.has _ (Finmap.mem_iff.mpr ⟨i, hlookup⟩)

/-- And all of these are. -/
theorem Invariant.consumed (h : st.Invariant hash less workload) {call : ReconcileCall}
    (hphase : st.phase = .returned call) (hlive : st.Live) {streamID : UUID}
    (hresponsible : streamID ∈ responsible hash less workload call.streamIDs call.membership) :
    st.Consumed streamID := by
  have hstaged := h.staged
  rw [Staged, hphase] at hstaged
  have hmem := (hstaged.2.1.all streamID hresponsible).resolve_right List.not_mem_nil
  obtain ⟨i, hlookup⟩ := Finmap.mem_iff.mp hmem
  obtain ⟨k, hconsumer, hstream, hsupervised⟩ := h.tracked.supervised hlive hlookup
  exact ⟨i, k, hconsumer, hstream, hsupervised.running⟩

end

end Reconciler

/-! ## What has been loaded -/

namespace NodeConsumer

/-- What has been loaded was current at some time, and is what `reconcile` is called with. -/
def Phased (c : NodeConsumer) : Prop :=
  match c.phase with
  | .loading => c.reconciler.phase.idle
  | .loadedStreamIDs streamIDs streamsVersion =>
      c.reconciler.phase.idle ∧ c.streamIDs.Loaded streamIDs streamsVersion
  | .loaded streamIDs streamsVersion membership membershipVersion =>
      c.reconciler.phase.idle ∧ c.streamIDs.Loaded streamIDs streamsVersion ∧
        (nodeMembership c.node).Loaded membership membershipVersion
  | .reconciling streamsVersion membershipVersion =>
      ∃ call, c.reconciler.phase.call = some call ∧
        c.streamIDs.Loaded call.streamIDs streamsVersion ∧
        (nodeMembership c.node).Loaded call.membership membershipVersion
  | .select streamsVersion membershipVersion =>
      ∃ call, c.reconciler.phase = .returned call ∧
        c.streamIDs.Loaded call.streamIDs streamsVersion ∧
        (nodeMembership c.node).Loaded call.membership membershipVersion
  | .waiting => c.reconciler.phase.idle
  | .returned _ =>
      c.reconciler.phase.idle ∧ ∀ i k, c.reconciler.consumers i = some k → ¬ k.Running

section

variable {hash : Bytes → UInt64} {less : UUID → UUID → Bool} {workload : UUID → UUID}
  {node : Node} {parse : String → Option UUID} {c c' : NodeConsumer}

/-- Nothing is lost while the engine publishes. -/
theorem Phased.later (h : c.Phased) (hphase : c'.phase = c.phase)
    (hreconciler : c'.reconciler = c.reconciler)
    (hstreams : c'.streamIDs.Loaded c.streamIDs.value c.streamIDs.version)
    (hmembership : (nodeMembership c'.node).Loaded (nodeMembership c.node).value
      (nodeMembership c.node).version) : c'.Phased := by
  unfold Phased at h ⊢
  rw [hphase, hreconciler]
  cases hcase : c.phase <;> rw [hcase] at h
  case loading => exact h
  case loadedStreamIDs => exact ⟨h.1, h.2.trans hstreams⟩
  case loaded => exact ⟨h.1, h.2.1.trans hstreams, h.2.2.trans hmembership⟩
  case reconciling =>
    obtain ⟨call, hcall, hids, hmember⟩ := h
    exact ⟨call, hcall, hids.trans hstreams, hmember.trans hmembership⟩
  case select =>
    obtain ⟨call, hcall, hids, hmember⟩ := h
    exact ⟨call, hcall, hids.trans hstreams, hmember.trans hmembership⟩
  case waiting => exact h
  case returned => exact h

/-- A step of the reconciler that is not a call of `reconcile`. -/
theorem Phased.reconciler (h : c.Phased) {st : Reconciler}
    (hstep : Reconciler.Step hash less workload c.reconciler st)
    (hsame : c.reconciler.phase.idle → st.phase = c.reconciler.phase) :
    { c with reconciler := st }.Phased := by
  have hidle : c.reconciler.phase.idle → st.phase.idle := by
    intro hidle
    rwa [hsame hidle]
  unfold Phased at h ⊢
  dsimp only
  cases hcase : c.phase <;> rw [hcase] at h <;> dsimp only at h ⊢
  case loading => exact hidle h
  case loadedStreamIDs => exact ⟨hidle h.1, h.2⟩
  case loaded => exact ⟨hidle h.1, h.2⟩
  case reconciling =>
    obtain ⟨call, hcall, hloaded⟩ := h
    exact ⟨call, (hstep.call_eq hsame).trans hcall, hloaded⟩
  case select =>
    obtain ⟨call, hcall, hloaded⟩ := h
    have hreturned : c.reconciler.phase.idle := by
      rw [hcall]
      trivial
    exact ⟨call, (hsame hreturned).trans hcall, hloaded⟩
  case waiting => exact hidle h
  case returned => exact ⟨hidle h.1, hstep.stopped_of_idle h.1 h.2⟩

theorem Phased.step (h : c.Phased) (hstep : Step hash less workload node parse c c') :
    c'.Phased := by
  cases hstep with
  | node hstep => exact h.later rfl rfl c.streamIDs.loaded_self (loaded_nodeStep hstep)
  | publish =>
      exact h.later rfl rfl (loaded_publishStreamID ..) (nodeMembership c.node).loaded_self
  | loadStreamIDs hphase =>
      rw [Phased, hphase] at h
      exact ⟨h, c.streamIDs.loaded_self⟩
  | loadMembership hphase =>
      rw [Phased, hphase] at h
      exact ⟨h.1, h.2, (nodeMembership c.node).loaded_self⟩
  | reconcile hphase _ =>
      rw [Phased, hphase] at h
      exact ⟨_, rfl, h.2⟩
  | reconciler hstep hsame => exact h.reconciler hstep hsame
  | @reconciled streamsVersion membershipVersion call hphase hreturned =>
      rw [Phased, hphase] at h
      obtain ⟨call', hcall, hloaded⟩ := h
      rw [hreturned] at hcall
      cases hcall
      exact ⟨call, hreturned, hloaded⟩
  | streamIDsChanged hphase _ =>
      rw [Phased, hphase] at h
      obtain ⟨call, hcall, -⟩ := h
      change c.reconciler.phase.idle
      rw [hcall]
      trivial
  | membershipChanged hphase _ =>
      rw [Phased, hphase] at h
      obtain ⟨call, hcall, -⟩ := h
      change c.reconciler.phase.idle
      rw [hcall]
      trivial
  | done hphase _ =>
      rw [Phased, hphase] at h
      obtain ⟨call, hcall, -⟩ := h
      change c.reconciler.phase.idle
      rw [hcall]
      trivial
  | returns hphase hstopped _ =>
      rw [Phased, hphase] at h
      exact ⟨h, hstopped⟩

/-! ## Every run -/

/-- What holds in every state that is reached. -/
structure Invariant (hash : Bytes → UInt64) (less : UUID → UUID → Bool)
    (workload : UUID → UUID) (node : Node) (parse : String → Option UUID) (c : NodeConsumer) :
    Prop where
  node : c.node.Consistent node parse
  reconciler : c.reconciler.Invariant hash less workload
  phased : c.Phased

theorem Invariant.step (h : c.Invariant hash less workload node parse)
    (hstep : Step hash less workload node parse c c') :
    c'.Invariant hash less workload node parse := by
  have hphased := h.phased.step hstep
  cases hstep with
  | node hstep => exact ⟨h.node.step hstep, h.reconciler, hphased⟩
  | @reconcile streamIDs membership streamsVersion membershipVersion order hphase horder =>
      have hidle : c.reconciler.phase.idle := by
        have hloaded := h.phased
        rw [Phased, hphase] at hloaded
        exact hloaded.1
      exact ⟨h.node, h.reconciler.step (.reconcile hidle horder), hphased⟩
  | reconciler hstep _ => exact ⟨h.node, h.reconciler.step hstep, hphased⟩
  | publish => exact ⟨h.node, h.reconciler, hphased⟩
  | loadStreamIDs _ => exact ⟨h.node, h.reconciler, hphased⟩
  | loadMembership _ => exact ⟨h.node, h.reconciler, hphased⟩
  | reconciled _ _ => exact ⟨h.node, h.reconciler, hphased⟩
  | streamIDsChanged _ _ => exact ⟨h.node, h.reconciler, hphased⟩
  | membershipChanged _ _ => exact ⟨h.node, h.reconciler, hphased⟩
  | done _ _ => exact ⟨h.node, h.reconciler, hphased⟩
  | returns _ _ _ => exact ⟨h.node, h.reconciler, hphased⟩

theorem Reached.invariant (h : c.Reached hash less workload node parse) :
    c.Invariant hash less workload node parse := by
  obtain ⟨channel, now, hrun⟩ := h
  have hstart : (start (.start channel now)).Invariant hash less workload node parse :=
    ⟨.start channel now, Reconciler.Reached.invariant .refl, trivial⟩
  exact run_preserves (fun _ _ h hstep => h.step hstep) hrun hstart

/-- A consumer at rest has reconciled with what is current. -/
theorem Invariant.current (h : c.Invariant hash less workload node parse) (hrest : c.AtRest) :
    ∃ call, c.reconciler.phase = .returned call ∧ call.streamIDs = c.streamIDs.value ∧
      call.membership = c.node.membership := by
  have hphased := h.phased
  rw [Phased, hrest] at hphased
  obtain ⟨call, hcall, hstreams, hmembership⟩ := hphased
  exact ⟨call, hcall, hstreams.current rfl, hmembership.current rfl⟩

/-- It consumes no stream but those that the node is responsible for. -/
theorem Invariant.responsible_of_consumed (h : c.Invariant hash less workload node parse)
    (hrest : c.AtRest) {streamID : UUID} (hconsumed : c.reconciler.Consumed streamID) :
    Membership.localNodeIsResponsibleFor hash less c.node.membership (workload streamID) =
      true := by
  obtain ⟨call, hphase, -, hmembership⟩ := h.current hrest
  rw [← hmembership]
  exact (Finset.mem_filter.mp (h.reconciler.mem_responsible hphase hconsumed)).2

theorem Invariant.consumed_iff (h : c.Invariant hash less workload node parse)
    (hrest : c.AtRest) (hlive : c.reconciler.Live) {streamID : UUID}
    (hstream : streamID ∈ c.streamIDs.value) :
    c.reconciler.Consumed streamID ↔
      Membership.localNodeIsResponsibleFor hash less c.node.membership (workload streamID) =
        true := by
  constructor
  · exact h.responsible_of_consumed hrest
  · intro hresponsible
    obtain ⟨call, hphase, hstreams, hmembership⟩ := h.current hrest
    rw [← hmembership] at hresponsible
    rw [← hstreams] at hstream
    exact h.reconciler.consumed hphase hlive (Finset.mem_filter.mpr ⟨hstream, hresponsible⟩)

end

end NodeConsumer

/-! ## The cluster -/

/-- A node that waits, and has its own heartbeat, has published that the nodes are live whose
heartbeats it has. -/
theorem sees_of_published {node : Node} {st : NodeState} (h : st.Published node)
    (hself : node.id ∈ st.heartbeats.keys) :
    ∃ m, st.membership = some m ∧ Sees st.heartbeats.keys.toFinset node.id m := by
  unfold NodeState.Published at h
  cases hmembership : st.membership with
  | none =>
      rw [hmembership] at h
      exact absurd hself (h node.id)
  | some m =>
      rw [hmembership] at h
      obtain ⟨hid, hlive, hpeers⟩ := h
      refine ⟨m, rfl, hid, ?_⟩
      ext id
      rw [Membership.liveNodes, if_pos (hlive.mpr hself), Finset.mem_insert, List.mem_toFinset,
        List.mem_toFinset, hpeers id, hid]
      constructor
      · rintro (rfl | ⟨hmem, -⟩)
        · exact hself
        · exact hmem
      · intro hmem
        by_cases heq : id = node.id
        · exact Or.inl heq
        · exact Or.inr ⟨hmem, heq⟩

namespace NodeConsumer

/-- The consumer is at rest and has not failed, and its node waits, with the heartbeats of the
given nodes. -/
structure Settled (live : Finset UUID) (c : NodeConsumer) : Prop where
  rest : c.AtRest
  running : c.reconciler.Live
  select : c.node.phase = .select
  beats : ∀ id, id ∈ c.node.heartbeats.keys ↔ id ∈ live

section

variable {hash : Bytes → UInt64} {less : UUID → UUID → Bool} {workload : UUID → UUID}
  {node : Node} {parse : String → Option UUID} {c : NodeConsumer}

theorem Invariant.published (h : c.Invariant hash less workload node parse)
    (hselect : c.node.phase = .select) : c.node.Published node :=
  h.node.published (by rw [hselect]; nofun) (by rw [hselect]; rfl)

/-- The consumers that have settled divide the streams by the rank of their nodes. -/
theorem Settled.consumed_iff [IsStrictTotalOrder UUID fun a b => less a b = true]
    {live : Finset UUID} (h : c.Settled live)
    (hinv : c.Invariant hash less workload node parse) (hnode : node.id ∈ live) {streamID : UUID}
    (hstream : streamID ∈ c.streamIDs.value) :
    c.reconciler.Consumed streamID ↔
      Chosen (Ranks hash less (workload streamID)) live node.id := by
  have hkeys : c.node.heartbeats.keys.toFinset = live := by
    ext id
    rw [List.mem_toFinset, h.beats id]
  obtain ⟨m, hmembership, hsees⟩ :=
    sees_of_published (hinv.published h.select) ((h.beats node.id).mpr hnode)
  rw [hkeys] at hsees
  rw [hinv.consumed_iff h.rest h.running hstream, hmembership]
  exact hsees.responsible_iff hnode

/-- A consumer at rest consumes no stream for which a node ranks higher whose heartbeat its
node has. -/
theorem Invariant.not_ranks (h : c.Invariant hash less workload node parse) (hrest : c.AtRest)
    (hselect : c.node.phase = .select) {streamID id : UUID}
    (hconsumed : c.reconciler.Consumed streamID) (hbeat : id ∈ c.node.heartbeats.keys)
    (hother : id ≠ node.id) : ¬ Ranks hash less (workload streamID) id node.id := by
  have hresponsible := h.responsible_of_consumed hrest hconsumed
  have hpublished := h.published hselect
  unfold NodeState.Published at hpublished
  cases hmembership : c.node.membership with
  | none =>
      rw [hmembership] at hresponsible
      cases hresponsible
  | some m =>
      rw [hmembership] at hresponsible hpublished
      obtain ⟨hid, -, hpeers⟩ := hpublished
      rw [← hid]
      exact (responsible_iff.mp hresponsible).2 id ((hpeers id).mpr ⟨hbeat, hother⟩)

/-- The streams that the consumers of a cluster consume.  Wherever the consumers have settled
with the same heartbeats, each stream that all of them know is consumed by exactly one.
Consumers at rest whose nodes have each other's heartbeats do not consume the same stream, even
if nothing else is the same to them.  A consumer consumes nothing after its node has stopped,
once it is at rest, nor after it has itself returned. -/
theorem streams_consumed_once [IsStrictTotalOrder UUID fun a b => less a b = true]
    {nodes : UUID → Node} {cluster : UUID → NodeConsumer} (hid : ∀ id, (nodes id).id = id)
    (hreached : ∀ id, (cluster id).Reached hash less workload (nodes id) parse) :
    (∀ live : Finset UUID, live.Nonempty → (∀ id ∈ live, (cluster id).Settled live) →
      ∀ streamID, (∀ id ∈ live, streamID ∈ (cluster id).streamIDs.value) →
        ∃! id, id ∈ live ∧ (cluster id).reconciler.Consumed streamID) ∧
      (∀ a b, a ≠ b → (cluster a).AtRest → (cluster b).AtRest →
        (cluster a).node.phase = .select → (cluster b).node.phase = .select →
        b ∈ (cluster a).node.heartbeats.keys → a ∈ (cluster b).node.heartbeats.keys →
          ∀ streamID, ¬ ((cluster a).reconciler.Consumed streamID ∧
            (cluster b).reconciler.Consumed streamID)) ∧
      (∀ id, (cluster id).AtRest → (cluster id).node.phase = .returned →
        ∀ streamID, ¬ (cluster id).reconciler.Consumed streamID) ∧
      ∀ id err, (cluster id).phase = .returned err →
        ∀ streamID, ¬ (cluster id).reconciler.Consumed streamID := by
  have hinv := fun id => (hreached id).invariant
  refine ⟨?_, ?_, ?_, ?_⟩
  · intro live hnonempty hsettled streamID hstream
    have hchosen : ∀ id ∈ live, (cluster id).reconciler.Consumed streamID ↔
        Chosen (Ranks hash less (workload streamID)) live id := by
      intro id hmem
      have hiff := (hsettled id hmem).consumed_iff (hinv id) ((hid id).symm ▸ hmem)
        (hstream id hmem)
      rwa [hid id] at hiff
    obtain ⟨id, hbest⟩ : ∃ id, Chosen (Ranks hash less (workload streamID)) live id :=
      exists_chosen hnonempty
    refine ⟨id, ⟨hbest.candidate, (hchosen id hbest.candidate).mpr hbest⟩, ?_⟩
    rintro other ⟨hmem, hconsumed⟩
    exact ((hchosen other hmem).mp hconsumed).unique hbest
  · rintro a b hne hresta hrestb hselecta hselectb hbeata hbeatb streamID ⟨hconsumeda, hconsumedb⟩
    have ha := (hinv a).not_ranks hresta hselecta hconsumeda hbeata (by rw [hid]; exact hne.symm)
    have hb := (hinv b).not_ranks hrestb hselectb hconsumedb hbeatb (by rw [hid]; exact hne)
    rw [hid] at ha hb
    obtain hrank | hrank : Ranks hash less (workload streamID) a b ∨
        Ranks hash less (workload streamID) b a := outranks_of_ne hne
    · exact hb hrank
    · exact ha hrank
  · intro id hrest hstopped streamID hconsumed
    have hresponsible := (hinv id).responsible_of_consumed hrest hconsumed
    rw [(hinv id).node.stopped hstopped] at hresponsible
    cases hresponsible
  · rintro id err hreturned streamID ⟨i, k, hconsumer, -, hrunning⟩
    have hphased := (hinv id).phased
    rw [Phased, hreturned] at hphased
    exact hphased.2 i k hconsumer hrunning

end

def pairParse (signal : String) : Option UUID :=
  some (if signal.length = 1 then uuid 1 else uuid 2)

/-- A node that has read the heartbeats of both. -/
def pairState (id : UUID) : NodeState :=
  ((NodeState.start (.make 64 ["a", "bb"] (by decide)) 0).onSignal (sampleNode id) pairParse "a"
    (.make 64 ["bb"] (by decide)) 0).onSignal (sampleNode id) pairParse "bb"
      (.make 64 [] (by decide)) 0

/-- The call of `reconcile` once a stream has been published. -/
def pairCall (id : UUID) : ReconcileCall where
  streamIDs := {uuid 100}
  membership := some (publishMembershipChange id [uuid 1, uuid 2])
  before := fun _ => none

/-- A consumer at the given place in this call. -/
def pairConsumer (id : UUID) (phase : ConsumerRunPhase) (reconciler : Reconciler) :
    NodeConsumer where
  node := pairState id
  streamIDs := { value := {uuid 100}, version := 1 }
  phase := phase
  reconciler := reconciler

abbrev PairReached (c : NodeConsumer) (id : UUID) : Prop :=
  c.Reached (fun _ => 0) lexicographic (fun streamID => streamID) (sampleNode id) pairParse

/-- Both consumers call `reconcile`, which has nothing to stop. -/
theorem pairConsumer_calls {id : UUID} (hid : id = uuid 1 ∨ id = uuid 2) {order : List UUID}
    (horder : ∀ streamID, streamID ∈ order ↔ streamID ∈ responsible (fun _ => 0) lexicographic
      (fun streamID => streamID) (pairCall id).streamIDs (pairCall id).membership) :
    PairReached (pairConsumer id (.reconciling 1 2)
      { Reconciler.start with phase := .starting (pairCall id) order }) id := by
  have hnone : ∀ streamID, streamID ∈ [] ↔ streamID ∈ Reconciler.start.stopStreamConsumer :=
    fun streamID => ⟨fun hmem => absurd hmem List.not_mem_nil,
      fun hmem => absurd hmem Finmap.notMem_empty⟩
  have h : PairReached (start (.start (.make 64 ["a", "bb"] (by decide)) 0)) id :=
    ⟨_, _, .refl⟩
  have h := h.tail (.node (.heartbeat rfl rfl (Int.le_refl 0)))
  rcases hid with rfl | rfl
  all_goals
    have h := h.tail (.node (.heartbeat rfl rfl (Int.le_refl 0)))
    have h := h.tail (@Step.publish _ _ _ _ _ _ (uuid 100) true)
    have h := h.tail (.loadStreamIDs rfl)
    have h := h.tail (.loadMembership rfl)
    have h := h.tail (.reconcile rfl hnone)
    have h := h.tail (.reconciler (.wait rfl) nofun)
    exact h.tail (.reconciler (.waited rfl rfl horder) nofun)

/-- The first of the nodes is responsible for the stream, since its ID is the lower one. -/
def pairFirst : NodeConsumer :=
  pairConsumer (uuid 1) (.select 1 2)
    { Reconciler.start.setConsumer 0
        { streamID := uuid 100, canceled := false, phase := .calling } with
      stopStreamConsumer := Reconciler.start.stopStreamConsumer.insert (uuid 100) 0
      phase := .returned (pairCall (uuid 1)) }

def pairSecond : NodeConsumer :=
  pairConsumer (uuid 2) (.select 1 2)
    { Reconciler.start with phase := .returned (pairCall (uuid 2)) }

theorem pairFirst_reached : PairReached pairFirst (uuid 1) := by
  have horder : ∀ streamID, streamID ∈ [uuid 100] ↔ streamID ∈ responsible (fun _ => 0)
      lexicographic (fun streamID => streamID) (pairCall (uuid 1)).streamIDs
      (pairCall (uuid 1)).membership := by
    intro streamID
    rw [responsible, Finset.mem_filter, List.mem_singleton]
    exact ⟨fun h => ⟨Finset.mem_singleton.mpr h, rfl⟩, fun h => Finset.mem_singleton.mp h.1⟩
  have h := pairConsumer_calls (Or.inl rfl) horder
  have h := h.tail (.reconciler
    (@Reconciler.Step.startStreamConsumer _ _ _ _ _ _ _ 0 rfl Finmap.notMem_empty rfl) False.elim)
  have h := h.tail (.reconciler (.set rfl) False.elim)
  have h := h.tail (.reconciler (.returns rfl) False.elim)
  exact h.tail (.reconciled rfl rfl)

theorem pairSecond_reached : PairReached pairSecond (uuid 2) := by
  have horder : ∀ streamID, streamID ∈ [] ↔ streamID ∈ responsible (fun _ => 0)
      lexicographic (fun streamID => streamID) (pairCall (uuid 2)).streamIDs
      (pairCall (uuid 2)).membership := by
    intro streamID
    rw [responsible, Finset.mem_filter]
    exact ⟨fun h => absurd h List.not_mem_nil, fun h => absurd h.2 Bool.false_ne_true⟩
  have h := pairConsumer_calls (Or.inr rfl) horder
  have h := h.tail (.reconciler (.returns rfl) False.elim)
  exact h.tail (.reconciled rfl rfl)

/-- Two nodes, and no other one that has been started. -/
def pairCluster (id : UUID) : NodeConsumer :=
  if id = uuid 1 then pairFirst
  else if id = uuid 2 then pairSecond
  else start (.start (.make 64 [] (by decide)) 0)

theorem pairCluster_reached (id : UUID) : PairReached (pairCluster id) id := by
  unfold pairCluster
  split
  · subst id
    exact pairFirst_reached
  · split
    · subst id
      exact pairSecond_reached
    · exact ⟨_, _, .refl⟩

theorem pairCluster_settled :
    ∀ id ∈ ({uuid 1, uuid 2} : Finset UUID), (pairCluster id).Settled {uuid 1, uuid 2} := by
  have hbeats : ∀ id, id ∈ [uuid 1, uuid 2] ↔ id ∈ ({uuid 1, uuid 2} : Finset UUID) := by
    intro id
    simp
  intro id hmem
  rw [Finset.mem_insert, Finset.mem_singleton] at hmem
  rcases hmem with rfl | rfl
  · refine ⟨rfl, ⟨rfl, ?_⟩, rfl, hbeats⟩
    intro i k hconsumer
    rcases update_eq_some hconsumer with ⟨-, hk⟩ | ⟨-, hnone⟩
    · cases hk
      rintro (hfailed | hfailed) <;> cases hfailed
    · cases hnone
  · exact ⟨rfl, ⟨rfl, fun _ k => (Option.some_ne_none k).symm.elim⟩, rfl, hbeats⟩

theorem streams_consumed_once_pair :
    ∃! id, id ∈ ({uuid 1, uuid 2} : Finset UUID) ∧
      (pairCluster id).reconciler.Consumed (uuid 100) := by
  have hid : ∀ id, (sampleNode id).id = id := fun _ => rfl
  refine (streams_consumed_once hid pairCluster_reached).1
    {uuid 1, uuid 2} ⟨uuid 1, by decide⟩ pairCluster_settled (uuid 100) ?_
  intro id hmem
  rw [Finset.mem_insert, Finset.mem_singleton] at hmem
  rcases hmem with rfl | rfl
  · exact Finset.mem_singleton_self _
  · exact Finset.mem_singleton_self _

end NodeConsumer

end Runkit.EventStream
