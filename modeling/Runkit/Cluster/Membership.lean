/-
  Cluster/Membership.lean --- which node is responsible for a workload.

  Source: internal/cluster/membership.go, and publishMembershipChange of
  internal/cluster/node.go.

  Every node decides alone whether it is responsible, by comparing its own score
  for the workload with those of its peers.  The decisions agree because they are
  all the same choice among the live nodes (`Foundation/Ranking.lean`), wherever
  the nodes see the same live nodes.

  The hash function is arbitrary, so scores may collide.
-/
import Runkit.Foundation.Ranking
import Runkit.Message

set_option autoImplicit false

namespace Runkit.Cluster

open Runkit.Foundation

/-! ## Memberships -/

/-- `Membership`.  The peers are in the order in which the node iterates over them. -/
structure Membership where
  nodeID : UUID
  isLive : Bool
  peers : List UUID
  /-- A node is not its own peer. -/
  others : nodeID ∉ peers

namespace Membership

/-- The live nodes, as the node sees them. -/
def liveNodes (m : Membership) : Finset UUID :=
  if m.isLive then insert m.nodeID m.peers.toFinset else m.peers.toFinset

/-- `xxh3.Hash` of the buffer that holds the workload and the ID of a node. -/
def score (hash : Bytes → UInt64) (workload nodeID : UUID) : UInt64 :=
  hash (workload.bytes ++ nodeID.bytes)

/-- The loop of `LocalNodeIsResponsibleFor` over the peers. -/
def outranksAll (hash : Bytes → UInt64) (less : UUID → UUID → Bool) (workload nodeID : UUID)
    (localScore : UInt64) : List UUID → Bool
  | [] => true
  | peerID :: rest =>
      let peerScore := score hash workload peerID
      if peerScore > localScore then
        false
      else if peerScore = localScore ∧ less peerID nodeID = true then
        false
      else
        outranksAll hash less workload nodeID localScore rest

/-- `Membership.LocalNodeIsResponsibleFor`.  The membership is `none` if it is nil. -/
def localNodeIsResponsibleFor (hash : Bytes → UInt64) (less : UUID → UUID → Bool)
    (m : Option Membership) (workload : UUID) : Bool :=
  match m with
  | none => false
  | some m =>
      if m.isLive then
        outranksAll hash less workload m.nodeID (score hash workload m.nodeID) m.peers
      else
        false

end Membership

/-- `Node.publishMembershipChange`: the membership that the node with the given ID
publishes, when it has the heartbeats of the given nodes. -/
def publishMembershipChange (nodeID : UUID) (heartbeats : List UUID) : Membership where
  nodeID := nodeID
  isLive := heartbeats.any fun id => decide (id = nodeID)
  peers := heartbeats.filter fun id => decide (id ≠ nodeID)
  others := by simp

/-- The live nodes are those that the node has heartbeats of. -/
theorem liveNodes_publishMembershipChange (nodeID : UUID) (heartbeats : List UUID) :
    (publishMembershipChange nodeID heartbeats).liveNodes = heartbeats.toFinset := by
  ext id
  by_cases hid : id = nodeID
  · subst hid
    by_cases hmem : id ∈ heartbeats
    · simp [publishMembershipChange, Membership.liveNodes, hmem]
    · simp [publishMembershipChange, Membership.liveNodes, hmem]
  · by_cases hlive : nodeID ∈ heartbeats
    · simp [publishMembershipChange, Membership.liveNodes, hlive, hid]
    · simp [publishMembershipChange, Membership.liveNodes, hlive, hid]

/-! ## Responsibility -/

section

variable {hash : Bytes → UInt64} {less : UUID → UUID → Bool} {workload : UUID}

/-- The rank of nodes with respect to a workload. -/
def Ranks (hash : Bytes → UInt64) (less : UUID → UUID → Bool) (workload : UUID) :
    UUID → UUID → Prop :=
  Outranks (fun id => (Membership.score hash workload id).toNat) fun a b => less a b = true

instance ranks_isStrictTotalOrder [IsStrictTotalOrder UUID fun a b => less a b = true] :
    IsStrictTotalOrder UUID (Ranks hash less workload) :=
  outranks_isStrictTotalOrder _ _

/-- The two comparisons of the loop are the rank. -/
theorem ranks_iff {peerID nodeID : UUID} :
    Ranks hash less workload peerID nodeID ↔
      Membership.score hash workload peerID > Membership.score hash workload nodeID ∨
        (Membership.score hash workload peerID = Membership.score hash workload nodeID ∧
          less peerID nodeID = true) := by
  rw [Ranks, Outranks, gt_iff_lt, UInt64.lt_iff_toNat_lt, UInt64.toNat_inj, eq_comm]

theorem outranksAll_iff {nodeID : UUID} {peers : List UUID} :
    Membership.outranksAll hash less workload nodeID (Membership.score hash workload nodeID)
        peers = true ↔
      ∀ peerID ∈ peers, ¬ Ranks hash less workload peerID nodeID := by
  induction peers with
  | nil => simp [Membership.outranksAll]
  | cons peerID rest ih =>
      rw [Membership.outranksAll, List.forall_mem_cons, ← ih, ranks_iff]
      split
      · rename_i hscore
        simp [hscore]
      · rename_i hscore
        split
        · rename_i htie
          simp [htie]
        · rename_i htie
          simp [hscore, htie]

/-- A node is responsible if it is live and none of its peers outranks it. -/
theorem responsible_iff {m : Membership} :
    Membership.localNodeIsResponsibleFor hash less (some m) workload = true ↔
      m.isLive = true ∧ ∀ peerID ∈ m.peers, ¬ Ranks hash less workload peerID m.nodeID := by
  rw [Membership.localNodeIsResponsibleFor]
  split
  · rename_i hlive
    rw [outranksAll_iff, hlive]
    simp
  · rename_i hlive
    simp [hlive]

/-- The membership is that of the given node, and the given nodes are live. -/
def Sees (nodes : Finset UUID) (nodeID : UUID) (m : Membership) : Prop :=
  m.nodeID = nodeID ∧ m.liveNodes = nodes

theorem sees_publishMembershipChange (nodeID : UUID) (heartbeats : List UUID) :
    Sees heartbeats.toFinset nodeID (publishMembershipChange nodeID heartbeats) :=
  ⟨rfl, liveNodes_publishMembershipChange nodeID heartbeats⟩

/-- A node that is among the live nodes it sees is live, and the others are its
peers. -/
theorem Sees.live {nodes : Finset UUID} {nodeID : UUID} {m : Membership} (h : Sees nodes nodeID m)
    (hnode : nodeID ∈ nodes) : m.isLive = true ∧ ∀ id, id ∈ nodes ↔ id = nodeID ∨ id ∈ m.peers := by
  obtain ⟨rfl, rfl⟩ := h
  cases hlive : m.isLive with
  | true => simp [Membership.liveNodes, hlive]
  | false =>
      simp only [Membership.liveNodes, hlive] at hnode
      exact absurd (List.mem_toFinset.mp hnode) m.others

/-- Responsibility is the choice among the live nodes.  This is where it does not
matter in which order a node iterates over its peers. -/
theorem Sees.responsible_iff [IsStrictTotalOrder UUID fun a b => less a b = true]
    {nodes : Finset UUID} {nodeID : UUID} {m : Membership} (h : Sees nodes nodeID m)
    (hnode : nodeID ∈ nodes) :
    Membership.localNodeIsResponsibleFor hash less (some m) workload = true ↔
      Chosen (Ranks hash less workload) nodes nodeID := by
  obtain ⟨hlive, hnodes⟩ := h.live hnode
  rw [Cluster.responsible_iff, h.1]
  constructor
  · intro hresponsible
    refine ⟨hnode, ?_⟩
    intro id hid
    obtain rfl | hpeer := (hnodes id).mp hid
    · exact irrefl id
    · exact hresponsible.2 id hpeer
  · intro hchosen
    refine ⟨hlive, ?_⟩
    intro id hpeer
    exact hchosen.highest id ((hnodes id).mpr (Or.inr hpeer))

end

/-- Two nodes that see each other are never both responsible for a workload, and of
any nodes that all see each other exactly one is. -/
theorem one_node_responsible (hash : Bytes → UInt64) (less : UUID → UUID → Bool)
    [IsStrictTotalOrder UUID fun a b => less a b = true] (workload : UUID) :
    (∀ a b : Membership, a.nodeID ≠ b.nodeID → a.isLive = true → b.isLive = true →
      b.nodeID ∈ a.peers → a.nodeID ∈ b.peers →
        ¬ (Membership.localNodeIsResponsibleFor hash less (some a) workload = true ∧
          Membership.localNodeIsResponsibleFor hash less (some b) workload = true)) ∧
      ∀ (nodes : Finset UUID) (view : UUID → Membership), nodes.Nonempty →
        (∀ id ∈ nodes, Sees nodes id (view id)) →
          ∃! id, id ∈ nodes ∧
            Membership.localNodeIsResponsibleFor hash less (some (view id)) workload = true := by
  constructor
  · intro a b hne _ _ hb ha hboth
    have hhighest := (responsible_iff.mp hboth.1).2 b.nodeID hb
    have hhighest' := (responsible_iff.mp hboth.2).2 a.nodeID ha
    obtain h | h : Ranks hash less workload a.nodeID b.nodeID ∨
        Ranks hash less workload b.nodeID a.nodeID := outranks_of_ne hne
    · exact hhighest' h
    · exact hhighest h
  · intro nodes view hnonempty hviews
    obtain ⟨id, hid⟩ : ∃ id, Chosen (Ranks hash less workload) nodes id :=
      exists_chosen hnonempty
    refine ⟨id, ⟨hid.candidate, ?_⟩, ?_⟩
    · exact ((hviews id hid.candidate).responsible_iff hid.candidate).mpr hid
    · intro id' h
      obtain ⟨hmem, hresponsible⟩ := h
      exact (((hviews id' hmem).responsible_iff hmem).mp hresponsible).unique hid

/-- `Less`, which compares the upper halves first. -/
def lexicographic (a b : UUID) : Bool :=
  decide (a.upper < b.upper) || (decide (a.upper = b.upper) && decide (a.lower < b.lower))

instance lexicographic_isStrictTotalOrder :
    IsStrictTotalOrder UUID fun a b => lexicographic a b = true := by
  have hlex : IsStrictTotalOrder (Nat × Nat) (Prod.Lex (· < ·) (· < ·)) := { }
  let embedding : (fun a b => lexicographic a b = true) ↪r
      (Prod.Lex (· < ·) (· < ·) : Nat × Nat → Nat × Nat → Prop) :=
    { toFun := fun id => (id.upper.toNat, id.lower.toNat)
      inj' := by
        intro a b h
        obtain ⟨hupper, hlower⟩ := Prod.mk.inj h
        cases a
        cases b
        rw [UUID.mk.injEq, ← UInt64.toNat_inj, ← UInt64.toNat_inj]
        exact ⟨hupper, hlower⟩
      map_rel_iff' := by
        intro a b
        simp only [lexicographic, Bool.or_eq_true, Bool.and_eq_true, decide_eq_true_eq,
          UInt64.lt_iff_toNat_lt, ← UInt64.toNat_inj]
        exact Prod.lex_iff }
  exact embedding.isStrictTotalOrder

/-- All scores are the same, so the order of the IDs decides. -/
theorem one_node_responsible_tied :
    ∃! id, id ∈ ({uuid 1, uuid 2} : Finset UUID) ∧
      Membership.localNodeIsResponsibleFor (fun _ => 0) lexicographic
        (some (publishMembershipChange id [uuid 1, uuid 2])) (uuid 9) = true :=
  (one_node_responsible (fun _ => 0) lexicographic (uuid 9)).2 {uuid 1, uuid 2}
    (fun id => publishMembershipChange id [uuid 1, uuid 2]) ⟨uuid 1, by decide⟩
    fun id _ => sees_publishMembershipChange id [uuid 1, uuid 2]

/-- When a node joins, each workload stays where it is or moves to that node; when a
node leaves, only the workloads that it was responsible for move. -/
theorem minimal_disruption (hash : Bytes → UInt64) (less : UUID → UUID → Bool)
    [IsStrictTotalOrder UUID fun a b => less a b = true] (workload : UUID)
    {nodes : Finset UUID} {x : UUID} {smaller larger : UUID → Membership}
    (hsmaller : ∀ id ∈ nodes, Sees nodes id (smaller id))
    (hlarger : ∀ id ∈ insert x nodes, Sees (insert x nodes) id (larger id)) :
    (∀ id ∈ nodes,
      Membership.localNodeIsResponsibleFor hash less (some (smaller id)) workload = true →
        ∃ next, (next = id ∨ next = x) ∧ ∀ id' ∈ insert x nodes,
          Membership.localNodeIsResponsibleFor hash less (some (larger id')) workload = true ↔
            id' = next) ∧
      (∀ id ∈ nodes,
        Membership.localNodeIsResponsibleFor hash less (some (larger id)) workload = true →
          Membership.localNodeIsResponsibleFor hash less (some (smaller id)) workload = true) ∧
      (Membership.localNodeIsResponsibleFor hash less (some (larger x)) workload = false →
        ∀ id ∈ nodes,
          Membership.localNodeIsResponsibleFor hash less (some (smaller id)) workload = true →
            Membership.localNodeIsResponsibleFor hash less (some (larger id)) workload = true) := by
  have hmem : ∀ id ∈ nodes, id ∈ insert x nodes := fun id => Finset.mem_insert_of_mem
  have hxmem : x ∈ insert x nodes := Finset.mem_insert_self x nodes
  refine ⟨?_, ?_, ?_⟩
  · intro id hid hresponsible
    have hchosen := ((hsmaller id hid).responsible_iff hid).mp hresponsible
    have honly : ∀ next, Chosen (Ranks hash less workload) (insert x nodes) next →
        ∀ id' ∈ insert x nodes,
          Membership.localNodeIsResponsibleFor hash less (some (larger id')) workload = true ↔
            id' = next := by
      intro next hnext id' hid'
      rw [(hlarger id' hid').responsible_iff hid']
      constructor
      · exact fun hchosen' => hchosen'.unique hnext
      · rintro rfl
        exact hnext
    obtain h | h := hchosen.joined (x := x)
    · exact ⟨x, Or.inr rfl, honly x h⟩
    · exact ⟨id, Or.inl rfl, honly id h⟩
  · intro id hid hresponsible
    have hchosen := ((hlarger id (hmem id hid)).responsible_iff (hmem id hid)).mp hresponsible
    exact ((hsmaller id hid).responsible_iff hid).mpr (hchosen.left hid)
  · intro hother id hid hresponsible
    have hchosen := ((hsmaller id hid).responsible_iff hid).mp hresponsible
    obtain h | h := hchosen.joined (x := x)
    · rw [((hlarger x hxmem).responsible_iff hxmem).mpr h] at hother
      cases hother
    · exact ((hlarger id (hmem id hid)).responsible_iff (hmem id hid)).mpr h

/-- The node that joins takes the workload over, because its ID is the lower one. -/
theorem minimal_disruption_joined :
    Membership.localNodeIsResponsibleFor (fun _ => 0) lexicographic
        (some (publishMembershipChange (uuid 2) [uuid 2])) (uuid 9) = true ∧
      ∃ next, (next = uuid 2 ∨ next = uuid 1) ∧ ∀ id' ∈ (insert (uuid 1) {uuid 2} : Finset UUID),
        Membership.localNodeIsResponsibleFor (fun _ => 0) lexicographic
            (some (publishMembershipChange id' [uuid 1, uuid 2])) (uuid 9) = true ↔
          id' = next :=
  ⟨by decide, (minimal_disruption (fun _ => 0) lexicographic (uuid 9)
    (fun id _ => sees_publishMembershipChange id [uuid 2])
    (fun id _ => sees_publishMembershipChange id [uuid 1, uuid 2])).1 (uuid 2) (by decide)
    (by decide)⟩

end Runkit.Cluster
