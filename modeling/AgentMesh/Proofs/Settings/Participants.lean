import AgentMesh.Proofs.Consensus.Threshold
import AgentMesh.Settings.Node

/-!
How many participants an agent starts with. Settings that leave the number open count each neighbour
as often as it is listed, though the agent has one peer for each name. An agent that was built with a
name listed twice expects more answers than there are agents to give one
(`Settings.participants_of_neighbors`).
-/

namespace AgentMesh

theorem length_dedup_lt {l : List String} (h : ¬l.Nodup) : l.dedup.length < l.length := by
  have hle : l.dedup.length ≤ l.length := (List.dedup_sublist l).length_le
  refine lt_of_le_of_ne hle fun he => h ?_
  rw [← List.dedup_eq_self]
  exact (List.dedup_sublist l).eq_of_length he

theorem Node.size_peers_build (id : String) (listed : List Peer) (executor : Option Executor)
    (participants : Option Nat) (ledger : Ledger) :
    (Node.build id listed executor participants ledger).peers.size =
      (listed.map Peer.id).dedup.length := by
  have hsize := Dict.size_ofList (listed.map fun p => (p.id, p))
  rw [List.map_map] at hsize
  exact hsize

namespace BallotBox

theorem not_isFinal_of_few_voters {taskId : String} {box : BallotBox}
    (hnew : box.get? taskId = none) {op : Op} {n : Nat} (hn : op.participants? taskId = some n)
    {rest : List Op} (hops : Undisturbed taskId box (op :: rest)) {voters : List String}
    (hvoters : ∀ v ∈ votes taskId (op :: rest), v.1 ∈ voters) (hfew : voters.length < n)
    {b : Ballot} (hb : (box.run (op :: rest)).get? taskId = some b) : b.isFinal = false := by
  have hsub : ((votes taskId (op :: rest)).map (·.1)).dedup ⊆ voters := by
    intro agent hagent
    obtain ⟨v, hv, rfl⟩ := List.mem_map.mp (List.mem_dedup.mp hagent)
    exact hvoters v hv
  have hle : (answers taskId (op :: rest)).size ≤ voters.length := by
    rw [size_answers]
    exact ((List.nodup_dedup _).subperm hsub).length_le
  have hopen := receipts_open hnew hn hops (hle.trans_lt hfew)
  have hs := stands_run hnew hops hopen default
  rw [held_of_some hb] at hs
  simp [Ballot.isFinal, hs.result_eq]

end BallotBox

namespace Settings

open BallotBox

variable {s : Settings}

theorem participants_node (hopen : s.network.participants = none) :
    s.node.participants = (Peer.parseList s.network.neighbors).length + 1 := by
  have hmax : s.node.participants =
      max 1 (s.network.participants.getD ((Peer.parseList s.network.neighbors).length + 1)) := rfl
  rw [hmax, hopen, Option.getD_none]
  omega

theorem size_peers_node (s : Settings) :
    s.node.peers.size = ((Peer.parseList s.network.neighbors).map Peer.id).dedup.length :=
  Node.size_peers_build ..

/-- Settings that leave the number of participants open give an agent the peers that they list, by
name. It counts those peers and itself, as an agent does that is built from the list, if and only if
no name is listed twice. If one is, it counts more, and no task for which it expects that many
answers is decided by the votes of its peers and its own. -/
theorem participants_of_neighbors (hopen : s.network.participants = none)
    (executor : Option Executor) (ledger : Ledger) :
    let listed := Peer.parseList s.network.neighbors
    let built := Node.build s.agentId listed executor none ledger
    s.node.peers = built.peers ∧ built.participants = s.node.peers.size + 1 ∧
    (s.node.participants = s.node.peers.size + 1 ↔ (listed.map Peer.id).Nodup) ∧
    (¬(listed.map Peer.id).Nodup →
      s.node.peers.size + 1 < s.node.participants ∧
      ∀ (box : BallotBox) (taskId : String) (op : Op) (rest : List Op),
        box.get? taskId = none → op.participants? taskId = some s.node.participants →
        Undisturbed taskId box (op :: rest) →
        (∀ v ∈ votes taskId (op :: rest), v.1 = s.agentId ∨ (s.node.peers.get? v.1).isSome) →
        ∀ b, (box.run (op :: rest)).get? taskId = some b → b.isFinal = false) := by
  intro listed built
  have hcount : s.node.participants = listed.length + 1 := participants_node hopen
  have hsize : s.node.peers.size = (listed.map Peer.id).dedup.length := size_peers_node s
  have hbuilt : built.participants = max 1 (s.node.peers.size + 1) := rfl
  refine ⟨rfl, by omega, ⟨fun he => ?_, fun hnodup => ?_⟩, fun hrepeated => ?_⟩
  · by_contra hrepeated
    have hlt := length_dedup_lt hrepeated
    rw [List.length_map] at hlt
    omega
  · rw [hcount, hsize, hnodup.dedup, List.length_map]
  · have hlt := length_dedup_lt hrepeated
    rw [List.length_map] at hlt
    have hmore : s.node.peers.size + 1 < s.node.participants := by omega
    refine ⟨hmore, fun box taskId op rest hnew hn hops hvotes b hb => ?_⟩
    have hvoters : ∀ v ∈ votes taskId (op :: rest), v.1 ∈ s.agentId :: s.node.peers.keys := by
      intro v hv
      rw [List.mem_cons, Dict.mem_keys]
      exact hvotes v hv
    have hfew : (s.agentId :: s.node.peers.keys).length < s.node.participants := by
      rwa [List.length_cons, Dict.length_keys]
    exact not_isFinal_of_few_voters hnew hn hops hvoters hfew hb

theorem participants_of_neighbors_repeated :
    let now := Instant.ofNanos 0
    let s : Settings :=
      { default with network := { default.network with neighbors := "b=http://b1, ,b=http://b2" } }
    let op : Op := .expect "t" none s.node.participants "sum" Dict.empty now
    let rest : List Op := [.respond "t" "agent" "1" now, .respond "t" "b" "2" now]
    let box := empty transcript Retention.unbounded
    s.network.participants = none ∧ s.node.peers.size + 1 < s.node.participants ∧
      ∃ b, (box.run (op :: rest)).get? "t" = some b ∧ b.isFinal = false := by
  intro now s op rest box
  have hlisted : (Peer.parseList s.network.neighbors).map Peer.id = ["b", "b"] := by decide
  have hrepeated : ¬((Peer.parseList s.network.neighbors).map Peer.id).Nodup := by
    rw [hlisted]
    decide
  have hops : Undisturbed "t" box (op :: rest) :=
    ⟨by simp [op, rest, Op.Adopts], by simp [op, rest, Keeps, Removes]⟩
  have hvotes : ∀ v ∈ votes "t" (op :: rest),
      v.1 = s.agentId ∨ (s.node.peers.get? v.1).isSome := by
    decide
  obtain ⟨-, -, -, hmore⟩ :=
    participants_of_neighbors (s := s) rfl none (Ledger.empty transcript s.retention)
  obtain ⟨hlt, hundecided⟩ := hmore hrepeated
  have hsome : ((box.run (op :: rest)).get? "t").isSome := by decide
  obtain ⟨b, hb⟩ := Option.isSome_iff_exists.mp hsome
  exact ⟨rfl, hlt, b, hb, hundecided box "t" op rest rfl rfl hops hvotes b hb⟩

theorem participants_differ :
    let s : Settings :=
      { default with network := { default.network with neighbors := "b=http://b1,b=http://b2" } }
    s.network.participants = none ∧ s.node.participants = 3 ∧ s.node.peers.size = 1 ∧
      (Node.build s.agentId (Peer.parseList s.network.neighbors) none none
        (Ledger.empty transcript s.retention)).participants = 2 := by
  decide

end Settings

end AgentMesh
