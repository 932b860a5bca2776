import AgentMesh.Proofs.Exchange.Synchronous

/-!
Meshes that have just been built. If each agent is given all others as its neighbours, under addresses
that tell them apart, all are reached, and as many answers are expected as there are agents
(`Mesh.fresh_ofAgents`).
-/

namespace AgentMesh

/-- A mesh of agents in which nothing has happened yet and each of which reaches all others. -/
structure Mesh.Fresh (agents : Dict Executor) (mesh : Mesh) : Prop where
  full : FullMesh agents mesh.nodes
  queue_eq : mesh.queue = []
  reached : ∀ id n k p, mesh.nodes.get? id = some n → n.peers.get? k = some p →
    mesh.route? p.exchangeUrl = some k

namespace Mesh

variable {agents : Dict Executor} {mesh : Mesh}

theorem Fresh.network (h : mesh.Fresh agents) : (mesh.network 0 0 Dict.empty).Fresh agents where
  mesh := h.full
  flight_eq := rfl
  queue_eq := by simp [Mesh.network, h.queue_eq]
  started_eq := rfl

theorem Fresh.wired (h : mesh.Fresh agents) : mesh.Wired mesh.route? fun _ _ => False where
  route_eq _ := rfl
  peers := h.reached
  waits _ _ _ _ hw := hw.elim

def agentOf (agents : Dict Executor) (endpoint : String → String) (id : String) : Node :=
  Node.build id ((agents.erase id).keys.map fun k => Peer.ofEndpoint k (endpoint k))
    (agents.get? id) none (Ledger.empty transcript Retention.unbounded)

/-- A mesh of agents at some endpoints at which all sends go through. -/
def ofAgents (agents : Dict Executor) (endpoint : String → String) : Mesh where
  nodes := Dict.ofList (agents.keys.map fun id => (id, agentOf agents endpoint id))
  addresses :=
    Dict.ofList (agents.keys.map fun id => ((Peer.ofEndpoint id (endpoint id)).exchangeUrl, id))
  failure := fun _ => none
  queue := []
  log := []

theorem agentOf_peers (agents : Dict Executor) (endpoint : String → String) (id : String) :
    (agentOf agents endpoint id).peers =
      Dict.ofList ((agents.erase id).keys.map fun k => (k, Peer.ofEndpoint k (endpoint k))) := by
  simp only [agentOf, Node.build, List.map_map]
  rfl

theorem agentOf_get?_peers (agents : Dict Executor) (endpoint : String → String) (id k : String) :
    (agentOf agents endpoint id).peers.get? k =
      if k ≠ id ∧ (agents.get? k).isSome then some (Peer.ofEndpoint k (endpoint k)) else none := by
  rw [agentOf_peers, Dict.get?_ofList_map]
  simp only [Dict.mem_keys, Dict.get?_erase]
  by_cases hk : id = k
  · simp [hk]
  · simp [hk, Ne.symm hk]

theorem member_agentOf {agents : Dict Executor} {id : String} (hself : (agents.get? id).isSome)
    (endpoint : String → String) : (agentOf agents endpoint id).Member agents id := by
  have hpeers : ∀ k, ((agentOf agents endpoint id).peers.get? k).isSome ↔
      k ≠ id ∧ (agents.get? k).isSome := by
    intro k
    rw [agentOf_get?_peers]
    split
    · next hk => simp [hk]
    · next hk => simpa using hk
  have hsize : (agentOf agents endpoint id).peers.size + 1 = agents.size := by
    have hkeys : (agentOf agents endpoint id).peers.keys = (agents.erase id).keys := by
      refine Dict.keys_eq fun k => ?_
      rw [hpeers, Dict.get?_erase]
      by_cases hk : id = k
      · simp [hk]
      · simp [hk, Ne.symm hk]
    rw [← Dict.length_keys, hkeys, Dict.length_keys, Dict.size_erase hself]
  refine
    { id_eq := rfl, executor_eq := rfl, participants_eq := ?_, isSome_peers := hpeers
      aggregate_eq := rfl, retention_eq := rfl }
  change max 1 ((agentOf agents endpoint id).peers.size + 1) = agents.size
  omega

theorem ofAgents_get?_nodes (agents : Dict Executor) (endpoint : String → String) (id : String) :
    (ofAgents agents endpoint).nodes.get? id =
      if (agents.get? id).isSome then some (agentOf agents endpoint id) else none := by
  change (Dict.ofList _).get? id = _
  simp only [Dict.get?_ofList_map, Dict.mem_keys]

/-- A mesh is fresh when it has just been built, if the addresses of its agents differ. -/
theorem fresh_ofAgents {agents : Dict Executor} {endpoint : String → String}
    (hurls : ∀ j k, (agents.get? j).isSome → (agents.get? k).isSome →
      (Peer.ofEndpoint j (endpoint j)).exchangeUrl =
        (Peer.ofEndpoint k (endpoint k)).exchangeUrl → j = k) :
    (ofAgents agents endpoint).Fresh agents := by
  have hnode : ∀ id n, (ofAgents agents endpoint).nodes.get? id = some n →
      (agents.get? id).isSome ∧ n = agentOf agents endpoint id := by
    intro id n hn
    rw [ofAgents_get?_nodes] at hn
    split at hn
    · next hself => exact ⟨hself, (Option.some.inj hn).symm⟩
    · cases hn
  refine
    { full :=
        { isSome_nodes := fun id => ?_
          member := fun id n hn => ?_
          ballots_eq := fun id n hn => ?_
          records_eq := fun id n hn => ?_
          awaited_eq := fun id n hn => ?_ }
      queue_eq := rfl
      reached := fun id n k p hn hp => ?_ }
  · rw [ofAgents_get?_nodes]
    split
    · next h => simp [h]
    · next h => simpa using h
  · obtain ⟨hself, rfl⟩ := hnode id n hn
    exact member_agentOf hself endpoint
  · obtain ⟨-, rfl⟩ := hnode id n hn
    rfl
  · obtain ⟨-, rfl⟩ := hnode id n hn
    rfl
  · obtain ⟨-, rfl⟩ := hnode id n hn
    rfl
  · obtain ⟨-, rfl⟩ := hnode id n hn
    rw [agentOf_get?_peers] at hp
    split at hp
    · next hk =>
      cases hp
      refine Dict.get?_ofList_of_mem (List.mem_map_of_mem (Dict.mem_keys.mpr hk.2)) fun e he heq => ?_
      obtain ⟨j, hj, rfl⟩ := List.mem_map.mp he
      exact hurls j k (Dict.mem_keys.mp hj) hk.2 heq
    · cases hp

end Mesh

end AgentMesh
