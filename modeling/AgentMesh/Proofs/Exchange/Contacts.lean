import AgentMesh.Proofs.Exchange.Storm

/-!
Broadcasts and the health of neighbours. Whatever happens in a mesh, an agent keeps the neighbours that it
was built with and tells their health honestly; a broadcast tries each of them once, in the order of their
names, and leaves of each what its own send showed (`Mesh.broadcast_isolated`).
-/

namespace AgentMesh

namespace Mesh

/-- One thing that may come to pass in a mesh. Besides what is done to it from outside, a single agent may
act in any way that agents act, as it does in the midst of an exchange; it may be given another executor;
and all that is around the agents may change, so that other addresses fail. -/
inductive Step : Mesh → Mesh → Prop
  | apply (mesh : Mesh) (op : Op) : Step mesh (mesh.apply op)
  | act (mesh : Mesh) (id : String) (op : Node.Op) :
      Step mesh (mesh.update id fun n => n.apply op)
  | equip (mesh : Mesh) (id : String) (executor : Executor) :
      Step mesh (mesh.update id fun n => { n with executor := some executor })
  | around {mesh mesh' : Mesh} (hnodes : mesh'.nodes = mesh.nodes) : Step mesh mesh'

abbrev Steps : Mesh → Mesh → Prop := Relation.ReflTransGen Step

theorem steps_run (mesh : Mesh) (ops : List Op) : Steps mesh (mesh.run ops) := by
  induction ops generalizing mesh with
  | nil => exact .refl
  | cons op rest ih => exact (ih (mesh.apply op)).head (.apply mesh op)

variable {mesh₀ mesh mesh' : Mesh} {id : String} {n : Node} {table : Dict Peer}

/-- There is an agent `id`, and its neighbours are those of a table. -/
def Knows (mesh : Mesh) (id : String) (table : Dict Peer) : Prop :=
  ∃ n, mesh.nodes.get? id = some n ∧ n.Knows table

theorem Moves.knows (h : mesh.Moves mesh') (hk : mesh.Knows id table) : mesh'.Knows id table := by
  obtain ⟨deeds, hnodes⟩ := h
  obtain ⟨n, hn, hk⟩ := hk
  refine ⟨n.run (opsOf id deeds), ?_, hk.run _⟩
  rw [hnodes, get?_perform, hn]
  rfl

theorem Step.sound (h : Step mesh mesh') (hs : mesh.Sound) : mesh'.Sound := by
  cases h with
  | apply op => exact hs.apply op
  | act k op => exact (moves_update mesh k op).sound hs
  | equip k executor =>
    intro j n' hn'
    rw [Mesh.update, Dict.get?_modify] at hn'
    split at hn'
    · obtain ⟨n, hn, rfl⟩ := Option.map_eq_some_iff.mp hn'
      obtain ⟨hid, hsound⟩ := hs j n hn
      exact ⟨hid, hsound.participants_pos, hsound.valid⟩
    · exact hs j n' hn'
  | around hnodes => exact fun j n hn => hs j n (hnodes ▸ hn)

theorem Step.knows (h : Step mesh mesh') (hs : mesh.Sound) (hk : mesh.Knows id table) :
    mesh'.Knows id table := by
  cases h with
  | apply op => exact (moves_apply hs op).knows hk
  | act k op => exact (moves_update mesh k op).knows hk
  | equip k executor =>
    obtain ⟨n, hn, hk⟩ := hk
    rw [Knows, Mesh.update, Dict.get?_modify, hn]
    split
    · exact ⟨_, rfl, hk.address_eq, hk.honest⟩
    · exact ⟨n, rfl, hk⟩
  | around hnodes => exact (Moves.of_eq hnodes).knows hk

theorem Steps.knows (h : Steps mesh₀ mesh) (hs : mesh₀.Sound) (hk : mesh₀.Knows id table) :
    mesh.Sound ∧ mesh.Knows id table := by
  induction h with
  | refl => exact ⟨hs, hk⟩
  | tail _ hstep ih => exact ⟨hstep.sound ih.1, hstep.knows ih.1 ih.2⟩

theorem broadcast_contacts (hs : mesh.Sound) (hn : mesh.nodes.get? id = some n) (now : Instant)
    (m : Message) : ∃ meanwhile, (mesh.broadcast now id m).nodes.get? id =
      some ((n.run meanwhile).noteContacts mesh.failure now) := by
  let handed := n.peers.values.foldl (hand 1 now m) mesh
  let deeds := along (hand 1 now m) (handDeeds (broadcastDeeds 1 now) 1 now m) mesh n.peers.values
  have hbroadcast : mesh.broadcast now id m =
      handed.update id fun n => n.noteContacts handed.failure now := broadcastWithin_succ hn 1 now m
  have hfailure : handed.failure = mesh.failure := by
    obtain ⟨τ, hτ⟩ := course_broadcast now 1 mesh id m
    rw [hbroadcast] at hτ
    exact hτ.failure_eq
  have hdeeds : broadcastDeeds broadcastDepth now mesh id m =
      deeds ++ [(id, .contact handed.failure now)] := by
    rw [broadcastDepth, broadcastDeeds, hn]
  have hops : opsOf id [(id, Node.Op.contact handed.failure now)] =
      [.contact handed.failure now] := by simp [opsOf]
  refine ⟨opsOf id deeds, ?_⟩
  rw [(acts_broadcast now hs id m).nodes_eq, get?_perform, hn, hdeeds, opsOf_append, hops,
    Option.map_some, Node.run_append, hfailure]
  rfl

/-- In a mesh whose agents have been built, with the neighbours `peers` for the agent `id`, whatever has
happened since: the agent has those neighbours still, at the same endpoints, and each is healthy exactly
if there has been contact and no error is noted. A broadcast ends, and has then tried each neighbour once
and in the order of their names, whatever was noted of them before and whichever sends failed. Whatever
the agent did meanwhile, it has noted of each neighbour the time and how its own send went. -/
theorem broadcast_isolated {peers : List Peer} {executor : Option Executor}
    {participants : Option Nat} {ledger : Ledger} (hbuilt : mesh₀.Built)
    (hn₀ : mesh₀.nodes.get? id = some (Node.build id peers executor participants ledger))
    (hmade : ∀ p ∈ peers, p.Made) (hsteps : Steps mesh₀ mesh) :
    let table := Node.configured peers
    ∃ n, mesh.nodes.get? id = some n ∧
      n.peers.mapValues Peer.address = table.mapValues Peer.address ∧
      (∀ p ∈ n.peers.values,
        p.healthy = true ↔ p.lastSeen.isSome = true ∧ p.lastError = none) ∧
      (table.values.map Peer.id).Pairwise (· < ·) ∧
      ∀ now m,
        (∃ τ, Ends now (.broadcast id [m]) mesh τ (mesh.broadcast now id m) ∧
          told 1 τ = table.values.map fun p => (p.exchangeUrl, m)) ∧
        (∀ (meanwhile : List Node.Op) failure,
          ((n.run meanwhile).noteContacts failure now).peers =
            table.mapValues (Peer.contacted failure now)) ∧
        ∃ n', (mesh.broadcast now id m).nodes.get? id = some n' ∧
          n'.peers = table.mapValues (Peer.contacted mesh.failure now) := by
  obtain ⟨hs, n, hn, hk⟩ :=
    hsteps.knows hbuilt.sound ⟨_, hn₀, Node.knows_build id hmade executor participants ledger⟩
  refine ⟨n, hn, hk.address_eq, hk.honest, Node.pairwise_configured peers, fun now m => ⟨?_, ?_, ?_⟩⟩
  · obtain ⟨τ, hτ⟩ := course_broadcast now 1 mesh id m
    refine ⟨τ, hτ.ends, ?_⟩
    have hurls : mesh.urls id = (Node.configured peers).values.map Peer.exchangeUrl :=
      (urls_of_some hn).trans (Peer.exchangeUrls_eq hk.address_eq)
    rw [hτ.broadcast_told fun k n hn => (hs k n hn).1, hurls]
    simp [spread]
  · exact fun meanwhile failure => (hk.run meanwhile).noteContacts failure now
  · obtain ⟨meanwhile, hn'⟩ := broadcast_contacts hs hn now m
    exact ⟨_, hn', (hk.run meanwhile).noteContacts mesh.failure now⟩

/-- The second agent has shown a sign of life and then cannot be reached. The first tells its vote, first
to itself, which completes its ballot, so within that it tells the result to both, and then to the
second. -/
theorem broadcast_isolated_gossips :
    let before := Instant.ofNanos 0
    let now := Instant.ofNanos 1
    let url := "http://b/agent_exchange"
    let vote (sender : String) : Message :=
      ⟨.result, sender, "t", Node.resultPayload "done" (some "a")⟩
    let ops : List Op := [.heartbeats "b" before, .exchange "a" (vote "b") before,
      .route fun u => if u = url then some (unreachableText u) else none]
    let mesh := gossips.run ops
    let after := mesh.broadcast now "a" (vote "a")
    ((mesh.nodes.get? "a").map fun n => n.peers.values.map Peer.healthy) = some [false, true] ∧
      ((after.nodes.get? "a").map fun n => n.peers.values) =
        some [⟨"a", "http://a", true, some now, none⟩,
          ⟨"b", "http://b", false, some now, some (unreachableText url)⟩] ∧
      (after.log.drop mesh.log.length).map (fun s => (s.message.kind, s.url)) =
        [(.result, "http://a/agent_exchange"), (.consensus, "http://a/agent_exchange"),
          (.consensus, url), (.result, url)] := by
  intro before now url vote ops mesh after
  have hmade : ∀ p ∈ [Peer.ofEndpoint "a" "http://a", Peer.ofEndpoint "b" "http://b"], p.Made := by
    simp [Peer.Made.single]
  have hn₀ : gossips.nodes.get? "a" = some (gossip "a") := rfl
  obtain ⟨n, -, -, -, -, hbroadcast⟩ :=
    broadcast_isolated built_gossips hn₀ hmade (steps_run gossips ops)
  obtain ⟨-, -, n', hn', hpeers⟩ := hbroadcast now (vote "a")
  refine ⟨by decide, ?_, by decide⟩
  have hafter : after.nodes.get? "a" = some n' := hn'
  rw [hafter, Option.map_some, hpeers]
  decide

end Mesh

end AgentMesh
