import AgentMesh.Proofs.Node.Neighbours

/-!
What one agent sends, and where. It sends to the same addresses whatever happens (`Node.urls_apply`). Of
the messages that it handles only a vote makes it send anything, and then no more than one result
(`Node.handle_sends`); when it executes a task it sends its vote, and then perhaps one result
(`Node.execute_sends`).
-/

namespace AgentMesh

/-- Each of the messages to each of the addresses. -/
def Mesh.spread (urls : List String) (ms : List Message) : List (String × Message) :=
  ms.flatMap fun m => urls.map fun url => (url, m)

theorem Mesh.mem_spread {urls : List String} {ms : List Message} {e : String × Message} :
    e ∈ spread urls ms ↔ e.1 ∈ urls ∧ e.2 ∈ ms := by
  obtain ⟨url, m⟩ := e
  simp only [spread, List.mem_flatMap, List.mem_map, Prod.mk.injEq]
  constructor
  · rintro ⟨_, hm, _, hurl, rfl, rfl⟩
    exact ⟨hurl, hm⟩
  · rintro ⟨hurl, hm⟩
    exact ⟨m, hm, url, hurl, rfl, rfl⟩

namespace Node

def urls (n : Node) : List String := n.peers.values.map Peer.exchangeUrl

theorem urls_apply (n : Node) (op : Op) : (n.apply op).urls = n.urls :=
  Peer.exchangeUrls_eq (n.address_apply op)

variable {n : Node} {m : Message} {now : Instant}

theorem consensusMessages_eq (n : Node) (receipt : Receipt) (t : String) (owner : Option String) :
    ∃ c : Option Message, (∀ c' ∈ c, c'.kind = .consensus) ∧
      n.consensusMessages receipt t owner = c.toList := by
  unfold consensusMessages
  split
  · split
    · exact ⟨none, fun _ hc => (Option.not_mem_none _ hc).elim, rfl⟩
    · exact ⟨some _, fun _ hc => Option.mem_some.mp hc ▸ rfl, rfl⟩
  · exact ⟨none, fun _ hc => (Option.not_mem_none _ hc).elim, rfl⟩

theorem handle_sends (n : Node) (m : Message) (now : Instant) :
    ∃ c : Option Message, (∀ c' ∈ c, m.kind = .result ∧ c'.kind = .consensus) ∧
      (n.handle m now).sends = c.toList := by
  unfold handle
  cases hk : m.kind with
  | result =>
    obtain ⟨c, hc, hs⟩ := n.consensusMessages_eq _ m.taskId _
    exact ⟨c, fun c' hc' => ⟨rfl, hc c' hc'⟩, hs⟩
  | task | consensus | heartbeat => exact ⟨none, fun _ hc => (Option.not_mem_none _ hc).elim, rfl⟩

theorem execute_idle (he : n.executor = none) : (n.execute m now).2 = [] := by
  simp only [execute, he]

theorem execute_sends (he : n.executor ≠ none) (m : Message) (now : Instant) :
    ∃ (r : Message) (c : Option Message), r.kind = .result ∧ (∀ c' ∈ c, c'.kind = .consensus) ∧
      (n.execute m now).2 = r :: c.toList := by
  obtain ⟨executor, he⟩ := Option.ne_none_iff_exists'.mp he
  let task := (m.payload.text? "task").getD ""
  let context := m.payload.object "context"
  let vote := (executor task context).vote
  let owner := m.payload.text? "owner"
  let ballot := (n.ledger.box.expect m.taskId owner n.participants task context now).1
  have hsends : (n.execute m now).2 = (n.submit m.taskId vote owner task context now).2.2 := by
    simp only [execute, he]
    rfl
  obtain ⟨c, hc, hs⟩ := n.consensusMessages_eq (n.submit m.taskId vote owner task context now).2.1
    m.taskId (owner <|> ballot.owner)
  exact ⟨n.resultMessage m.taskId vote owner, c, rfl, hc, hsends.trans (congrArg (_ :: ·) hs)⟩

theorem execute_sends_no_task (n : Node) (m : Message) (now : Instant) {m' : Message}
    (hm' : m' ∈ (n.execute m now).2) : m'.kind ≠ .task := by
  by_cases he : n.executor = none
  · simp [execute_idle he] at hm'
  · obtain ⟨r, c, hr, hc, hs⟩ := execute_sends he m now
    rw [hs] at hm'
    rcases List.mem_cons.mp hm' with rfl | hm'
    · simp [hr]
    · simp [hc m' (Option.mem_toList.mp hm')]

end Node

end AgentMesh
