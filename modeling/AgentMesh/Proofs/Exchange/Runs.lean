import AgentMesh.Proofs.Exchange.Members

/-!
What holds of a full mesh after any steps, whatever the network does with the envelopes: all agents
are faithful, and all envelopes and waiting executions are about tasks that were started
(`Network.Faithful.steps`).
-/

namespace AgentMesh

theorem Message.Genuine.insert_started {agents : Dict Executor} {started : Dict Announcement}
    {m : Message} (h : m.Genuine agents started) {t : String} (hnew : started.get? t = none)
    (a : Announcement) : m.Genuine agents (started.insert t a) := by
  cases h with
  | task ha => exact .task (Dict.get?_insert_of_none hnew a ha)
  | result ha hv => exact .result (Dict.get?_insert_of_none hnew a ha) hv
  | consensus ha => exact .consensus (Dict.get?_insert_of_none hnew a ha)

namespace Network

/-- What holds of a full mesh after any steps. -/
structure Faithful (agents : Dict Executor) (net : Network) : Prop where
  isSome_nodes : ∀ id, (net.nodes.get? id).isSome ↔ (agents.get? id).isSome
  node : ∀ id n, net.nodes.get? id = some n → n.Faithful agents net.started id
  flight : ∀ e ∈ net.flight,
    (agents.get? e.1).isSome ∧ e.2.sender ≠ e.1 ∧ e.2.Genuine agents net.started
  queue : ∀ e ∈ net.queue, (agents.get? e.1).isSome ∧
    ∃ a t, net.started.get? t = some a ∧ e.2 = a.message t
  owner : ∀ t a, net.started.get? t = some a → (agents.get? a.owner).isSome

variable {agents : Dict Executor} {net net' : Network} {id : String} {n n' : Node}

theorem Fresh.faithful (h : net.Fresh agents) : net.Faithful agents := by
  have hs : ∀ t, net.started.get? t = none := fun t => by rw [h.started_eq, Dict.get?_empty]
  refine
    { isSome_nodes := h.mesh.isSome_nodes
      node := fun id n hn => ?_
      flight := fun e he => by simp [h.flight_eq] at he
      queue := fun e he => by simp [h.queue_eq] at he
      owner := fun t a ha => by simp [hs] at ha }
  have hb : ∀ t, n.ledger.box.get? t = none := fun t => by
    rw [BallotBox.get?, h.mesh.ballots_eq id n hn, Dict.get?_empty]
  refine { h.mesh.member id n hn with unknown := fun t _ => ⟨hb t, ?_⟩, docket := ?_, awaited := ?_ }
  · rw [h.mesh.records_eq id n hn, Dict.get?_empty]
  · intro t a ha
    simp [hs] at ha
  · intro t x hx
    simp [h.mesh.awaited_eq id n hn] at hx

theorem Faithful.isSome_agents (h : net.Faithful agents) (hn : net.nodes.get? id = some n) :
    (agents.get? id).isSome := (h.isSome_nodes id).mp (by simp [hn])

theorem Faithful.put (h : net.Faithful agents) (hself : (agents.get? id).isSome)
    (hn' : n'.Faithful agents net.started id) :
    Faithful agents { net with nodes := net.nodes.insert id n' } := by
  refine { h with isSome_nodes := fun k => ?_, node := fun k m hm => ?_ }
  · change ((net.nodes.insert id n').get? k).isSome ↔ _
    rw [Dict.get?_insert]
    split
    · next he => simp [← he, hself]
    · exact h.isSome_nodes k
  · change (net.nodes.insert id n').get? k = some m at hm
    rw [Dict.get?_insert] at hm
    split at hm
    · next he =>
      cases hm
      exact he ▸ hn'
    · exact h.node k m hm

theorem Faithful.post (h : net.Faithful agents) (hself : (agents.get? id).isSome)
    (hn' : n'.Faithful agents net.started id) (sends : List Message)
    (hs : ∀ m ∈ sends, m.sender = id ∧ m.Genuine agents net.started) :
    (net.post id n' sends).Faithful agents := by
  refine { h.put hself hn' with flight := fun e he => ?_ }
  rcases Multiset.mem_add.mp he with he | he
  · exact h.flight e he
  · obtain ⟨hm, hp⟩ := Node.mem_envelopes.mp he
    obtain ⟨hne, hk⟩ := (hn'.isSome_peers e.1).mp hp
    exact ⟨hk, (hs e.2 hm).1 ▸ hne.symm, (hs e.2 hm).2⟩

theorem Faithful.insert_started (h : net.Faithful agents) {t : String}
    (hnew : net.started.get? t = none) {a : Announcement} (ha : (agents.get? a.owner).isSome) :
    Faithful agents { net with started := net.started.insert t a } := by
  refine
    { isSome_nodes := h.isSome_nodes
      node := fun k m hm => (h.node k m hm).insert_started (h.isSome_agents hm) hnew a
      flight := fun e he => ?_, queue := fun e he => ?_, owner := fun t' a' ha' => ?_ }
  · obtain ⟨h1, h2, h3⟩ := h.flight e he
    exact ⟨h1, h2, h3.insert_started hnew a⟩
  · obtain ⟨hk, a', t', ha', hm⟩ := h.queue e he
    exact ⟨hk, a', t', Dict.get?_insert_of_none hnew a ha', hm⟩
  · rw [Dict.get?_insert] at ha'
    split at ha'
    · exact Option.some.inj ha' ▸ ha
    · exact h.owner t' a' ha'

theorem Faithful.of_flight (h : net.Faithful agents) (flight : Multiset (String × Message))
    (hf : ∀ e ∈ flight, e ∈ net.flight) : Faithful agents { net with flight := flight } :=
  { h with flight := fun e he => h.flight e (hf e he) }

theorem Faithful.of_queue (h : net.Faithful agents) (queue : Multiset (String × Message))
    (hq : ∀ e ∈ queue, (agents.get? e.1).isSome ∧
      ∃ a t, net.started.get? t = some a ∧ e.2 = a.message t) :
    Faithful agents { net with queue := queue } :=
  { h with queue := hq }

theorem Faithful.handle (h : net.Faithful agents) (hn : net.nodes.get? id = some n) {m : Message}
    (hm : (id, m) ∈ net.flight) (now : Instant) :
    Node.Handled agents net.started id n m (n.handle m now) := by
  obtain ⟨hself, hne, hg⟩ := h.flight (id, m) hm
  exact (h.node id n hn).handle hself now hg hne

theorem Faithful.run_genuine (h : net.Faithful agents) {m m' : Message} (hm : (id, m) ∈ net.flight)
    (hm' : m' ∈ if m.kind = .task then [m] else []) :
    ∃ a t, net.started.get? t = some a ∧ m' = a.message t := by
  obtain ⟨-, -, hg⟩ := h.flight (id, m) hm
  cases hg with
  | task ha => exact ⟨_, _, ha, List.mem_singleton.mp hm'⟩
  | result => exact absurd hm' List.not_mem_nil
  | consensus => exact absurd hm' List.not_mem_nil

theorem Faithful.start (h : net.Faithful agents) (hn : net.nodes.get? id = some n) {t : String}
    (hnew : net.started.get? t = none) (task : String) (context : Fields) (now : Instant) :
    Faithful agents
      { net.post id (n.start t task context now).1 [(n.start t task context now).2] with
        queue := (id, (n.start t task context now).2) ::ₘ net.queue
        started := net.started.insert t ⟨n.id, task, context⟩ } := by
  have hself := h.isSome_agents hn
  let a : Announcement := ⟨id, task, context⟩
  obtain ⟨hf', -, hm⟩ := (h.node id n hn).start hself now hnew task context
  have ha : (net.started.insert t a).get? t = some a := Dict.get?_insert_self _ t a
  rw [(h.node id n hn).id_eq, hm]
  have hs := h.insert_started hnew (show (agents.get? a.owner).isSome from hself)
  have hp := hs.post hself hf' [a.message t] (by
    intro m hm'
    rw [List.mem_singleton.mp hm']
    exact ⟨rfl, .task ha⟩)
  refine hp.of_queue _ fun e he => ?_
  rcases Multiset.mem_cons.mp he with rfl | he
  · exact ⟨hself, a, t, ha, rfl⟩
  · exact hs.queue e he

theorem Faithful.execute (h : net.Faithful agents) (hn : net.nodes.get? id = some n) {m : Message}
    {rest : Multiset (String × Message)} (hq : net.queue = (id, m) ::ₘ rest) (now : Instant) :
    Faithful agents
      ({ net with queue := rest }.post id (n.execute m now).1 (n.execute m now).2) := by
  obtain ⟨hself, a, t, ha, rfl⟩ := h.queue (id, m) (by simp [hq])
  obtain ⟨hf', -, -, hsends⟩ := (h.node id n hn).execute hself ha now
  have hr := h.of_queue rest fun e he => h.queue e (by simp [hq, he])
  exact hr.post hself hf' _ fun m hm => ⟨(hsends m hm).1, (hsends m hm).2.2⟩

theorem Faithful.deliver (h : net.Faithful agents) (hn : net.nodes.get? id = some n) {m : Message}
    {rest : Multiset (String × Message)} (hf : net.flight = (id, m) ::ₘ rest) (now : Instant) :
    Faithful agents
      { { net with flight := rest }.post id (n.handle m now).node (n.handle m now).sends with
        queue := net.queue + ((n.handle m now).runs : Multiset Message).map fun m => (id, m) } := by
  have hself := h.isSome_agents hn
  have hm : (id, m) ∈ net.flight := by simp [hf]
  have hd := h.handle hn hm now
  have hr := h.of_flight rest fun e he => by simp [hf, he]
  have hp := hr.post hself hd.faithful (n.handle m now).sends
    fun m' hm' => ⟨(hd.sends m' hm').2.1, (hd.sends m' hm').2.2.2⟩
  refine hp.of_queue _ fun e he => ?_
  rcases Multiset.mem_add.mp he with he | he
  · exact h.queue e he
  · obtain ⟨m', hm', rfl⟩ := Multiset.mem_map.mp he
    exact ⟨hself, h.run_genuine hm (hd.runs ▸ Multiset.mem_coe.mp hm')⟩

theorem Faithful.step {lossy : Bool} (h : net.Faithful agents) (hs : Step lossy net net') :
    net'.Faithful agents := by
  cases hs with
  | start taskId task context now hn hnew => exact h.start hn hnew task context now
  | execute now hn hq => exact h.execute hn hq now
  | deliver now hn hf => exact h.deliver hn hf now
  | duplicate hf =>
    refine h.of_flight _ fun e he => ?_
    rcases Multiset.mem_cons.mp he with rfl | he
    · exact hf
    · exact he
  | lose _ hf => exact h.of_flight _ fun e he => by simp [hf, he]
  | contact failure now hn =>
    exact h.put (h.isSome_agents hn) ((h.node _ _ hn).noteContacts failure now)
  | await taskId hn => exact h.put (h.isSome_agents hn) ((h.node _ _ hn).await taskId)
  | leave taskId hn => exact h.put (h.isSome_agents hn) ((h.node _ _ hn).stopWaiting taskId)

theorem Faithful.steps {lossy : Bool} (h : net.Faithful agents) (hs : Steps lossy net net') :
    net'.Faithful agents := by
  induction hs with
  | refl => exact h
  | tail _ hs ih => exact ih.step hs

theorem Faithful.result_eq (h : net.Faithful agents) {t : String} {a : Announcement}
    (ha : net.started.get? t = some a) (hn : net.nodes.get? id = some n) {b : Ballot}
    (hb : n.ledger.box.get? t = some b) {x : String} (hx : b.result = some x) :
    x = a.decision agents := by
  have hd := (h.node id n hn).docket t a ha default
  have hheld : (n.ledger.docket t default).ballot = b := BallotBox.held_of_some hb default
  exact (hd.final x (hheld ▸ hx)).1

end Network

end AgentMesh
