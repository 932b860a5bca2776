import AgentMesh.Proofs.Exchange.Build

/-!
Agreement and convergence of a full mesh. Whatever the network does with the envelopes, no two agents
hold different results of a started task. Where no envelope is lost all agents come to hold the
transcript of all votes, and whoever dispatches a task gets it.
-/

namespace AgentMesh

variable {agents : Dict Executor}

theorem Network.Step.lossy {net net' : Network} (h : Network.Step false net net') :
    Network.Step true net net' := by
  cases h with
  | start taskId task context now hn hnew => exact .start taskId task context now hn hnew
  | execute now hn hq => exact .execute now hn hq
  | deliver now hn hf => exact .deliver now hn hf
  | duplicate hf => exact .duplicate hf
  | lose hl => cases hl
  | contact failure now hn => exact .contact failure now hn
  | await taskId hn => exact .await taskId hn
  | leave taskId hn => exact .leave taskId hn

theorem Network.Steps.lossy {net net' : Network} (h : Network.Steps false net net') :
    Network.Steps true net net' := by
  induction h with
  | refl => exact .refl
  | tail _ hs ih => exact ih.tail hs.lossy

theorem Network.Faithful.awaitedResult_eq {net : Network} (h : net.Faithful agents) {id t : String}
    {n : Node} {a : Announcement} (hn : net.nodes.get? id = some n)
    (ha : net.started.get? t = some a) {x : String} (hx : n.awaitedResult? t = some x) :
    x = a.decision agents := by
  have hshown : n.awaited.get? t = some (some x) := by
    unfold Node.awaitedResult? at hx
    cases hw : n.awaited.get? t with
    | none => simp [hw] at hx
    | some y => simpa [hw] using hx
  have hsignal := (h.node id n hn).awaited t (some x) hshown
  have hd := (h.node id n hn).docket t a ha default
  rw [← n.ledger.docket_signal t default, hd.signal_eq] at hsignal
  exact (hd.final x hsignal.symm).1

namespace Mesh

variable {mesh : Mesh} {id t : String} {n : Node}

theorem Fresh.start_drain (h : mesh.Fresh agents) (hn : mesh.nodes.get? id = some n)
    (t task : String) (context : Fields) (now : Instant) :
    let mesh₁ := mesh.start now id t task context true
    let mesh₂ := mesh₁.drain now
    let started := Dict.empty.insert t ⟨id, task, context⟩
    Network.Steps false (mesh.network 0 0 Dict.empty) (mesh₁.network 0 0 started) ∧
      Network.Steps false (mesh₁.network 0 0 started) (mesh₂.network 0 0 started) ∧
      mesh₂.Wired mesh.route? (fun j t' => j = id ∧ t' = t) ∧
      (mesh₂.network 0 0 started).queue = 0 := by
  intro mesh₁ mesh₂ started
  have hf := h.network.faithful
  obtain ⟨hw₁, hs₁⟩ := start_steps h.wired hf hn (Dict.get?_empty t) task context now
  obtain ⟨hw₂, hs₂, hq⟩ := drain_steps hw₁ (hf.steps hs₁) now
  refine ⟨hs₁, hs₂, hw₂, ?_⟩
  change (mesh₂.queue : Multiset (String × Message)) + 0 = 0
  rw [hq]
  rfl

theorem Fresh.exists_quiescent (h : mesh.Fresh agents) {id : String}
    (hself : (agents.get? id).isSome) (t task : String) (context : Fields) (now : Instant) :
    ∃ net, Network.Steps false (mesh.network 0 0 Dict.empty) net ∧ net.flight = 0 ∧ net.queue = 0 ∧
      net.started.get? t = some ⟨id, task, context⟩ := by
  obtain ⟨n, hn⟩ := exists_node h.network.faithful hself
  obtain ⟨hs₁, hs₂, -, hqueue⟩ := h.start_drain hn t task context now
  exact ⟨_, hs₁.trans hs₂, rfl, hqueue, Dict.get?_insert_self Dict.empty t _⟩

theorem awaitedResult?_of_settled {net : Network} (hf : net.Faithful agents)
    (hc : net.Covered agents) (hflight : net.flight = 0) (hqueue : net.queue = 0)
    {a : Announcement} (ha : net.started.get? t = some a) (hn : net.nodes.get? id = some n)
    (hwait : (n.awaited.get? t).isSome) : n.awaitedResult? t = some (a.decision agents) := by
  obtain ⟨b, r, hb, -, -, hsignal, -⟩ := hf.settled hc hflight hqueue ha hn
  obtain ⟨y, hy⟩ := Option.isSome_iff_exists.mp hwait
  have hshown := (hf.node id n hn).awaited t y hy
  rw [hb] at hshown
  have he : y = some (a.decision agents) := hshown.trans hsignal
  simp [Node.awaitedResult?, hy, he]

theorem Fresh.dispatch_eq (h : mesh.Fresh agents) (hself : (agents.get? id).isSome) (t task : String)
    (context : Fields) (now : Instant) (timeout : Nat) :
    (mesh.dispatch now id t task context timeout).2 =
      .ok (Announcement.decision ⟨id, task, context⟩ agents) := by
  obtain ⟨n, hn⟩ := exists_node h.network.faithful hself
  obtain ⟨hs₁, hs₂, hw₂, hqueue⟩ := h.start_drain hn t task context now
  let a : Announcement := ⟨id, task, context⟩
  let mesh₁ := mesh.start now id t task context true
  have hf₁ := h.network.faithful.steps hs₁
  have hf₂ := hf₁.steps hs₂
  have ha : (Dict.empty.insert t a).get? t = some a := Dict.get?_insert_self Dict.empty t a
  have hshown : (if (mesh₁.awaitedResult? id t).isSome then mesh₁ else mesh₁.drain now).awaitedResult?
      id t = some (a.decision agents) := by
    split
    · -- all votes are in before the waiting executions run, as when the agent is alone
      next hsome =>
      obtain ⟨x, hx⟩ := Option.isSome_iff_exists.mp hsome
      obtain ⟨n₁, hn₁, hx₁⟩ := Option.bind_eq_some_iff.mp hx
      rw [hx, hf₁.awaitedResult_eq hn₁ ha hx₁]
    · obtain ⟨n₂, hn₂⟩ := exists_node hf₂ hself
      have hc₂ := h.network.covered.steps h.network.faithful (hs₁.trans hs₂)
      have hwait := hw₂.waits id n₂ t hn₂ ⟨rfl, rfl⟩
      rw [awaitedResult?, hn₂]
      exact awaitedResult?_of_settled hf₂ hc₂ rfl hqueue ha hn₂ hwait
  have hwait : (mesh₁.awaitResult now id t).2 = some (a.decision agents) := hshown
  simp only [dispatch, mesh₁] at hwait ⊢
  rw [hwait]

end Mesh

/-- Two agents, of which one fails at every task. -/
def duo : Dict Executor :=
  Dict.ofList [("a", Executor.constant "yes"), ("b", Executor.panicking)]

theorem fresh_duo : (Mesh.ofAgents duo fun id => "http://" ++ id).Fresh duo := by
  have hkeys : duo.keys = ["a", "b"] := by decide
  refine Mesh.fresh_ofAgents fun j k hj hk hurl => ?_
  rw [← Dict.mem_keys, hkeys] at hj hk
  simp only [List.mem_cons, List.not_mem_nil, or_false] at hj hk
  rcases hj with rfl | rfl <;> rcases hk with rfl | rfl
  · rfl
  · exact absurd hurl (by decide)
  · exact absurd hurl (by decide)
  · rfl

namespace Network

/-- Where no envelope of a full mesh is lost, each started task comes to its end: once nothing is in
flight and no execution waits, all agents hold the transcript of the votes of all as its result, and
their records tell its owner, the task, its context and all votes. So whoever dispatches a task in a
fresh mesh gets that transcript. -/
theorem convergence (hnamed : agents.get? "" = none) :
    (∀ net₀ net : Network, net₀.Fresh agents → Steps false net₀ net →
      net.flight = 0 → net.queue = 0 → ∀ t a, net.started.get? t = some a →
      ∀ id, (agents.get? id).isSome →
        ∃ n b r, net.nodes.get? id = some n ∧ n.ledger.box.get? t = some b ∧
          n.ledger.records.get? t = some r ∧ b.result = some (a.decision agents) ∧
          r.status = .consensus ∧ r.result = some (a.decision agents) ∧
          r.owner = some a.owner ∧ r.task = a.task ∧ r.context = a.context ∧
          r.responses = a.votes agents) ∧
    ∀ mesh : Mesh, mesh.Fresh agents → ∀ id, (agents.get? id).isSome →
      ∀ t task context now timeout,
        (mesh.dispatch now id t task context timeout).2 =
          .ok (Announcement.decision ⟨id, task, context⟩ agents) := by
  refine ⟨fun net₀ net hfresh hsteps hflight hqueue t a ha id hself => ?_, ?_⟩
  · have hf := hfresh.faithful.steps hsteps
    have hc := hfresh.covered.steps hfresh.faithful hsteps
    obtain ⟨n, hn⟩ := Option.isSome_iff_exists.mp ((hf.isSome_nodes id).mpr hself)
    obtain ⟨b, r, hb, hr, hresult, -, hstatus, hrec, howner, htask, hcontext, hvotes⟩ :=
      hf.settled hc hflight hqueue ha hn
    have hname : a.named = some a.owner := by
      have hne : a.owner ≠ "" := by
        intro he
        simpa [he, hnamed] using hf.owner t a ha
      simp [Announcement.named, Option.filter, hne]
    rw [hname] at howner
    exact ⟨n, b, r, hn, hb, hr, hresult, hstatus, hrec, howner, htask, hcontext, hvotes⟩
  · intro mesh hfresh id hself t task context now timeout
    exact hfresh.dispatch_eq hself t task context now timeout

/-- A vote that tells of a failure counts as any other. -/
theorem convergence_duo :
    let mesh := Mesh.ofAgents duo fun id => "http://" ++ id
    let a : Announcement := ⟨"b", "sum", Dict.empty⟩
    (∃ net n b, Steps false (mesh.network 0 0 Dict.empty) net ∧ net.flight = 0 ∧ net.queue = 0 ∧
        net.started.get? "t" = some a ∧ net.nodes.get? "a" = some n ∧
        n.ledger.box.get? "t" = some b ∧ b.result = some (a.decision duo)) ∧
      (mesh.dispatch (Instant.ofNanos 0) "b" "t" "sum" Dict.empty 1).2 =
        .ok "🤝 sum\na: yes\nb: ⚠️ executor error: executor panicked" := by
  intro mesh a
  have h := convergence (by decide : duo.get? "" = none)
  obtain ⟨net, hs, hflight, hqueue, ha⟩ := fresh_duo.exists_quiescent
    (by decide : (duo.get? "b").isSome) "t" "sum" Dict.empty (Instant.ofNanos 0)
  obtain ⟨n, b, -, hn, hb, -, hresult, -⟩ :=
    h.1 _ net fresh_duo.network hs hflight hqueue "t" a ha "a" (by decide)
  refine ⟨⟨net, n, b, hs, hflight, hqueue, ha, hn, hb, hresult⟩, ?_⟩
  have hd : a.decision duo = "🤝 sum\na: yes\nb: ⚠️ executor error: executor panicked" := by
    decide
  rw [← hd]
  exact h.2 mesh fresh_duo "b" (by decide) "t" "sum" Dict.empty (Instant.ofNanos 0) 1

end Network

end AgentMesh
