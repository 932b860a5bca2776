import AgentMesh.Proofs.Exchange.Nesting
import AgentMesh.Proofs.Exchange.Unwatched

/-!
No message storm. Whatever is done in a mesh ends, whoever neighbours whom, and the mesh, which follows
broadcasts down to a fixed depth, misses nothing of it (`Mesh.no_message_storm`).
-/

namespace AgentMesh

namespace Mesh

variable {now : Instant} {l : Nat} {act : Activity} {mesh mesh' : Mesh} {τ : List Event}
  {id url : String} {m : Message}

theorem course_receive {forward : Mesh → String → Message → Mesh}
    (h : ∀ mesh c, m.kind = .result → c.kind = .consensus →
      ∃ τ, Course now l (.broadcast id [c]) mesh τ (forward mesh id c)) (mesh : Mesh) :
    ∃ τ, Course now l (.receive id m) mesh τ (receive forward mesh id m now).1 := by
  cases hn : mesh.nodes.get? id with
  | none =>
    refine ⟨[], ?_⟩
    simp only [receive, hn]
    exact .receive_unknown hn
  | some n =>
    have hreceive : (receive forward mesh id m now).1 =
        (n.handle m now).sends.foldl (fun mesh m => forward mesh id m)
          (mesh.handled id n m now) := by
      simp only [receive, hn]
      rfl
    obtain ⟨c, hc, hs⟩ := n.handle_sends m now
    cases c with
    | none =>
      refine ⟨[], .receive hn ?_⟩
      rw [hreceive, hs]
      exact .broadcast_nil
    | some c =>
      obtain ⟨hm, hkind⟩ := hc c rfl
      obtain ⟨τ, hτ⟩ := h (mesh.handled id n m now) c hm hkind
      refine ⟨τ, .receive hn ?_⟩
      rw [hreceive, hs]
      exact hτ

theorem course_hand {depth : Nat}
    (h : ∀ mesh k c, m.kind = .result → c.kind = .consensus →
      ∃ τ, Course now (l + 1) (.broadcast k [c]) mesh τ (broadcastWithin depth now mesh k c))
    (mesh : Mesh) (p : Peer) :
    ∃ τ, Course now l (.send p.exchangeUrl m) mesh τ (hand depth now m mesh p) := by
  cases hr : mesh.route? p.exchangeUrl with
  | none =>
    have hlost : hand depth now m mesh p = mesh.logged p.exchangeUrl m now := by
      unfold hand
      unfold route? at hr
      cases hf : mesh.failure p.exchangeUrl with
      | some error => rfl
      | none =>
        rw [hf] at hr
        simp only [hr]
        rfl
    rw [hlost]
    exact ⟨_, .send_lost hr⟩
  | some k =>
    obtain ⟨τ, hτ⟩ := course_receive (fun mesh c => h mesh k c) (mesh.logged p.exchangeUrl m now)
    rw [hand_of_route hr]
    exact ⟨_, .send hr hτ⟩

theorem course_sendEach {f : Mesh → Peer → Mesh}
    (h : ∀ mesh p, ∃ τ, Course now l (.send p.exchangeUrl m) mesh τ (f mesh p)) (ps : List Peer)
    (mesh : Mesh) :
    ∃ τ, Course now l (.sendEach m (ps.map Peer.exchangeUrl)) mesh τ (ps.foldl f mesh) := by
  induction ps generalizing mesh with
  | nil => exact ⟨[], .sendEach_nil⟩
  | cons p rest ih =>
    obtain ⟨τ, hτ⟩ := h mesh p
    obtain ⟨τ', hτ'⟩ := ih (f mesh p)
    exact ⟨τ ++ τ', .sendEach_cons hτ hτ'⟩

theorem course_broadcastWithin {depth : Nat}
    (h : ∀ mesh k c, m.kind = .result → c.kind = .consensus →
      ∃ τ, Course now (l + 1) (.broadcast k [c]) mesh τ (broadcastWithin depth now mesh k c))
    (mesh : Mesh) (id : String) :
    ∃ τ, Course now l (.broadcast id [m]) mesh τ (broadcastWithin (depth + 1) now mesh id m) := by
  cases hn : mesh.nodes.get? id with
  | none =>
    refine ⟨[], ?_⟩
    simp only [broadcastWithin, hn]
    exact .broadcast_unknown hn
  | some n =>
    obtain ⟨τ, hτ⟩ := course_sendEach (course_hand h) n.peers.values mesh
    rw [broadcastWithin_succ hn]
    exact ⟨τ ++ [], .broadcast_cons hn hτ .broadcast_nil⟩

/-- Nothing comes of telling a result, so the depth that the mesh follows is enough. -/
theorem course_broadcast (now : Instant) (l : Nat) (mesh : Mesh) (id : String) (m : Message) :
    ∃ τ, Course now l (.broadcast id [m]) mesh τ (mesh.broadcast now id m) := by
  -- what a vote makes its receiver broadcast is a result, and a result is never followed by anything
  refine course_broadcastWithin (fun mesh k c _ hc => ?_) mesh id
  refine course_broadcastWithin (fun _ _ _ hresult _ => ?_) mesh k
  rw [hc] at hresult
  cases hresult

theorem Course.broadcast_concat {mesh₂ : Mesh} {ms : List Message} {τ' : List Event}
    (h : Course now l (.broadcast id [m]) mesh τ mesh')
    (h' : Course now l (.broadcast id ms) mesh' τ' mesh₂) :
    Course now l (.broadcast id (m :: ms)) mesh (τ ++ τ') mesh₂ := by
  cases h with
  | broadcast_unknown hn =>
    cases h' with
    | broadcast_nil => exact .broadcast_unknown hn
    | broadcast_unknown => exact .broadcast_unknown hn
    | broadcast_cons hn' => simp [hn] at hn'
  | broadcast_cons hn h h₀ =>
    cases h₀ <;> exact (List.append_nil _).symm ▸ .broadcast_cons hn h h'

theorem course_broadcastAll (now : Instant) (l : Nat) (id : String) (ms : List Message)
    (mesh : Mesh) : ∃ τ, Course now l (.broadcast id ms) mesh τ (mesh.broadcastAll now id ms) := by
  induction ms generalizing mesh with
  | nil => exact ⟨[], .broadcast_nil⟩
  | cons m rest ih =>
    obtain ⟨τ, hτ⟩ := course_broadcast now l mesh id m
    obtain ⟨τ', hτ'⟩ := ih (mesh.broadcast now id m)
    exact ⟨τ ++ τ', hτ.broadcast_concat hτ'⟩

theorem course_exchange (now : Instant) (l : Nat) (mesh : Mesh) (id : String) (m : Message) :
    ∃ τ, Course now l (.receive id m) mesh τ (mesh.exchange now id m).1 :=
  course_receive (fun mesh c _ _ => course_broadcast now l mesh id c) mesh

theorem course_send (now : Instant) (l : Nat) (mesh : Mesh) (url : String) (m : Message) :
    ∃ τ mesh', Course now l (.send url m) mesh τ mesh' := by
  cases hr : mesh.route? url with
  | none => exact ⟨_, _, .send_lost hr⟩
  | some id =>
    obtain ⟨τ, hτ⟩ := course_exchange now (l + 1) (mesh.logged url m now) id m
    exact ⟨_, _, .send hr hτ⟩

theorem course_execute (now : Instant) (l : Nat) (mesh : Mesh) (id : String) (m : Message) :
    ∃ τ, Course now l (.execute id m) mesh (.ran id m :: τ) (mesh.execute now id m) := by
  cases hn : mesh.nodes.get? id with
  | none =>
    refine ⟨[], ?_⟩
    simp only [execute, hn]
    exact .execute_unknown hn
  | some n =>
    obtain ⟨τ, hτ⟩ :=
      course_broadcastAll now l id (n.execute m now).2 (mesh.put (n.execute m now).1)
    refine ⟨τ, ?_⟩
    simp only [execute, hn]
    exact .execute hn hτ

theorem course_executeEach (now : Instant) (l : Nat) (runs : List (String × Message))
    (mesh : Mesh) :
    ∃ τ, Course now l (.executeEach runs) mesh τ
      (runs.foldl (fun mesh run => mesh.execute now run.1 run.2) mesh) := by
  induction runs generalizing mesh with
  | nil => exact ⟨[], .executeEach_nil⟩
  | cons run rest ih =>
    obtain ⟨τ, hτ⟩ := course_execute now l mesh run.1 run.2
    obtain ⟨τ', hτ'⟩ := ih (mesh.execute now run.1 run.2)
    exact ⟨_, .executeEach_cons hτ hτ'⟩

/-- Executions add none, so one round is all that a drain takes. -/
theorem course_drain (now : Instant) (l : Nat) (mesh : Mesh) :
    ∃ τ, Course now l .drain mesh τ (mesh.drain now) := by
  by_cases hq : mesh.queue = []
  · rw [drain_of_idle hq]
    exact ⟨[], .drain_done hq⟩
  · obtain ⟨τ, hτ⟩ := course_executeEach now l mesh.queue { mesh with queue := [] }
    exact ⟨_, .drain_more hq hτ (.drain_done (drain_queue mesh now))⟩

theorem course_submit (now : Instant) (l : Nat) {mesh : Mesh} {id : String} {n : Node}
    (hn : mesh.nodes.get? id = some n) (t result : String) (owner : Option String) (task : String)
    (context : Fields) :
    ∃ τ, Course now l (.submit id t result owner task context) mesh τ
      (mesh.submit now id t result owner task context).1 := by
  obtain ⟨τ, hτ⟩ := course_broadcastAll now l id (n.submit t result owner task context now).2.2
    (mesh.put (n.submit t result owner task context now).1)
  refine ⟨τ, ?_⟩
  simp only [submit, hn]
  exact .submit hn hτ

theorem course_await (now : Instant) (l : Nat) (mesh : Mesh) (id t : String) :
    ∃ τ, Course now l (.await id t) mesh τ (mesh.awaitResult now id t).1 := by
  cases hr : mesh.awaitedResult? id t with
  | some r =>
    have hsome : (mesh.awaitedResult? id t).isSome := Option.isSome_of_eq_some hr
    obtain ⟨τ, hτ⟩ := course_drain now l (mesh.update id (·.stopWaiting t))
    refine ⟨τ, .await_told hsome ?_⟩
    simpa only [awaitResult, hsome, if_true] using hτ
  | none =>
    obtain ⟨τ, hτ⟩ := course_drain now l mesh
    obtain ⟨τ', hτ'⟩ := course_drain now l ((mesh.drain now).update id (·.stopWaiting t))
    refine ⟨τ ++ τ', .await_more hr hτ ?_⟩
    simpa [awaitResult, hr] using hτ'

theorem course_dispatch (now : Instant) (l : Nat) {mesh : Mesh} {id : String} {n : Node}
    (hn : mesh.nodes.get? id = some n) (t task : String) (context : Fields) (timeout : Nat) :
    ∃ τ, Course now l (.dispatch id t task context) mesh τ
      (mesh.dispatch now id t task context timeout).1 := by
  let m := n.taskMessage t task context
  let opened := mesh.put ((n.start t task context now).1.await t)
  have hstart : mesh.start now id t task context true =
      (opened.broadcast now id m).execute now id m := by
    simp only [start, hn, if_true]
    rfl
  obtain ⟨τ, hτ⟩ := course_broadcast now l opened id m
  obtain ⟨τ₁, hτ₁⟩ := course_execute now l (opened.broadcast now id m) id m
  obtain ⟨τ₂, hτ₂⟩ := course_await now l ((opened.broadcast now id m).execute now id m) id t
  rw [← hstart] at hτ₁ hτ₂
  exact ⟨_, .dispatch hn hτ hτ₁ hτ₂⟩

/-- Executions add none to those that wait. -/
theorem Course.drain_ran (h : Course now l .drain mesh τ mesh') : ran τ = mesh.queue := by
  cases h with
  | drain_done hq => rw [hq]; rfl
  | drain_more hq h h' =>
    obtain ⟨τ₀, hτ₀⟩ := course_executeEach now l mesh.queue { mesh with queue := [] }
    obtain ⟨rfl, rfl⟩ := hτ₀.unique h
    have hidle : (mesh.drain now).queue = [] := drain_queue mesh now
    cases h' with
    | drain_done => rw [List.append_nil, h.executeEach_ran]
    | drain_more hq' => exact absurd hidle hq'

theorem Built.named_run (h : mesh.Built) (ops : List Op) : (mesh.run ops).Named :=
  fun id n hn => (h.sound.run ops id n hn).1

/-- What is done ends, in this way and no other, and the log shows what was sent meanwhile. Envelopes
sent while another is handed over are results, and nothing is sent while those are. -/
structure Ends (now : Instant) (act : Activity) (mesh : Mesh) (τ : List Event) (mesh' : Mesh) :
    Prop where
  course : Course now 1 act mesh τ mesh'
  unique : ∀ τ₂ mesh₂, Course now 1 act mesh τ₂ mesh₂ → τ₂ = τ ∧ mesh₂ = mesh'
  log_eq : mesh'.log = mesh.log ++ τ.filterMap (Event.sent? now)
  within : ∀ e ∈ τ, e.Within 1

theorem Course.ends (h : Course now 1 act mesh τ mesh') : Ends now act mesh τ mesh' :=
  ⟨h, fun _ _ h₂ => h.unique h₂, h.log_eq, h.within⟩

/-- In a mesh of any agents that stand under their identifiers, in any state and wherever envelopes go:
an agent tells nothing when it is handed a message that is no vote, and for a vote no more than one
result, to each neighbour once; an execution tells each neighbour one vote and after that one result at
most, or nothing at all where there is no executor. All that is done ends, with nothing sent more than
one level down, and a drain runs the executions that waited when it began, in order, and leaves none. -/
theorem no_message_storm {mesh : Mesh} (hnamed : mesh.Named) (now : Instant) :
    (∀ url m, ∃ τ mesh', Ends now (.send url m) mesh τ mesh') ∧
      (∀ id n, mesh.nodes.get? id = some n →
        (∀ m, ∃ τ, Ends now (.receive id m) mesh τ (mesh.exchange now id m).1 ∧
          (m.kind ≠ .result → τ = []) ∧
          ∃ c : Option Message, (∀ c' ∈ c, c'.kind = .consensus) ∧
            τ = (spread n.urls c.toList).map fun e => .sent 1 e.1 e.2) ∧
        (∀ m, ∃ τ, Ends now (.execute id m) mesh (.ran id m :: τ) (mesh.execute now id m) ∧
          (n.executor = none → τ = []) ∧
          (n.executor ≠ none → ∃ (r : Message) (c : Option Message), r.kind = .result ∧
            (∀ c' ∈ c, c'.kind = .consensus) ∧ told 1 τ = spread n.urls (r :: c.toList)) ∧
          ∀ l url m', Event.sent l url m' ∈ τ → m'.kind ≠ .task) ∧
        (∀ t result owner task context, ∃ τ, Ends now (.submit id t result owner task context) mesh τ
          (mesh.submit now id t result owner task context).1) ∧
        ∀ t task context timeout, ∃ τ, Ends now (.dispatch id t task context) mesh τ
          (mesh.dispatch now id t task context timeout).1) ∧
      ∃ τ, Ends now .drain mesh τ (mesh.drain now) ∧ ran τ = mesh.queue ∧
        (mesh.drain now).queue = [] := by
  refine ⟨fun url m => ?_, fun id n hn => ⟨fun m => ?_, fun m => ?_, ?_, ?_⟩, ?_⟩
  · obtain ⟨τ, mesh', hτ⟩ := course_send now 1 mesh url m
    exact ⟨τ, mesh', hτ.ends⟩
  · obtain ⟨τ, hτ⟩ := course_exchange now 1 mesh id m
    obtain ⟨c, urls, hc, hurls, he⟩ := hτ.receive_told
    rw [hurls hnamed, urls_of_some hn] at he
    exact ⟨τ, hτ.ends, hτ.receive_quiet, c, fun c' hc' => (hc c' hc').2, he⟩
  · obtain ⟨τ₀, hτ⟩ := course_execute now 1 mesh id m
    obtain ⟨τ, he, hidle, htold⟩ := hτ.execute_told hnamed hn
    obtain rfl := List.tail_eq_of_cons_eq he
    refine ⟨τ₀, hτ.ends, hidle, fun hbusy => ?_, fun l url m' hmem =>
      hτ.execute_tells_no_task hnamed hn (List.mem_cons_of_mem _ hmem)⟩
    obtain ⟨r, c, hr, hc, hs⟩ := Node.execute_sends hbusy m now
    exact ⟨r, c, hr, hc, hs ▸ htold⟩
  · intro t result owner task context
    obtain ⟨τ, hτ⟩ := course_submit now 1 hn t result owner task context
    exact ⟨τ, hτ.ends⟩
  · intro t task context timeout
    obtain ⟨τ, hτ⟩ := course_dispatch now 1 hn t task context timeout
    exact ⟨τ, hτ.ends⟩
  · obtain ⟨τ, hτ⟩ := course_drain now 1 mesh
    exact ⟨τ, hτ.ends, hτ.drain_ran, drain_queue mesh now⟩

/-- An agent that neighbours itself and another, and expects two answers. -/
def gossip (id : String) : Node :=
  Node.build id [Peer.ofEndpoint "a" "http://a", Peer.ofEndpoint "b" "http://b"]
    (some (Executor.constant id)) (some 2) (Ledger.empty transcript Retention.unbounded)

def gossips : Mesh where
  nodes := Dict.ofList [("a", gossip "a"), ("b", gossip "b")]
  addresses := Dict.ofList
    [((Peer.ofEndpoint "a" "http://a").exchangeUrl, "a"),
      ((Peer.ofEndpoint "b" "http://b").exchangeUrl, "b")]
  failure := fun _ => none
  queue := []
  log := []

theorem built_gossips : gossips.Built := by
  intro id n hn
  have hmem := Dict.mem_of_get?_ofList hn
  simp only [List.mem_cons, List.not_mem_nil, or_false, Prod.mk.injEq] at hmem
  obtain ⟨rfl, rfl⟩ | ⟨rfl, rfl⟩ := hmem <;> exact ⟨_, _, _, _, _, rfl⟩

/-- The vote of the second agent completes the ballots of both, and each tells the result to both, the
first while it is handed the vote. -/
theorem no_message_storm_gossips :
    let now := Instant.ofNanos 0
    let task : Message := ⟨.task, "c", "t", Dict.empty⟩
    let mesh := gossips.run [.exchange "a" task now, .exchange "b" task now]
    (∃ τ, Ends now .drain mesh τ (mesh.drain now) ∧ ran τ = mesh.queue) ∧
      mesh.queue.map Prod.fst = ["a", "b"] ∧
      (mesh.drain now).log.map (fun s => (s.message.sender, s.message.kind)) =
        [("a", .result), ("a", .result), ("b", .result), ("a", .consensus), ("a", .consensus),
          ("b", .result), ("b", .consensus), ("b", .consensus)] := by
  intro now task mesh
  obtain ⟨-, -, τ, hends, hran, -⟩ := no_message_storm (built_gossips.named_run _) now
  exact ⟨⟨τ, hends, hran⟩, by decide, by decide⟩

end Mesh

end AgentMesh
