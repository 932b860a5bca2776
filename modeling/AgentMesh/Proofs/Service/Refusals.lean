import AgentMesh.Service.Basic
import AgentMesh.Proofs.Json.Printing

/-!
Requests that are refused. A service that answers a request with a fault of the client is as it was before,
and it has sent nothing. An envelope that is posted to it is taken if and only if it can be read, and
then the service does what its agent does with the envelope's message (`Service.refused_without_effect`).
-/

namespace AgentMesh

namespace Scheduler

theorem unregister_of_unknown {s : Scheduler} {id : String} {now : Instant}
    (h : (s.unregister id now).2 = none) : (s.unregister id now).1 = s := by
  unfold unregister at h ⊢
  split
  · rfl
  · next w hw =>
    rw [hw] at h
    cases h

end Scheduler

/-- A status that puts the fault with the client. -/
def Response.IsRefusal (r : Response) : Prop := 400 ≤ r.status ∧ r.status < 500

namespace Service

variable {s : Service} {now : Instant} {fresh : String} {r : Request}

theorem not_isRefusal_ok (body : Json) : ¬(Response.ok body).IsRefusal := by
  simp [Response.IsRefusal, Response.ok]

theorem perform_of_isRefusal {c : Command} (h : (s.perform now fresh c).2.IsRefusal) :
    (s.perform now fresh c).1 = s := by
  cases c with
  | showHealth | showPeers | listTasks limit | showTask taskId | showScheduler => rfl
  | exchange m | sendHeartbeats | register workerId capacity priority
  | noteWorker workerId update | submit taskId payload priority metadata
  | complete workerId taskId success => exact absurd h (not_isRefusal_ok _)
  | dispatch task context timeout =>
    -- a result that did not come in time is no fault of the client
    rw [perform] at h
    dsimp only at h
    split at h
    · exact absurd h (not_isRefusal_ok _)
    · simp [Response.IsRefusal] at h
  | unregister workerId =>
    have hcore : (s.scheduler.unregister workerId now).2 = none →
        (s.scheduler.unregister workerId now).1 = s.scheduler :=
      Scheduler.unregister_of_unknown
    rw [perform] at h ⊢
    split
    · next scheduler w hw =>
      rw [hw] at h
      exact absurd h (not_isRefusal_ok _)
    · next scheduler hnone =>
      rw [hnone] at hcore
      obtain rfl : scheduler = s.scheduler := hcore rfl
      rfl

theorem respond_of_command {c : Command} (h : r.command fresh now.seconds = .ok c) :
    (s.respond now fresh r).1 = (s.perform now fresh c).1 ∧
      (s.respond now fresh r).2.status = (s.perform now fresh c).2.status ∧
      (r.isHead = false →
        (s.respond now fresh r).2.body = (s.perform now fresh c).2.body) := by
  rw [respond, h]
  dsimp only
  cases r.isHead <;> simp

theorem respond_of_refusal {refusal : Refusal} (h : r.command fresh now.seconds = .error refusal) :
    (s.respond now fresh r).1 = s ∧
      (s.respond now fresh r).2.status = refusal.response.status := by
  rw [respond, h]
  dsimp only
  cases r.isHead <;> simp

theorem isRefusal_response (refusal : Refusal) : refusal.response.IsRefusal := by
  cases refusal <;> simp [Refusal.response, Response.fault, Response.IsRefusal]

theorem respond_of_isRefusal (h : (s.respond now fresh r).2.IsRefusal) :
    (s.respond now fresh r).1 = s := by
  cases hc : r.command fresh now.seconds with
  | error refusal => exact (respond_of_refusal hc).1
  | ok c =>
    obtain ⟨hstate, hstatus, -⟩ := respond_of_command (s := s) hc
    rw [Response.IsRefusal, hstatus] at h
    rw [hstate]
    exact perform_of_isRefusal h

theorem command_exchange (hmethod : r.method = "POST")
    (hpath : r.target.path = exchangePath.toList) (sentAt : Binary64) :
    r.command fresh sentAt = (r.envelope fresh sentAt).map fun e => .exchange e.toMessage := by
  have hendpoint : r.endpoint? = some .exchange := by
    rw [Request.endpoint?, Target.segments?, hpath]
    decide
  have hhead : r.isHead = false := by simp [Request.isHead, hmethod]
  rw [Request.command, hendpoint]
  simp only [hhead, hmethod]
  cases r.envelope fresh sentAt <;> rfl

theorem envelope_eq_ok {sentAt : Binary64} {e : Envelope}
    (hsize : r.body.length ≤ Request.maxBodyLength) :
    r.envelope fresh sentAt = .ok e ↔
      ∃ v, Json.parseBytes r.body = .ok v ∧ Envelope.ofJson fresh sentAt v = .ok e := by
  have hlarge : r.isTooLarge = false := by simpa [Request.isTooLarge] using hsize
  rw [Request.envelope, if_neg (by simp [hlarge])]
  cases Json.parseBytes r.body with
  | error f => simp
  | ok v => cases hv : Envelope.ofJson fresh sentAt v <;> simp [hv]

theorem perform_exchange {n : Node} (hn : s.node? = some n) (m : Message) :
    (s.perform now fresh (.exchange m)).1 =
        { s with mesh := (s.mesh.exchange now s.agentId m).1 } ∧
      (s.perform now fresh (.exchange m)).2 = .ok (n.handle m now).ack.toJson := by
  have hack : (s.mesh.exchange now s.agentId m).2 = some (n.handle m now).ack := by
    rw [Mesh.exchange, Mesh.receive, show s.mesh.nodes.get? s.agentId = some n from hn]
  exact ⟨rfl, congrArg (fun ack : Option Ack => Response.ok (ack.elim .null Ack.toJson)) hack⟩

/-- A service that answers a request with a fault of the client is as it was before: its agent, the
executions that wait, what was sent and its scheduler. A body of admissible length that is posted as an
envelope is taken if and only if it can be read as one. Then the agent's acknowledgement is the answer, and
the service is left as it is by handing the message to its agent. -/
theorem refused_without_effect (s : Service) (now : Instant) (fresh : String) (r : Request) :
    ((s.respond now fresh r).2.IsRefusal → (s.respond now fresh r).1 = s) ∧
    (r.method = "POST" → r.target.path = exchangePath.toList →
      r.body.length ≤ Request.maxBodyLength →
      ∀ n, s.node? = some n →
        ((s.respond now fresh r).2.status = 200 ↔
          ∃ v e, Json.parseBytes r.body = .ok v ∧
            Envelope.ofJson fresh now.seconds v = .ok e) ∧
        ∀ v e, Json.parseBytes r.body = .ok v → Envelope.ofJson fresh now.seconds v = .ok e →
          (s.respond now fresh r).1 =
              { s with mesh := (s.mesh.exchange now s.agentId e.toMessage).1 } ∧
            (s.respond now fresh r).2.body = some (n.handle e.toMessage now).ack.toJson) := by
  refine ⟨respond_of_isRefusal, fun hmethod hpath hsize n hn => ?_⟩
  have hcommand : r.command fresh now.seconds =
      (r.envelope fresh now.seconds).map fun e => .exchange e.toMessage :=
    command_exchange hmethod hpath now.seconds
  have hhead : r.isHead = false := by simp [Request.isHead, hmethod]
  have htaken : ∀ e, r.envelope fresh now.seconds = .ok e →
      (s.respond now fresh r).1 = { s with mesh := (s.mesh.exchange now s.agentId e.toMessage).1 } ∧
        (s.respond now fresh r).2.status = 200 ∧
        (s.respond now fresh r).2.body = some (n.handle e.toMessage now).ack.toJson := by
    intro e he
    rw [he] at hcommand
    obtain ⟨hstate, hstatus, hbody⟩ := respond_of_command (s := s) hcommand
    obtain ⟨hmesh, hresponse⟩ :
        (s.perform now fresh (.exchange e.toMessage)).1 =
            { s with mesh := (s.mesh.exchange now s.agentId e.toMessage).1 } ∧
          (s.perform now fresh (.exchange e.toMessage)).2 = .ok (n.handle e.toMessage now).ack.toJson :=
      perform_exchange hn e.toMessage
    rw [hstate, hstatus, hbody hhead, hmesh, hresponse]
    exact ⟨rfl, rfl, rfl⟩
  refine ⟨⟨fun hok => ?_, ?_⟩, fun v e hv he => ?_⟩
  · cases he : r.envelope fresh now.seconds with
    | ok e =>
      obtain ⟨v, hv, he⟩ := (envelope_eq_ok hsize).mp he
      exact ⟨v, e, hv, he⟩
    | error refusal =>
      rw [he] at hcommand
      have hrefusal := isRefusal_response refusal
      rw [Response.IsRefusal, ← (respond_of_refusal (s := s) hcommand).2, hok] at hrefusal
      omega
  · rintro ⟨v, e, hv, he⟩
    exact (htaken e ((envelope_eq_ok hsize).mpr ⟨v, hv, he⟩)).2.1
  · obtain ⟨hstate, -, hbody⟩ := htaken e ((envelope_eq_ok hsize).mpr ⟨v, hv, he⟩)
    exact ⟨hstate, hbody⟩

theorem node?_ofSettings (settings : Settings) : (ofSettings settings).node? = some settings.node :=
  Dict.get?_insert_self Dict.empty settings.agentId settings.node

def beat : Json :=
  Json.object [("kind", .str "heartbeat"), ("sender", .str "b"), ("task_id", .str "t")]

def postBeat : Request :=
  ⟨"POST", .ofText "/agent_exchange", none, Text.encodeUtf8 beat.render.toList⟩

theorem refused_without_effect_beat :
    let s := ofSettings Settings.default
    let now := Instant.ofNanos 0
    let removal : Request := ⟨"DELETE", .ofText "/api/orchestrator/agents/w", none, []⟩
    (s.respond now "id" removal).2.IsRefusal ∧ (s.respond now "id" removal).1 = s ∧
      postBeat.method = "POST" ∧ postBeat.target.path = exchangePath.toList ∧
      postBeat.body.length ≤ Request.maxBodyLength ∧ s.node? = some Settings.default.node ∧
      (s.respond now "id" postBeat).2.status = 200 ∧
      (s.respond now "id" postBeat).2.body = some Ack.alive.toJson := by
  intro s now removal
  have hrefusal : (s.respond now "id" removal).2.IsRefusal := ⟨by decide, by decide⟩
  have hpath : postBeat.target.path = exchangePath.toList := by decide
  have hsize : postBeat.body.length ≤ Request.maxBodyLength := by decide
  have hparse : Json.parseBytes postBeat.body = .ok beat := Eq.refl _
  have hread : Envelope.ofJson "id" now.seconds beat =
      .ok ⟨⟨.heartbeat, "b", "t", Dict.empty⟩, "id", now.seconds⟩ := by rfl
  have hn : s.node? = some Settings.default.node := node?_ofSettings _
  obtain ⟨htaken, hanswer⟩ :=
    (refused_without_effect s now "id" postBeat).2 rfl hpath hsize Settings.default.node hn
  exact ⟨hrefusal, (refused_without_effect s now "id" removal).1 hrefusal, rfl, hpath, hsize, hn,
    htaken.mpr ⟨beat, _, hparse, hread⟩, (hanswer beat _ hparse hread).2⟩

end Service

end AgentMesh
