import AgentMesh.Mesh
import AgentMesh.Scheduler.Status
import AgentMesh.Service.Request
import AgentMesh.Settings.Node

/-!
The service of one agent: its part of the mesh, a scheduler, and the answers to requests. Neighbours
are out of its reach here, so every send fails.
-/

namespace AgentMesh

structure Response where
  status : Nat
  body : Option Json

structure Service where
  agentId : String
  mesh : Mesh
  scheduler : Scheduler
  /-- How long results are waited for unless a request tells, in nanoseconds. -/
  dispatchTimeout : Nat

namespace Response

def ok (body : Json) : Response := ⟨200, some body⟩

def fault (status : Nat) (code : String) : Response :=
  ⟨status, some (Json.object [("ok", .bool false), ("error", .str code)])⟩

end Response

def Refusal.response : Refusal → Response
  | unknownPath => ⟨404, none⟩
  | unknownMethod => ⟨405, none⟩
  | unreadable => ⟨400, none⟩
  | tooLarge => ⟨413, none⟩
  | unsupportedMedia => ⟨415, none⟩
  | wrongShape => ⟨422, none⟩
  | invalid code => Response.fault 400 code

namespace Service

def sendFailure : String := "HTTP error"

def ofSettings (s : Settings) : Service :=
  { agentId := s.agentId
    mesh := { nodes := Dict.ofList [(s.agentId, s.node)], addresses := Dict.empty,
              failure := fun _ => some sendFailure, queue := [], log := [] }
    scheduler := Scheduler.empty
    dispatchTimeout := Settings.nanosOfSeconds s.consensus.dispatchTimeoutSecs }

def node? (s : Service) : Option Node := s.mesh.nodes.get? s.agentId

def peersJson (s : Service) : Json :=
  .arr ((s.node?.elim [] (·.peers.values)).map Peer.toJson)

def okField : String × Json := ("ok", .bool true)

def assignmentJson? (a : Option Assignment) : Json := a.elim .null Assignment.toJson

/-- Do what is asked. A new task that needs an identifier gets the fresh one. -/
def perform (s : Service) (now : Instant) (fresh : String) : Command → Service × Response
  | .exchange m =>
    let (mesh, ack) := s.mesh.exchange now s.agentId m
    ({ s with mesh }, .ok (ack.elim .null Ack.toJson))
  | .showHealth =>
    (s, .ok (Json.object
      [okField, ("service", .str "mesh-node"), ("agent_id", .str s.agentId)]))
  | .showPeers =>
    (s, .ok (Json.object
      [("agent_id", .str s.agentId),
       ("participants", Json.nat (s.node?.elim 0 (·.participants))), ("peers", s.peersJson)]))
  | .sendHeartbeats =>
    let s := { s with mesh := s.mesh.heartbeats now s.agentId }
    (s, .ok (Json.object [okField, ("peers", s.peersJson)]))
  | .listTasks limit =>
    let records := s.node?.elim [] (·.recentRecords limit)
    (s, .ok (Json.object [("tasks", .arr (records.map AuditRecord.toJson))]))
  | .showTask taskId =>
    (s, match s.node?.bind (·.record? taskId) with
      | some record => .ok record.toJson
      | none => .fault 404 "unknown_task")
  | .dispatch task context timeout =>
    let (mesh, result) := s.mesh.dispatch now s.agentId fresh task context
      (timeout.getD s.dispatchTimeout)
    ({ s with mesh }, match result with
      | .ok result => .ok (Json.object
          [okField, ("task_id", .str fresh), ("result", .str result)])
      | .error t => ⟨504, some (Json.object
          [("ok", .bool false), ("error", .str "consensus_timeout"), ("task_id", .str t.taskId)])⟩)
  | .showScheduler => (s, .ok (s.scheduler.status now).toJson)
  | .register workerId capacity priority =>
    let (scheduler, w) := s.scheduler.register workerId capacity priority now
    ({ s with scheduler }, .ok (Json.object [okField, ("agent", w.toJson)]))
  | .unregister workerId =>
    match s.scheduler.unregister workerId now with
    | (scheduler, some w) =>
      ({ s with scheduler }, .ok (Json.object [okField, ("requeued", Json.nat w.assigned.size)]))
    | (scheduler, none) => ({ s with scheduler }, .fault 404 "unknown_agent")
  | .noteWorker workerId update =>
    let (scheduler, w) := s.scheduler.heartbeat workerId update now
    ({ s with scheduler }, .ok (Json.object [okField, ("agent", w.toJson)]))
  | .submit taskId payload priority metadata =>
    let taskId := taskId.getD fresh
    let (scheduler, a) := s.scheduler.submit taskId payload priority metadata now
    ({ s with scheduler }, .ok (Json.object
      [okField, ("task_id", .str taskId),
       ("status", .str (if a.isSome then "assigned" else "queued")),
       ("assignment", assignmentJson? a)]))
  | .complete workerId taskId success =>
    let (scheduler, a) := s.scheduler.complete workerId taskId success now
    ({ s with scheduler }, .ok (Json.object [okField, ("completed", assignmentJson? a)]))

/-- Answer a request. Nothing happens on one that is refused, and the answer to one for the head has
no body. -/
def respond (s : Service) (now : Instant) (fresh : String) (r : Request) : Service × Response :=
  let (s, response) := match r.command fresh now.seconds with
    | .ok command => s.perform now fresh command
    | .error refusal => (s, refusal.response)
  (s, if r.isHead then { response with body := none } else response)

def drain (s : Service) (now : Instant) : Service := { s with mesh := s.mesh.drain now }

end Service

end AgentMesh
