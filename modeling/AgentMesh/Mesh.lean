import AgentMesh.Node.Basic
import AgentMesh.Time.Span

/-!
Agents that reach each other by addresses. A send hands the message over at once, and what its
receiver broadcasts in turn happens within it; executions of announced tasks wait in one queue for
the whole mesh and run when it is drained, or when someone waits for a result.
-/

namespace AgentMesh

structure Sent where
  url : String
  message : Message
  sentAt : Instant

/-- Agents, their addresses, and the executions that wait. -/
structure Mesh where
  nodes : Dict Node
  /-- The agent that takes the envelopes sent to an address. -/
  addresses : Dict String
  /-- The error with which sending to an address fails, none if it goes through. -/
  failure : String → Option String
  queue : List (String × Message)
  log : List Sent

structure ConsensusTimeout where
  taskId : String
  /-- How long was waited, in nanoseconds. -/
  timeout : Nat

namespace ConsensusTimeout

def message (t : ConsensusTimeout) : String :=
  "consensus for task " ++ t.taskId ++ " not reached within " ++ spanText t.timeout

end ConsensusTimeout

def unreachableText (url : String) : String := "peer unreachable: " ++ url

namespace Mesh

def put (mesh : Mesh) (n : Node) : Mesh := { mesh with nodes := mesh.nodes.insert n.id n }

def update (mesh : Mesh) (id : String) (f : Node → Node) : Mesh :=
  { mesh with nodes := mesh.nodes.modify id f }

/-- Hand a message to an agent, and give what it broadcasts in turn to `forward`. -/
def receive (forward : Mesh → String → Message → Mesh) (mesh : Mesh) (id : String) (m : Message)
    (now : Instant) : Mesh × Option Ack :=
  match mesh.nodes.get? id with
  | none => (mesh, none)
  | some node =>
    let reaction := node.handle m now
    let mesh := mesh.put reaction.node
    let mesh := { mesh with queue := mesh.queue ++ reaction.runs.map fun m => (id, m) }
    (reaction.sends.foldl (fun mesh m => forward mesh id m) mesh, some reaction.ack)

/-- Broadcast a message of an agent to its neighbours, one after the other in ascending order, and
then note how the contacts went. Broadcasts within are followed down to the given depth. -/
def broadcastWithin : Nat → Instant → Mesh → String → Message → Mesh
  | 0, _, mesh, _, _ => mesh
  | depth + 1, now, mesh, id, m =>
    match mesh.nodes.get? id with
    | none => mesh
    | some node =>
      let send (mesh : Mesh) (p : Peer) : Mesh :=
        let url := p.exchangeUrl
        let sent : Sent := ⟨url, m, now⟩
        let mesh := { mesh with log := mesh.log ++ [sent] }
        match mesh.failure url, mesh.addresses.get? url with
        | none, some receiver =>
          (receive (broadcastWithin depth now) mesh receiver m now).1
        | _, _ => mesh
      let mesh := node.peers.values.foldl send mesh
      mesh.update id fun n => n.noteContacts mesh.failure now

/-- How deep broadcasts within broadcasts can go: an answer may complete a ballot at its receiver,
which then broadcasts the result, and nothing comes of that. -/
def broadcastDepth : Nat := 2

def broadcast (mesh : Mesh) (now : Instant) (id : String) (m : Message) : Mesh :=
  broadcastWithin broadcastDepth now mesh id m

def broadcastAll (mesh : Mesh) (now : Instant) (id : String) (ms : List Message) : Mesh :=
  ms.foldl (fun mesh m => mesh.broadcast now id m) mesh

def exchange (mesh : Mesh) (now : Instant) (id : String) (m : Message) : Mesh × Option Ack :=
  receive (fun mesh id m => mesh.broadcast now id m) mesh id m now

def execute (mesh : Mesh) (now : Instant) (id : String) (m : Message) : Mesh :=
  match mesh.nodes.get? id with
  | none => mesh
  | some node =>
    let (node, sends) := node.execute m now
    (mesh.put node).broadcastAll now id sends

/-- Run the executions that wait, in the order in which they came. -/
def drain (mesh : Mesh) (now : Instant) : Mesh :=
  mesh.queue.foldl (fun mesh run => mesh.execute now run.1 run.2) { mesh with queue := [] }

def start (mesh : Mesh) (now : Instant) (id taskId task : String) (context : Fields)
    (waiting : Bool) : Mesh :=
  match mesh.nodes.get? id with
  | none => mesh
  | some node =>
    let (node, m) := node.start taskId task context now
    let mesh := mesh.put (if waiting then node.await taskId else node)
    (mesh.broadcast now id m).execute now id m

def awaitedResult? (mesh : Mesh) (id taskId : String) : Option String :=
  (mesh.nodes.get? id).bind (·.awaitedResult? taskId)

/-- Wait for a result: if it is not there yet, all executions that wait run first. The answer is
fixed before those that are left run. -/
def awaitResult (mesh : Mesh) (now : Instant) (id taskId : String) : Mesh × Option String :=
  let mesh := if (mesh.awaitedResult? id taskId).isSome then mesh else mesh.drain now
  let result := mesh.awaitedResult? id taskId
  (((mesh.update id (·.stopWaiting taskId)).drain now), result)

def dispatch (mesh : Mesh) (now : Instant) (id taskId task : String) (context : Fields)
    (timeout : Nat) : Mesh × Except ConsensusTimeout String :=
  let (mesh, result) := (mesh.start now id taskId task context true).awaitResult now id taskId
  (mesh, match result with
    | some result => .ok result
    | none => .error { taskId, timeout })

/-- Wait for the result of a task; there is none for a task that the agent does not know. -/
def wait (mesh : Mesh) (now : Instant) (id taskId : String) : Mesh × Option String :=
  match (mesh.nodes.get? id).bind (·.ledger.box.get? taskId) with
  | none => (mesh.drain now, none)
  | some _ => (mesh.update id (·.await taskId)).awaitResult now id taskId

def submit (mesh : Mesh) (now : Instant) (id taskId result : String) (owner : Option String)
    (task : String) (context : Fields) : Mesh × Option Receipt :=
  match mesh.nodes.get? id with
  | none => (mesh, none)
  | some node =>
    let (node, receipt, sends) := node.submit taskId result owner task context now
    ((mesh.put node).broadcastAll now id sends, some receipt)

def heartbeats (mesh : Mesh) (now : Instant) (id : String) : Mesh :=
  match mesh.nodes.get? id with
  | none => mesh
  | some node => mesh.broadcast now id node.heartbeatMessage

end Mesh

end AgentMesh
