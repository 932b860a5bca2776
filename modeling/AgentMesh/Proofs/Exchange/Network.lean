import AgentMesh.Proofs.Node.Docket
import Mathlib.Data.Multiset.AddSub
import Mathlib.Data.Multiset.MapFold
import Mathlib.Logic.Relation

/-!
Agents over a network that delays, reorders and repeats envelopes, and may lose them. Executions wait
until they are run, in any order; that of the agent which starts a task waits with the others.
-/

namespace AgentMesh

/-- A task as its owner announces it. -/
structure Announcement where
  owner : String
  task : String
  context : Fields

namespace Announcement

variable (a : Announcement)

def message (taskId : String) : Message :=
  { kind := .task, sender := a.owner, taskId
    payload := Dict.ofList
      [("task", .str a.task), ("context", Json.ofFields a.context), ("owner", .str a.owner)] }

def named : Option String := (some a.owner).filter (!·.isEmpty)

def votes (agents : Dict Executor) : Dict String :=
  agents.mapValues fun executor => (executor a.task a.context).vote

/-- The transcript of all agents' votes. -/
def decision (agents : Dict Executor) : String :=
  Transcript.render a.task a.context (a.votes agents)

theorem payload_get? (taskId key : String) :
    (a.message taskId).payload.get? key =
      if "owner" = key then some (.str a.owner)
      else if "context" = key then some (Json.ofFields a.context)
      else if "task" = key then some (.str a.task) else none := by
  simp only [message, Dict.ofList, Dict.insertAll, List.foldl_cons, List.foldl_nil,
    Dict.get?_insert, Dict.get?_empty]

theorem text?_task (taskId : String) : (a.message taskId).payload.text? "task" = some a.task := by
  simp [Fields.text?, payload_get?, Json.text?]

theorem text?_owner (taskId : String) :
    (a.message taskId).payload.text? "owner" = some a.owner := by
  simp [Fields.text?, payload_get?, Json.text?]

theorem object_context (taskId : String) :
    (a.message taskId).payload.object "context" = a.context := by
  simp [Fields.object, payload_get?, Json.ofFields, Json.fields?, Dict.ofList_entries]

@[simp] theorem size_votes (agents : Dict Executor) : (a.votes agents).size = agents.size :=
  Dict.size_mapValues _ agents

theorem votes_get? (agents : Dict Executor) (id : String) :
    (a.votes agents).get? id =
      (agents.get? id).map fun executor => (executor a.task a.context).vote :=
  Dict.get?_mapValues _ agents id

end Announcement

theorem resultPayload_get? (result : String) (owner : Option String) (key : String) :
    (Node.resultPayload result owner).get? key =
      if "owner" = key then some (Json.ofText? owner)
      else if "result" = key then some (.str result) else none := by
  simp only [Node.resultPayload, Dict.ofList, Dict.insertAll, List.foldl_cons, List.foldl_nil,
    Dict.get?_insert, Dict.get?_empty]

theorem text?_resultPayload (result : String) (owner : Option String) :
    (Node.resultPayload result owner).text? "result" = some result ∧
      (Node.resultPayload result owner).text? "owner" = owner := by
  constructor
  · simp [Fields.text?, resultPayload_get?, Json.text?]
  · cases owner <;> simp [Fields.text?, resultPayload_get?, Json.ofText?, Json.text?]

/-- The agents of a network, the envelopes in flight with their receivers, the executions that wait,
and the tasks started so far. -/
structure Network where
  nodes : Dict Node
  flight : Multiset (String × Message)
  queue : Multiset (String × Message)
  started : Dict Announcement

def Node.envelopes (n : Node) (sends : List Message) : Multiset (String × Message) :=
  ((sends.flatMap fun m => n.peers.keys.map fun k => (k, m) : List (String × Message)) :
    Multiset (String × Message))

theorem Node.mem_envelopes {n : Node} {sends : List Message} {e : String × Message} :
    e ∈ n.envelopes sends ↔ e.2 ∈ sends ∧ (n.peers.get? e.1).isSome := by
  simp only [envelopes, Multiset.mem_coe, List.mem_flatMap, List.mem_map, Dict.mem_keys]
  constructor
  · rintro ⟨m, hm, k, hk, rfl⟩
    exact ⟨hm, hk⟩
  · rintro ⟨hm, hk⟩
    exact ⟨e.2, hm, e.1, hk, rfl⟩

namespace Network

def post (net : Network) (id : String) (n : Node) (sends : List Message) : Network :=
  { net with nodes := net.nodes.insert id n, flight := net.flight + n.envelopes sends }

/-- One thing that happens. A task is started under an identifier that is not in use; `contact` notes
how the sends of an agent went, `await` and `leave` are those who wait for a result. -/
inductive Step (lossy : Bool) : Network → Network → Prop
  | start {net : Network} {id : String} {n : Node} (taskId task : String) (context : Fields)
      (now : Instant) (hn : net.nodes.get? id = some n) (hnew : net.started.get? taskId = none) :
      Step lossy net
        { net.post id (n.start taskId task context now).1 [(n.start taskId task context now).2] with
          queue := (id, (n.start taskId task context now).2) ::ₘ net.queue
          started := net.started.insert taskId ⟨n.id, task, context⟩ }
  | execute {net : Network} {id : String} {n : Node} {m : Message} {rest} (now : Instant)
      (hn : net.nodes.get? id = some n) (hq : net.queue = (id, m) ::ₘ rest) :
      Step lossy net
        ({ net with queue := rest }.post id (n.execute m now).1 (n.execute m now).2)
  | deliver {net : Network} {id : String} {n : Node} {m : Message} {rest} (now : Instant)
      (hn : net.nodes.get? id = some n) (hf : net.flight = (id, m) ::ₘ rest) :
      Step lossy net
        { { net with flight := rest }.post id (n.handle m now).node (n.handle m now).sends with
          queue := net.queue + ((n.handle m now).runs : Multiset Message).map fun m => (id, m) }
  | duplicate {net : Network} {e : String × Message} (hf : e ∈ net.flight) :
      Step lossy net { net with flight := e ::ₘ net.flight }
  | lose {net : Network} {e : String × Message} {rest} (hl : lossy = true)
      (hf : net.flight = e ::ₘ rest) : Step lossy net { net with flight := rest }
  | contact {net : Network} {id : String} {n : Node} (failure : String → Option String)
      (now : Instant) (hn : net.nodes.get? id = some n) :
      Step lossy net { net with nodes := net.nodes.insert id (n.noteContacts failure now) }
  | await {net : Network} {id : String} {n : Node} (taskId : String)
      (hn : net.nodes.get? id = some n) :
      Step lossy net { net with nodes := net.nodes.insert id (n.await taskId) }
  | leave {net : Network} {id : String} {n : Node} (taskId : String)
      (hn : net.nodes.get? id = some n) :
      Step lossy net { net with nodes := net.nodes.insert id (n.stopWaiting taskId) }

abbrev Steps (lossy : Bool) : Network → Network → Prop := Relation.ReflTransGen (Step lossy)

end Network

/-- The agent `id` of a full mesh: all others are its neighbours, and all are to answer. -/
structure Node.Member (agents : Dict Executor) (id : String) (n : Node) : Prop where
  id_eq : n.id = id
  executor_eq : n.executor = agents.get? id
  participants_eq : n.participants = agents.size
  isSome_peers : ∀ k, (n.peers.get? k).isSome ↔ k ≠ id ∧ (agents.get? k).isSome
  aggregate_eq : n.ledger.box.aggregate = transcript
  retention_eq : n.ledger.box.retention = Retention.unbounded

/-- A full mesh of some agents in which nothing has happened yet. -/
structure FullMesh (agents : Dict Executor) (nodes : Dict Node) : Prop where
  isSome_nodes : ∀ id, (nodes.get? id).isSome ↔ (agents.get? id).isSome
  member : ∀ id n, nodes.get? id = some n → n.Member agents id
  ballots_eq : ∀ id n, nodes.get? id = some n → n.ledger.box.ballots = Dict.empty
  records_eq : ∀ id n, nodes.get? id = some n → n.ledger.records = Dict.empty
  awaited_eq : ∀ id n, nodes.get? id = some n → n.awaited = Dict.empty

/-- A network over a full mesh in which nothing has happened yet. -/
structure Network.Fresh (agents : Dict Executor) (net : Network) : Prop where
  mesh : FullMesh agents net.nodes
  flight_eq : net.flight = 0
  queue_eq : net.queue = 0
  started_eq : net.started = Dict.empty

end AgentMesh
