import AgentMesh.Ledger.Basic
import AgentMesh.Node.Executor
import AgentMesh.Peer

/-!
An agent of the mesh. It starts tasks, casts votes and handles messages; what it does is a function
of its state that tells the new state, the messages to broadcast in turn, and the tasks to execute
later.
-/

namespace AgentMesh

structure Node where
  id : String
  peers : Dict Peer
  executor : Option Executor
  /-- How many agents are expected to answer a task. -/
  participants : Nat
  ledger : Ledger
  /-- The tasks on whose results someone waits, with the result once it has been fixed. -/
  awaited : Dict (Option String)

inductive Ack
  | accepted (taskId : String)
  | recorded (ready : Bool)
  | synced
  | alive
deriving DecidableEq

def Ack.toJson : Ack → Json
  | accepted taskId => Json.object [("ok", .bool true), ("task_id", .str taskId)]
  | recorded ready =>
    Json.object [("ok", .bool true), ("status", .str "recorded"), ("ready", .bool ready)]
  | synced => Json.object [("ok", .bool true), ("status", .str "synced")]
  | alive => Json.object [("ok", .bool true), ("status", .str "alive")]

/-- What comes of a message: the new state, the acknowledgement, messages to broadcast one after the
other, and tasks to execute later. -/
structure Reaction where
  node : Node
  ack : Ack
  sends : List Message
  runs : List Message

namespace Node

/-- An agent with neighbours and an empty ledger. Unless given, the number of participants is that
of the neighbours and the agent itself. -/
def build (id : String) (peers : List Peer) (executor : Option Executor)
    (participants : Option Nat) (ledger : Ledger) : Node :=
  let table := Dict.ofList (peers.map fun p => (p.id, p))
  { id, peers := table, executor, participants := max 1 (participants.getD (table.size + 1)),
    ledger, awaited := Dict.empty }

def setParticipants (n : Node) (value : Nat) : Node := { n with participants := max 1 value }

def resultPayload (result : String) (owner : Option String) : Fields :=
  Dict.ofList [("result", .str result), ("owner", Json.ofText? owner)]

def taskMessage (n : Node) (taskId task : String) (context : Fields) : Message :=
  { kind := .task, sender := n.id, taskId,
    payload := Dict.ofList
      [("task", .str task), ("context", Json.ofFields context), ("owner", .str n.id)] }

def resultMessage (n : Node) (taskId result : String) (owner : Option String) : Message :=
  { kind := .result, sender := n.id, taskId, payload := resultPayload result owner }

def consensusMessages (n : Node) (receipt : Receipt) (taskId : String) (owner : Option String) :
    List Message :=
  match receipt.newlyFinal, receipt.result with
  | true, some result =>
    if result.isEmpty then []
    else [{ kind := .consensus, sender := n.id, taskId, payload := resultPayload result owner }]
  | _, _ => []

def heartbeatTaskId : String := "heartbeat"

def heartbeatMessage (n : Node) : Message :=
  { kind := .heartbeat, sender := n.id, taskId := heartbeatTaskId,
    payload := Dict.ofList [("participants", Json.nat n.participants)] }

/-- Show the result of a ballot to those who wait for it. What they have been shown stays. -/
def tell (n : Node) (taskId : String) (ballot : Option Ballot) : Node :=
  match ballot.bind (·.signal) with
  | none => n
  | some result =>
    { n with awaited := n.awaited.modify taskId fun shown => shown <|> some result }

def await (n : Node) (taskId : String) : Node :=
  { n with awaited := n.awaited.insert taskId ((n.ledger.box.get? taskId).bind (·.signal)) }

def awaitedResult? (n : Node) (taskId : String) : Option String :=
  (n.awaited.get? taskId).getD none

def stopWaiting (n : Node) (taskId : String) : Node :=
  { n with awaited := n.awaited.erase taskId }

def start (n : Node) (taskId task : String) (context : Fields) (now : Instant) : Node × Message :=
  ({ n with ledger := n.ledger.mention taskId (some n.id) n.participants task context now },
   n.taskMessage taskId task context)

/-- Cast this agent's vote on a task: tells the voter's receipt and the messages to broadcast. The
answer is always told; the vote that fixes the result also tells the result. -/
def submit (n : Node) (taskId result : String) (owner : Option String) (task : String)
    (context : Fields) (now : Instant) : Node × Receipt × List Message :=
  let (ballot, box) := n.ledger.box.expect taskId owner n.participants task context now
  let (receipt, box) := box.respond taskId n.id result now
  let after := box.get? taskId
  let record := (n.ledger.mentionedRecord taskId ballot.owner ballot.task ballot.context now)
    |>.noteResponse n.id result
  let record :=
    if receipt.ready then record.markConsensus receipt.result (after.bind (·.finalizedAt)) now
    else record
  let recorded := { n.ledger with box }.putRecord taskId record
  let ledger := recorded.pruneIf receipt.newlyFinal taskId now
  (({ n with ledger }).tell taskId after, receipt,
   n.resultMessage taskId result owner ::
     n.consensusMessages receipt taskId (owner <|> ballot.owner))

/-- Execute a task that a message announced, if there is an executor, and cast the vote. -/
def execute (n : Node) (m : Message) (now : Instant) : Node × List Message :=
  match n.executor with
  | none => (n, [])
  | some executor =>
    let task := (m.payload.text? "task").getD ""
    let context := m.payload.object "context"
    let (n, _, sends) :=
      n.submit m.taskId (executor task context).vote (m.payload.text? "owner") task context now
    (n, sends)

def onTask (n : Node) (m : Message) (now : Instant) : Reaction :=
  let owner := (m.payload.text? "owner").getD m.sender
  let task := (m.payload.text? "task").getD ""
  let ledger :=
    n.ledger.mention m.taskId (some owner) n.participants task (m.payload.object "context") now
  { node := { n with ledger }, ack := .accepted m.taskId, sends := [], runs := [m] }

def onResult (n : Node) (m : Message) (now : Instant) : Reaction :=
  let owner := m.payload.text? "owner"
  let result := (m.payload.text? "result").getD ""
  let (ballot, box) := n.ledger.box.expect m.taskId owner n.participants "" Dict.empty now
  let record := (n.ledger.mentionedRecord m.taskId ballot.owner ballot.task ballot.context now)
    |>.noteResponse m.sender result
  let (receipt, box) := box.respond m.taskId m.sender result now
  let after := box.get? m.taskId
  let record :=
    if receipt.newlyFinal then record.markConsensus receipt.result (after.bind (·.finalizedAt)) now
    else record
  let ledger :=
    ({ n.ledger with box }.putRecord m.taskId record).pruneIf receipt.newlyFinal m.taskId now
  { node := ({ n with ledger }).tell m.taskId after, ack := .recorded receipt.ready,
    sends := n.consensusMessages receipt m.taskId owner, runs := [] }

def onConsensus (n : Node) (m : Message) (now : Instant) : Reaction :=
  let result := (m.payload.text? "result").getD ""
  let (ballot, box) := n.ledger.box.adopt m.taskId result now
  let owner := ballot.owner <|> m.payload.text? "owner"
  let record := (n.ledger.mentionedRecord m.taskId owner ballot.task ballot.context now)
    |>.markConsensus ballot.result ballot.finalizedAt now
  let ledger := ({ n.ledger with box }.putRecord m.taskId record).prune m.taskId now
  { node := ({ n with ledger }).tell m.taskId (some ballot), ack := .synced, sends := [],
    runs := [] }

def onHeartbeat (n : Node) (m : Message) (now : Instant) : Reaction :=
  { node := { n with peers := n.peers.modify m.sender (·.succeeded now) }, ack := .alive,
    sends := [], runs := [] }

def handle (n : Node) (m : Message) (now : Instant) : Reaction :=
  match m.kind with
  | .task => n.onTask m now
  | .result => n.onResult m now
  | .consensus => n.onConsensus m now
  | .heartbeat => n.onHeartbeat m now

/-- Note how the contacts of a broadcast went: `failure` tells with which error an address fails. -/
def noteContacts (n : Node) (failure : String → Option String) (now : Instant) : Node :=
  { n with peers := n.peers.mapValues fun p =>
      match failure p.exchangeUrl with
      | none => p.succeeded now
      | some error => p.failed error now }

def record? (n : Node) (taskId : String) : Option AuditRecord := n.ledger.records.get? taskId

def listedBefore (a b : AuditRecord) : Bool :=
  b.createdAt < a.createdAt || (a.createdAt = b.createdAt && a.taskId ≤ b.taskId)

def recentRecords (n : Node) (limit : Nat) : List AuditRecord :=
  (sortBy listedBefore n.ledger.records.values).take limit

end Node

end AgentMesh
