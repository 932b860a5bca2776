import AgentMesh.Envelope.Codec
import AgentMesh.Json.Shape
import AgentMesh.Scheduler.Worker
import AgentMesh.Service.MediaType
import AgentMesh.Service.Target
import AgentMesh.Text.Blank
import AgentMesh.Text.Percent

/-!
Requests to the service of an agent, and the commands that they stand for. A request that stands for
no command is refused, without regard to the state of the service.
-/

namespace AgentMesh

structure Request where
  method : String
  target : Target
  contentType : Option String
  body : List UInt8

inductive Command
  | exchange (m : Message)
  | showHealth
  | showPeers
  | sendHeartbeats
  | listTasks (limit : Nat)
  | showTask (taskId : String)
  /-- Start a task and wait for its result, in nanoseconds if they are given. -/
  | dispatch (task : String) (context : Fields) (timeout : Option Nat)
  | showScheduler
  | register (workerId : String) (capacity : Nat) (priority : Int)
  | unregister (workerId : String)
  | noteWorker (workerId : String) (update : WorkerUpdate)
  | submit (taskId : Option String) (payload : Fields) (priority : Int) (metadata : Fields)
  | complete (workerId taskId : String) (success : Bool)

inductive Refusal
  | unknownPath
  | unknownMethod
  /-- A parameter, the query or the body cannot be read. -/
  | unreadable
  | unsupportedMedia
  | tooLarge
  /-- The body is JSON, but not of the shape asked for. -/
  | wrongShape
  /-- What was read makes no sense; the code says why. -/
  | invalid (code : String)
deriving DecidableEq

inductive Endpoint
  | exchange
  | health
  | peers
  | heartbeat
  | tasks
  | task (id : String)
  | scheduler
  | workers
  | worker (id : String)
  | workerHeartbeat (id : String)
  | jobs
  | jobCompletion (id : String)
deriving DecidableEq

namespace Endpoint

/-- The place that the segments of a path name. Parameters are still encoded, and not empty. -/
def ofSegments? : List String → Option Endpoint
  | ["agent_exchange"] => some .exchange
  | ["api", "health"] => some .health
  | ["api", "peers"] => some .peers
  | ["api", "heartbeat"] => some .heartbeat
  | ["api", "tasks"] => some .tasks
  | ["api", "tasks", id] => if id.isEmpty then none else some (.task id)
  | ["api", "orchestrator"] => some .scheduler
  | ["api", "orchestrator", "agents"] => some .workers
  | ["api", "orchestrator", "agents", id] => if id.isEmpty then none else some (.worker id)
  | ["api", "orchestrator", "agents", id, "heartbeat"] =>
    if id.isEmpty then none else some (.workerHeartbeat id)
  | ["api", "orchestrator", "tasks"] => some .jobs
  | ["api", "orchestrator", "tasks", id, "complete"] =>
    if id.isEmpty then none else some (.jobCompletion id)
  | _ => none

end Endpoint

namespace Request

def endpoint? (r : Request) : Option Endpoint := r.target.segments?.bind Endpoint.ofSegments?

def parameter (raw : String) : Except Refusal String :=
  match Text.percentDecoded? raw.toList with
  | some s => .ok (String.ofList s)
  | none => .error .unreadable

def number? (s : List Char) : Option Nat :=
  let ds := match s with
    | '+' :: r => r
    | _ => s
  if !ds.isEmpty && ds.all Char.isDigit && Text.digitsValue ds < 18446744073709551616 then
    some (Text.digitsValue ds)
  else none

def defaultLimit : Nat := 50

def limit (r : Request) : Except Refusal Nat :=
  let pairs := Text.formPairs r.target.query
  match pairs.filter fun p => p.1 = some "limit".toList with
  | [] => .ok defaultLimit
  | [(_, value)] =>
    match value.bind number? with
    | some n => .ok n
    | none => .error .unreadable
  | _ => .error .unreadable

def maxBodyLength : Nat := 2097152

def isTooLarge (r : Request) : Bool := maxBodyLength < r.body.length

def envelope (r : Request) (fresh : String) (sentAt : Binary64) : Except Refusal Envelope :=
  if r.isTooLarge then .error .tooLarge
  else match Json.parseBytes r.body with
    | .error _ => .error (.invalid invalidJsonCode)
    | .ok v =>
      match Envelope.ofJson fresh sentAt v with
      | .ok e => .ok e
      | .error fault => .error (.invalid fault.code)

def record (r : Request) (fields : List Json.Field) : Except Refusal Fields :=
  if !r.contentType.any MediaType.isJson then .error .unsupportedMedia
  else if r.isTooLarge then .error .tooLarge
  else match Json.readRecord fields (Text.symbols r.body) with
    | .ok (seen, _) => .ok seen
    | .error .malformed => .error .unreadable
    | .error .mismatch => .error .wrongShape

/-- The shape of an optional field that may also be left out at the end of an array. -/
def defaultNull (name : String) (shape : Json.Shape) : Json.Field :=
  ⟨name, .optional shape, .default .null⟩

def capacityShape : Json.Shape := .natural 4294967296

def emptyObject : Json.Absence := .default (Json.object [])

def textOf (fields : Fields) (name : String) : String := (fields.text? name).getD ""

def intOf? (fields : Fields) (name : String) : Option Int := (fields.get? name).bind Json.int?

def natOf? (fields : Fields) (name : String) : Option Nat := (fields.get? name).bind Json.nat?

def flagOf? (fields : Fields) (name : String) : Option Bool := (fields.get? name).bind Json.bool?

/-- A task to start. It is not blank; a time to wait is neither negative nor beyond 64 bits of
seconds. -/
def dispatch (r : Request) : Except Refusal Command := do
  let fields ← r.record
    [⟨"task", .text, .required⟩, ⟨"context", .object, emptyObject⟩,
     ⟨"timeout_secs", .optional .real, .null⟩]
  let task := textOf fields "task"
  if Text.isBlankText task then throw (.invalid "missing_task")
  let context := Fields.object fields "context"
  match (fields.get? "timeout_secs").bind Json.real? with
  | none => return .dispatch task context none
  | some seconds =>
    match nanosOfSeconds? seconds with
    | some n => return .dispatch task context (some n)
    | none => throw (.invalid "invalid_timeout")

/-- A worker to register. Its identifier is not blank. -/
def register (r : Request) : Except Refusal Command := do
  let fields ← r.record
    [⟨"agent_id", .text, .required⟩, ⟨"capacity", capacityShape, .default (Json.nat 1)⟩,
     ⟨"priority", .integer, .default (.int 0)⟩]
  let id := textOf fields "agent_id"
  if Text.isBlankText id then throw (.invalid "missing_agent_id")
  return .register id ((natOf? fields "capacity").getD 1) ((intOf? fields "priority").getD 0)

def noteWorker (r : Request) (id : String) : Except Refusal Command := do
  let id ← parameter id
  let fields ← r.record
    [defaultNull "capacity" capacityShape, defaultNull "priority" .integer,
     defaultNull "active" .flag]
  return .noteWorker id
    ⟨natOf? fields "capacity", intOf? fields "priority", flagOf? fields "active"⟩

/-- A job to schedule. A blank identifier is as good as none. -/
def submit (r : Request) : Except Refusal Command := do
  let fields ← r.record
    [⟨"task_id", .optional .text, .null⟩, ⟨"payload", .object, emptyObject⟩,
     ⟨"priority", .integer, .default (.int 0)⟩, ⟨"meta", .object, emptyObject⟩]
  return .submit ((fields.text? "task_id").filter fun id => !Text.isBlankText id)
    (Fields.object fields "payload") ((intOf? fields "priority").getD 0)
    (Fields.object fields "meta")

def complete (r : Request) (id : String) : Except Refusal Command := do
  let id ← parameter id
  let fields ← r.record
    [⟨"agent_id", .text, .required⟩, ⟨"success", .flag, .default (.bool true)⟩]
  return .complete (textOf fields "agent_id") id ((flagOf? fields "success").getD true)

def isHead (r : Request) : Bool := r.method = "HEAD"

/-- The command of a request. Whoever asks for the head of an answer asks for the answer. -/
def command (r : Request) (fresh : String) (sentAt : Binary64) : Except Refusal Command := do
  let some endpoint := r.endpoint? | throw .unknownPath
  match endpoint, if r.isHead then "GET" else r.method with
  | .exchange, "POST" => return .exchange (← r.envelope fresh sentAt).toMessage
  | .health, "GET" => return .showHealth
  | .peers, "GET" => return .showPeers
  | .heartbeat, "POST" => return .sendHeartbeats
  | .tasks, "GET" => return .listTasks (← r.limit)
  | .tasks, "POST" => r.dispatch
  | .task id, "GET" => return .showTask (← parameter id)
  | .scheduler, "GET" => return .showScheduler
  | .workers, "POST" => r.register
  | .worker id, "DELETE" => return .unregister (← parameter id)
  | .workerHeartbeat id, "POST" => r.noteWorker id
  | .jobs, "POST" => r.submit
  | .jobCompletion id, "POST" => r.complete id
  | _, _ => throw .unknownMethod

end Request

end AgentMesh
