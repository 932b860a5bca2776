import AgentMesh.Time.Rfc3339

/-!
The audit record of a task: what one agent has seen of it.
-/

namespace AgentMesh

inductive AuditStatus
  | pending
  | consensus
deriving DecidableEq

namespace AuditStatus

def name : AuditStatus → String
  | pending => "pending"
  | consensus => "consensus"

def all : List AuditStatus := [pending, consensus]

def ofName? (s : String) : Option AuditStatus := all.find? (·.name = s)

def shape : Json.Shape := .choice (all.map name)

end AuditStatus

structure AuditRecord where
  taskId : String
  owner : Option String
  task : String
  context : Fields
  createdAt : Instant
  responses : Dict String
  result : Option String
  finalizedAt : Option Instant
  status : AuditStatus
deriving DecidableEq

namespace AuditRecord

/-- The record of a task that has just become known. An empty owner is none. -/
def opened (taskId : String) (owner : Option String) (task : String) (context : Fields)
    (now : Instant) : AuditRecord :=
  { taskId, owner := owner.filter (!·.isEmpty), task, context, createdAt := now,
    responses := Dict.empty, result := none, finalizedAt := none, status := .pending }

/-- Fill in owner and task where they are missing, and overlay the context. -/
def merge (r : AuditRecord) (owner : Option String) (task : String) (context : Fields) :
    AuditRecord :=
  { r with
    owner := r.owner <|> owner.filter (!·.isEmpty)
    task := if r.task.isEmpty then task else r.task
    context := r.context.merge context }

def noteResponse (r : AuditRecord) (agent response : String) : AuditRecord :=
  { r with responses := r.responses.insert agent response }

/-- Note the final result, with the time at which it was fixed or else the present. -/
def markConsensus (r : AuditRecord) (result : Option String) (finalizedAt : Option Instant)
    (now : Instant) : AuditRecord :=
  { r with status := .consensus, result, finalizedAt := some (finalizedAt.getD now) }

def toJson (r : AuditRecord) : Json :=
  Json.object
    [("task_id", .str r.taskId), ("owner", Json.ofText? r.owner), ("task", .str r.task),
     ("context", Json.ofFields r.context), ("created_at", Rfc3339.json r.createdAt),
     ("responses", Json.ofTexts r.responses), ("result", Json.ofText? r.result),
     ("finalized_at", Rfc3339.json? r.finalizedAt), ("status", .str r.status.name)]

def recordFields : List Json.Field :=
  [⟨"task_id", .text, .required⟩, ⟨"owner", .optional .text, .null⟩, ⟨"task", .text, .required⟩,
   ⟨"context", .object, .required⟩, ⟨"created_at", Rfc3339.shape, .required⟩,
   ⟨"responses", .textMap, .required⟩, ⟨"result", .optional .text, .null⟩,
   ⟨"finalized_at", .optional Rfc3339.shape, .null⟩, ⟨"status", AuditStatus.shape, .required⟩]

def textsOf (fields : Fields) : Dict String :=
  Dict.ofList (fields.entries.filterMap fun e => e.2.text?.map fun s => (e.1, s))

def ofFields? (fields : Fields) : Option AuditRecord := do
  let taskId ← fields.text? "task_id"
  let task ← fields.text? "task"
  let createdAt ← Rfc3339.field? fields "created_at"
  let status ← (fields.text? "status").bind AuditStatus.ofName?
  return { taskId, owner := fields.text? "owner", task, context := fields.object "context",
           createdAt, responses := textsOf (fields.object "responses"),
           result := fields.text? "result", finalizedAt := Rfc3339.field? fields "finalized_at",
           status }

def decode? (text : String) : Option AuditRecord :=
  match Json.parseRecord recordFields (text.toList.map some) with
  | .ok fields => ofFields? fields
  | .error _ => none

end AuditRecord

end AgentMesh
