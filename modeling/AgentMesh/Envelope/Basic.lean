import AgentMesh.Json.Shape

/-!
What agents send each other: messages of four kinds, and the envelopes that carry them.
-/

namespace AgentMesh

inductive Kind
  | task
  /-- One agent's own answer to a task. -/
  | result
  /-- The common, final answer to a task. -/
  | consensus
  | heartbeat
deriving DecidableEq

namespace Kind

def name : Kind → String
  | task => "task"
  | result => "result"
  | consensus => "consensus"
  | heartbeat => "heartbeat"

def all : List Kind := [task, result, consensus, heartbeat]

def ofName? (s : String) : Option Kind := all.find? (·.name = s)

theorem ofName?_name (k : Kind) : ofName? k.name = some k := by cases k <;> decide

theorem ofName?_eq_some_iff {s : String} {k : Kind} : ofName? s = some k ↔ s = k.name := by
  constructor
  · intro h
    have hk := List.find?_some (show all.find? (fun k => decide (k.name = s)) = some k from h)
    exact (of_decide_eq_true hk).symm
  · rintro rfl
    exact ofName?_name k

def shape : Json.Shape := .choice (all.map name)

end Kind

structure Message where
  kind : Kind
  sender : String
  taskId : String
  payload : Fields
deriving DecidableEq

/-- A message with its identifier and the time of sending, in seconds. -/
structure Envelope extends Message where
  messageId : String
  timestamp : Binary64
deriving DecidableEq

def exchangePath : String := "/agent_exchange"

end AgentMesh
