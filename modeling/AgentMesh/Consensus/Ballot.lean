import AgentMesh.Json.Basic
import AgentMesh.Time.Instant

/-!
The ballot on one task: the votes of the agents that have answered, and the final result once there
is one. A result, once set, stays (`Ballot.finalize_of_isFinal`).
-/

namespace AgentMesh

/-- The votes on one task until consensus is reached, and the result after that. -/
structure Ballot where
  taskId : String
  /-- The agent that started the task; unknown until a message names it. -/
  owner : Option String
  expected : Nat
  task : String
  context : Fields
  createdAt : Instant
  /-- The latest answer of each agent. -/
  responses : Dict String
  result : Option String
  finalizedAt : Option Instant
  /-- What those who wait for the result are shown. -/
  signal : Option String
deriving DecidableEq

namespace Ballot

/-- A ballot without votes; at least one agent has to answer. -/
def opened (taskId : String) (owner : Option String) (participants : Nat) (task : String)
    (context : Fields) (now : Instant) : Ballot :=
  { taskId, owner, expected := max 1 participants, task, context, createdAt := now,
    responses := Dict.empty, result := none, finalizedAt := none, signal := none }

def missing (b : Ballot) : Nat := b.expected - b.responses.size

def isFinal (b : Ballot) : Bool := b.result.isSome

/-- Take down an answer, in place of an earlier one of the same agent. -/
def record (b : Ballot) (agent response : String) : Ballot :=
  { b with responses := b.responses.insert agent response }

/-- Fix the result, unless it is fixed already. -/
def finalize (b : Ballot) (result : String) (now : Instant) : Ballot :=
  if b.isFinal then b
  else { b with result := some result, finalizedAt := some now, signal := some result }

theorem finalize_of_isFinal {b : Ballot} (h : b.isFinal = true) (result : String) (now : Instant) :
    b.finalize result now = b := by simp [finalize, h]

theorem isFinal_finalize (b : Ballot) (result : String) (now : Instant) :
    (b.finalize result now).isFinal = true := by
  unfold finalize
  split
  · assumption
  · rfl

/-- Widen the expectation: the number of agents only grows, owner and task are filled in where they
are still empty, and the context is overlaid. -/
def widen (b : Ballot) (owner : Option String) (participants : Nat) (task : String)
    (context : Fields) : Ballot :=
  { b with
    expected := max b.expected participants
    owner := if (b.owner.getD "").isEmpty then owner <|> b.owner else b.owner
    task := if b.task.isEmpty then task else b.task
    context := b.context.merge context }

end Ballot

end AgentMesh
