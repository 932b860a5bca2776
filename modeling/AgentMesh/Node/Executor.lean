import AgentMesh.Json.Printer

/-!
Executors produce an agent's own answer to a task. An attempt that fails still becomes a vote, one
that is marked as failed.
-/

namespace AgentMesh

inductive Attempt
  | answer (text : String)
  | error (text : String)
  | panic
deriving DecidableEq

abbrev Executor := String → Fields → Attempt

namespace Attempt

def errorMark : String := "⚠️ executor error:"

def isFailed : Attempt → Bool
  | answer _ => false
  | _ => true

def vote : Attempt → String
  | answer text => text
  | error text => errorMark ++ " " ++ text
  | panic => errorMark ++ " executor panicked"

end Attempt

namespace Executor

/-- The topic of a task: the first of `topic` and `title` in its context that is a text and not
empty. -/
def topic? (context : Fields) : Option String :=
  (["topic", "title"].filterMap fun key => context.text? key).find? (!·.isEmpty)

def analysis (agentId : String) : Executor := fun task context =>
  let line := task ++ " (analysis by agent " ++ agentId ++ ")"
  .answer (match topic? context with
    | some topic => topic ++ ": " ++ line
    | none => line)

def constant (text : String) : Executor := fun _ _ => .answer text

def failing (text : String) : Executor := fun _ _ => .error text

def echo : Executor := fun task context =>
  .answer (task ++ "|" ++ (Json.ofFields context).render)

def panicking : Executor := fun _ _ => .panic

end Executor

end AgentMesh
