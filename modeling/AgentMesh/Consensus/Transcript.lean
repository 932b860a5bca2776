import AgentMesh.Consensus.Ballot
import AgentMesh.Text.Pieces

/-!
Policies that turn the votes of a ballot into one result. The usual one is the transcript: a header,
and a line for each agent in ascending order.
-/

namespace AgentMesh

/-- A policy that turns the votes of a ballot into one result. -/
abbrev Aggregator := Ballot → String

namespace Transcript

def headerMark : String := "🤝"

def defaultHeader : String := "Consensus result"

def emptyBody : String := "(no responses)"

def header (task : String) (context : Fields) : String :=
  match context.text? "title" with
  | some title =>
    if !title.isEmpty then title else if !task.isEmpty then task else defaultHeader
  | none => if !task.isEmpty then task else defaultHeader

def body (responses : Dict String) : String :=
  if responses.isEmpty then emptyBody
  else Text.joinWith "\n" (responses.entries.map fun e => e.1 ++ ": " ++ e.2)

def render (task : String) (context : Fields) (responses : Dict String) : String :=
  headerMark ++ " " ++ header task context ++ "\n" ++ body responses

end Transcript

def transcript : Aggregator := fun b => Transcript.render b.task b.context b.responses

end AgentMesh
