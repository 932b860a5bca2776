import AgentMesh.Consensus.Ballot
import AgentMesh.Consensus.Retention
import AgentMesh.Consensus.Transcript

/-!
All ballots of one agent. A ballot is opened by the first mention of its task, and becomes final by
the last vote it needs or by a result that comes from elsewhere, whichever is first.
-/

namespace AgentMesh

structure Receipt where
  ready : Bool
  result : Option String
  responses : Dict String
  missing : Nat
  alreadyFinal : Bool
deriving DecidableEq

def Receipt.newlyFinal (r : Receipt) : Bool := r.ready && !r.alreadyFinal

/-- A ballot after one more vote, and what the voter learns. The vote that leaves none missing fixes
the result; later ones change nothing. -/
def Ballot.vote (aggregate : Aggregator) (b : Ballot) (agent response : String) (now : Instant) :
    Receipt × Ballot :=
  match b.result with
  | some result =>
    ({ ready := true, result := some result, responses := b.responses, missing := 0,
       alreadyFinal := true }, b)
  | none =>
    let b := b.record agent response
    if b.missing = 0 then
      let result := aggregate b
      ({ ready := true, result := some result, responses := b.responses, missing := 0,
         alreadyFinal := false }, b.finalize result now)
    else
      ({ ready := false, result := none, responses := b.responses, missing := b.missing,
         alreadyFinal := false }, b)

/-- The ballots of one agent, with the policy that makes results and the limits on keeping them. -/
structure BallotBox where
  aggregate : Aggregator
  retention : Retention
  ballots : Dict Ballot

namespace BallotBox

def empty (aggregate : Aggregator) (retention : Retention) : BallotBox :=
  { aggregate, retention, ballots := Dict.empty }

def get? (box : BallotBox) (taskId : String) : Option Ballot := box.ballots.get? taskId

/-- The ballot on a task after a message that mentions it: opened if need be, then widened. An empty
owner is none. -/
def mentioned (box : BallotBox) (taskId : String) (owner : Option String) (participants : Nat)
    (task : String) (context : Fields) (now : Instant) : Ballot :=
  let owner := owner.filter (!·.isEmpty)
  let ballot := (box.get? taskId).getD (Ballot.opened taskId owner participants task context now)
  ballot.widen owner participants task context

def touched (box : BallotBox) (taskId : String) (now : Instant) : Ballot :=
  box.mentioned taskId none 1 "" Dict.empty now

def put (box : BallotBox) (taskId : String) (ballot : Ballot) : BallotBox :=
  { box with ballots := box.ballots.insert taskId ballot }

def expect (box : BallotBox) (taskId : String) (owner : Option String) (participants : Nat)
    (task : String) (context : Fields) (now : Instant) : Ballot × BallotBox :=
  let ballot := box.mentioned taskId owner participants task context now
  (ballot, box.put taskId ballot)

/-- Take an agent's answer to a task. A task that nobody has mentioned expects this one answer. -/
def respond (box : BallotBox) (taskId agent response : String) (now : Instant) :
    Receipt × BallotBox :=
  let (receipt, ballot) := Ballot.vote box.aggregate (box.touched taskId now) agent response now
  (receipt, box.put taskId ballot)

def adopt (box : BallotBox) (taskId result : String) (now : Instant) : Ballot × BallotBox :=
  let ballot := (box.touched taskId now).finalize result now
  (ballot, box.put taskId ballot)

def forget (box : BallotBox) (taskId : String) : BallotBox :=
  { box with ballots := box.ballots.erase taskId }

def finished (box : BallotBox) : List Finished :=
  box.ballots.values.filterMap fun b => b.finalizedAt.map fun t => (b.taskId, t)

def evictions (box : BallotBox) (keep : Option String) (now : Instant) : List String :=
  if box.retention.isUnbounded then []
  else box.retention.selectEvictions box.finished now keep

/-- Drop the ballots that are not kept any longer; `keep` stays. -/
def prune (box : BallotBox) (keep : Option String) (now : Instant) : List String × BallotBox :=
  let gone := box.evictions keep now
  (gone, { box with ballots := box.ballots.eraseAll gone })

end BallotBox

end AgentMesh
