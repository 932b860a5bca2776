import AgentMesh.Node.Basic
import AgentMesh.Settings.Basic

/-!
The agent that settings describe, before it has taken part in anything.
-/

namespace AgentMesh.Settings

/-- The agent that settings describe: it answers tasks with its analysis. Neighbours listed twice
count twice among the participants. -/
def node (s : Settings) : Node :=
  let peers := Peer.parseList s.network.neighbors
  Node.build s.agentId peers (some (Executor.analysis s.agentId))
    (some (s.network.participants.getD (peers.length + 1)))
    (Ledger.empty transcript s.retention)

end AgentMesh.Settings
