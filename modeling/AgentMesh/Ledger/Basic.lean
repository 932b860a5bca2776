import AgentMesh.Consensus.BallotBox
import AgentMesh.Ledger.AuditRecord

/-!
The ledger of an agent: its ballots, and for each the audit record that goes with it.
-/

namespace AgentMesh

structure Ledger where
  box : BallotBox
  records : Dict AuditRecord

namespace Ledger

def empty (aggregate : Aggregator) (retention : Retention) : Ledger :=
  { box := BallotBox.empty aggregate retention, records := Dict.empty }

def mentionedRecord (l : Ledger) (taskId : String) (owner : Option String) (task : String)
    (context : Fields) (now : Instant) : AuditRecord :=
  let record := (l.records.get? taskId).getD (AuditRecord.opened taskId owner task context now)
  record.merge owner task context

def putRecord (l : Ledger) (taskId : String) (record : AuditRecord) : Ledger :=
  { l with records := l.records.insert taskId record }

/-- Drop the ballots that are not kept any longer, and the records that go with them. The task whose
result has just been fixed stays. -/
def prune (l : Ledger) (keep : String) (now : Instant) : Ledger :=
  let (gone, box) := l.box.prune (some keep) now
  { box, records := l.records.eraseAll gone }

def pruneIf (l : Ledger) (condition : Bool) (keep : String) (now : Instant) : Ledger :=
  if condition then l.prune keep now else l

def mention (l : Ledger) (taskId : String) (owner : Option String) (participants : Nat)
    (task : String) (context : Fields) (now : Instant) : Ledger :=
  let (_, box) := l.box.expect taskId owner participants task context now
  ({ l with box }).putRecord taskId (l.mentionedRecord taskId owner task context now)

end Ledger

end AgentMesh
