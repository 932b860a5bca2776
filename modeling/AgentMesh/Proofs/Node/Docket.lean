import AgentMesh.Node.Basic
import AgentMesh.Proofs.Consensus.Voting

/-!
What an agent holds of one task, its ballot and its audit record, under the steps of the agent. Each
step puts one new docket in the place of the old one (`Node.submit_eq`, `Node.onResult_eq`,
`Node.onConsensus_eq`), and then prunes if it has fixed a result.
-/

namespace AgentMesh

namespace AuditRecord

def blank (taskId : String) (now : Instant) : AuditRecord :=
  opened taskId none "" Dict.empty now

theorem merge_opened (taskId : String) (owner : Option String) (task : String) (context : Fields)
    (now : Instant) :
    (opened taskId owner task context now).merge owner task context =
      (blank taskId now).merge owner task context := by
  by_cases ht : task = "" <;> cases h : owner.filter (!·.isEmpty) <;>
    simp [opened, blank, merge, h, ht]

theorem merge_congr {r : AuditRecord} {o o' : Option String} {t t' : String} {c c' : Fields}
    (ho : (r.merge o t c).owner = (r.merge o' t' c').owner)
    (ht : (r.merge o t c).task = (r.merge o' t' c').task)
    (hc : (r.merge o t c).context = (r.merge o' t' c').context) :
    r.merge o t c = r.merge o' t' c' := by
  simp only [merge] at ho ht hc ⊢
  rw [ho, ht, hc]

end AuditRecord

/-- The ballot and the record of one task. -/
structure Docket where
  ballot : Ballot
  record : AuditRecord

namespace Docket

/-- A message mentions the task; the record takes over what the ballot then says. -/
def widen (d : Docket) (owner : Option String) (participants : Nat) (task : String)
    (context : Fields) : Docket :=
  let b := d.ballot.widen (owner.filter (!·.isEmpty)) participants task context
  { ballot := b, record := d.record.merge b.owner b.task b.context }

/-- A message announces the task; the record takes over what the message says. -/
def announce (d : Docket) (owner : Option String) (participants : Nat) (task : String)
    (context : Fields) : Docket :=
  { ballot := d.ballot.widen (owner.filter (!·.isEmpty)) participants task context
    record := d.record.merge owner task context }

/-- Close the record if a condition on the receipt holds. -/
def close (d : Docket) (marked : Bool) (receipt : Receipt) (now : Instant) : Docket :=
  { d with record :=
      if marked then d.record.markConsensus receipt.result d.ballot.finalizedAt now else d.record }

def vote (d : Docket) (aggregate : Aggregator) (agent response : String) (now : Instant) :
    Receipt × Docket :=
  let (receipt, b) := d.ballot.vote aggregate agent response now
  (receipt, { ballot := b, record := d.record.noteResponse agent response })

/-- A result that was fixed elsewhere is taken over; the owner it names counts where none is known. -/
def adopt (d : Docket) (result : String) (owner : Option String) (now : Instant) : Docket :=
  let b := (d.ballot.widen none 1 "" Dict.empty).finalize result now
  { ballot := b
    record := (d.record.merge (b.owner <|> owner) b.task b.context).markConsensus b.result
      b.finalizedAt now }

section Told

variable {d : Docket} (owner : Option String) (participants : Nat) (task : String)
  (context : Fields)

theorem widen_task (h : d.record.task = d.ballot.task) :
    (d.widen owner participants task context).record.task =
      (d.widen owner participants task context).ballot.task := by
  by_cases ht : d.ballot.task = "" <;> simp [widen, AuditRecord.merge, Ballot.widen, h, ht]

theorem widen_context (h : d.record.context = d.ballot.context) :
    (d.widen owner participants task context).record.context =
      (d.widen owner participants task context).ballot.context := by
  simp [widen, AuditRecord.merge, Ballot.widen, h, Dict.merge_merge_self]

end Told

end Docket

namespace Ledger

variable (l : Ledger) (taskId : String)

def docket (now : Instant) : Docket :=
  { ballot := l.box.held taskId now
    record := (l.records.get? taskId).getD (AuditRecord.blank taskId now) }

def commit (d : Docket) : Ledger :=
  { box := l.box.put taskId d.ballot, records := l.records.insert taskId d.record }

variable {l taskId}

theorem get?_commit (d : Docket) (t : String) :
    (l.commit taskId d).box.get? t = if taskId = t then some d.ballot else l.box.get? t :=
  BallotBox.get?_put l.box taskId d.ballot t

theorem records_get?_commit (d : Docket) (t : String) :
    (l.commit taskId d).records.get? t =
      if taskId = t then some d.record else l.records.get? t :=
  Dict.get?_insert l.records taskId d.record t

theorem docket_commit (d : Docket) (t : String) (now : Instant) :
    (l.commit taskId d).docket t now = if taskId = t then d else l.docket t now := by
  by_cases h : taskId = t <;>
    simp [docket, BallotBox.held, get?_commit, records_get?_commit, h]

theorem mentionedRecord_eq (owner : Option String) (task : String) (context : Fields)
    (now : Instant) :
    l.mentionedRecord taskId owner task context now =
      (l.docket taskId now).record.merge owner task context := by
  unfold mentionedRecord docket
  cases l.records.get? taskId with
  | none => exact AuditRecord.merge_opened taskId owner task context now
  | some r => rfl

theorem mention_eq (owner : Option String) (participants : Nat) (task : String)
    (context : Fields) (now : Instant) :
    l.mention taskId owner participants task context now =
      l.commit taskId ((l.docket taskId now).announce owner participants task context) := by
  simp only [mention, BallotBox.expect, BallotBox.mentioned_eq]
  rw [show ∀ box : BallotBox, ({ l with box } : Ledger).putRecord taskId
    (l.mentionedRecord taskId owner task context now) =
      { box, records := l.records.insert taskId
          (l.mentionedRecord taskId owner task context now) } from fun _ => rfl,
    mentionedRecord_eq]
  rfl

theorem prune_of_unbounded {l : Ledger} (h : l.box.retention.isUnbounded = true) (keep : String)
    (now : Instant) : l.prune keep now = l := by
  simp [prune, BallotBox.prune, BallotBox.evictions, h, Dict.eraseAll]

theorem prune_commit (h : l.box.retention.isUnbounded = true) (d : Docket) (keep : String)
    (now : Instant) : (l.commit taskId d).prune keep now = l.commit taskId d := by
  have hc : (l.commit taskId d).box.retention.isUnbounded = true := h
  exact prune_of_unbounded hc keep now

theorem pruneIf_commit (h : l.box.retention.isUnbounded = true) (d : Docket) (condition : Bool)
    (keep : String) (now : Instant) :
    (l.commit taskId d).pruneIf condition keep now = l.commit taskId d := by
  cases condition
  · rfl
  · exact prune_commit h d keep now

end Ledger

namespace Node

variable (n : Node) (taskId : String)

def settle (ledger : Ledger) (ballot : Ballot) : Node :=
  ({ n with ledger }).tell taskId (some ballot)

@[simp] theorem tell_ledger (b : Option Ballot) : (n.tell taskId b).ledger = n.ledger := by
  unfold tell
  split <;> rfl

@[simp] theorem tell_id (b : Option Ballot) : (n.tell taskId b).id = n.id := by
  unfold tell
  split <;> rfl

@[simp] theorem tell_peers (b : Option Ballot) : (n.tell taskId b).peers = n.peers := by
  unfold tell
  split <;> rfl

@[simp] theorem tell_executor (b : Option Ballot) : (n.tell taskId b).executor = n.executor := by
  unfold tell
  split <;> rfl

@[simp] theorem tell_participants (b : Option Ballot) :
    (n.tell taskId b).participants = n.participants := by
  unfold tell
  split <;> rfl

theorem awaited_tell (b : Ballot) (t : String) :
    (n.tell taskId (some b)).awaited.get? t =
      if taskId = t then (n.awaited.get? t).map (fun shown => shown <|> b.signal)
      else n.awaited.get? t := by
  unfold tell
  cases hs : b.signal with
  | none => cases h : n.awaited.get? t <;> simp [hs, h]
  | some x => simp [hs, Dict.get?_modify]

theorem start_eq (task : String) (context : Fields) (now : Instant) :
    let d := (n.ledger.docket taskId now).announce (some n.id) n.participants task context
    n.start taskId task context now =
      ({ n with ledger := n.ledger.commit taskId d }, n.taskMessage taskId task context) := by
  intro d
  rw [start, Ledger.mention_eq]

variable {n} (hp : 1 ≤ n.participants)

include hp

/-- Within a step the ballot is put back twice; the vote falls on what the mention has left. -/
theorem expect_respond (agent response : String) (owner : Option String) (task : String)
    (context : Fields) (now : Instant) :
    let d := (n.ledger.docket taskId now).widen owner n.participants task context
    let v := d.vote n.ledger.box.aggregate agent response now
    let e := n.ledger.box.expect taskId owner n.participants task context now
    e.1 = d.ballot ∧
      e.2.respond taskId agent response now = (v.1, n.ledger.box.put taskId v.2.ballot) := by
  intro d v e
  have hpos : 1 ≤ d.ballot.expected := le_trans hp (Nat.le_max_right _ _)
  have he : e = (d.ballot, n.ledger.box.put taskId d.ballot) := by
    simp only [e, BallotBox.expect, BallotBox.mentioned_eq]
    rfl
  rw [he]
  refine ⟨rfl, ?_⟩
  simp only [BallotBox.respond, BallotBox.touched_put _ _ hpos, BallotBox.put_put]
  rfl

theorem submit_eq (result : String) (owner : Option String) (task : String) (context : Fields)
    (now : Instant) :
    let d := (n.ledger.docket taskId now).widen owner n.participants task context
    let v := d.vote n.ledger.box.aggregate n.id result now
    let d' := v.2.close v.1.ready v.1 now
    n.submit taskId result owner task context now =
      (n.settle taskId ((n.ledger.commit taskId d').pruneIf v.1.newlyFinal taskId now) d'.ballot,
       v.1,
       n.resultMessage taskId result owner ::
         n.consensusMessages v.1 taskId (owner <|> d.ballot.owner)) := by
  intro d v d'
  obtain ⟨h1, h2⟩ := expect_respond taskId hp n.id result owner task context now
  simp only [submit, h1, h2, Ledger.mentionedRecord_eq, BallotBox.get?_put_self]
  rfl

theorem onResult_eq (m : Message) (now : Instant) :
    let owner := m.payload.text? "owner"
    let d := (n.ledger.docket m.taskId now).widen owner n.participants "" Dict.empty
    let v := d.vote n.ledger.box.aggregate m.sender ((m.payload.text? "result").getD "") now
    let d' := v.2.close v.1.newlyFinal v.1 now
    n.onResult m now =
      { node := n.settle m.taskId
          ((n.ledger.commit m.taskId d').pruneIf v.1.newlyFinal m.taskId now) d'.ballot
        ack := .recorded v.1.ready, sends := n.consensusMessages v.1 m.taskId owner, runs := [] } := by
  intro owner d v d'
  obtain ⟨h1, h2⟩ := expect_respond m.taskId hp m.sender ((m.payload.text? "result").getD "") owner
    "" Dict.empty now
  simp only [onResult, owner, h1, h2, Ledger.mentionedRecord_eq, BallotBox.get?_put_self]
  rfl

omit hp

theorem onConsensus_eq (m : Message) (now : Instant) :
    let d := (n.ledger.docket m.taskId now).adopt ((m.payload.text? "result").getD "")
      (m.payload.text? "owner") now
    n.onConsensus m now =
      { node := n.settle m.taskId ((n.ledger.commit m.taskId d).prune m.taskId now) d.ballot
        ack := .synced, sends := [], runs := [] } := by
  intro d
  simp only [onConsensus, BallotBox.adopt, BallotBox.touched_eq, Ledger.mentionedRecord_eq]
  rfl

theorem onTask_eq (m : Message) (now : Instant) :
    let d := (n.ledger.docket m.taskId now).announce
      (some ((m.payload.text? "owner").getD m.sender)) n.participants
      ((m.payload.text? "task").getD "") (m.payload.object "context")
    n.onTask m now =
      { node := { n with ledger := n.ledger.commit m.taskId d }
        ack := .accepted m.taskId, sends := [], runs := [m] } := by
  intro d
  rw [onTask, Ledger.mention_eq]

end Node

end AgentMesh
