import AgentMesh.Proofs.Node.Ballots

/-!
Which task an operation of an agent is about, and the receipt for the vote that it casts or takes
(`Node.receipt?_eq_some`).
-/

namespace AgentMesh.Node

/-- The task that an operation is about, if it is about one. -/
def Op.about? : Op → Option String
  | .start taskId _ _ _ => some taskId
  | .submit taskId _ _ _ _ _ => some taskId
  | .execute m _ => some m.taskId
  | .handle m _ => some m.taskId
  | .setParticipants _ => none
  | .contact _ _ => none
  | .await taskId => some taskId
  | .leave taskId => some taskId

/-- The receipt for the vote that an operation casts, or takes from another agent. -/
def receipt? (n : Node) : Op → Option Receipt
  | .submit taskId result owner task context now =>
    some (n.submit taskId result owner task context now).2.1
  | .execute m now =>
    n.executor.map fun executor =>
      let task := (m.payload.text? "task").getD ""
      let context := m.payload.object "context"
      (n.submit m.taskId (executor task context).vote (m.payload.text? "owner") task context now).2.1
  | .handle m now =>
    match m.kind with
    | .result =>
      let mentioned := n.ledger.box.expect m.taskId (m.payload.text? "owner") n.participants ""
        Dict.empty now
      some (mentioned.2.respond m.taskId m.sender ((m.payload.text? "result").getD "") now).1
    | _ => none
  | _ => none

variable {n : Node} {op : Op} {t : String}

theorem about?_of_news {news : News} {now : Instant} (h : n.news? op = some (t, news, now)) :
    op.about? = some t := by
  cases op with
  | execute m at_ =>
    cases he : n.executor with
    | none => simp [news?, he] at h
    | some executor =>
      simp only [news?, he, Option.map_some] at h
      cases h
      rfl
  | handle m at_ =>
    cases hk : m.kind <;> simp only [news?, hk] at h <;> cases h <;> rfl
  | start | submit => cases h; rfl
  | setParticipants | contact | await | leave => cases h

theorem receipt?_eq_some (hp : 1 ≤ n.participants) {receipt : Receipt}
    (h : n.receipt? op = some receipt) :
    ∃ t agent response owner task context own now,
      n.news? op = some (t, .vote agent response owner task context own, now) ∧
      (((n.ledger.docket t now).widen owner n.participants task context).vote
        n.ledger.box.aggregate agent response now).1 = receipt := by
  cases op with
  | submit t result owner task context now =>
    cases h
    refine ⟨t, n.id, result, owner, task, context, true, now, rfl, ?_⟩
    rw [submit_eq t hp]
  | execute m now =>
    obtain ⟨executor, he, rfl⟩ := Option.map_eq_some_iff.mp h
    refine ⟨m.taskId, n.id, _, _, _, _, true, now, by simp only [news?, he, Option.map_some]; rfl, ?_⟩
    dsimp only
    rw [submit_eq m.taskId hp]
  | handle m now =>
    cases hk : m.kind with
    | result =>
      simp only [receipt?, hk] at h
      obtain ⟨-, hrespond⟩ := expect_respond m.taskId hp m.sender
        ((m.payload.text? "result").getD "") (m.payload.text? "owner") "" Dict.empty now
      refine ⟨m.taskId, m.sender, _, _, _, _, false, now, by simp only [news?, hk]; rfl, ?_⟩
      rw [← Option.some.inj h, hrespond]
    | task | consensus | heartbeat => simp [receipt?, hk] at h
  | start | setParticipants | contact | await | leave => cases h

end AgentMesh.Node
