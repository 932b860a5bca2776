import AgentMesh.Proofs.Node.Docket

/-!
Runs of one agent. Whatever an agent does tells it at most one piece of news about one task, and what
it then does to its ledger depends on the news alone (`Node.ledger_apply`); so what news keeps of a
ledger holds after every run (`Node.ledger_run`).
-/

namespace AgentMesh

/-- What an agent may learn of a task. -/
inductive News
  | task (owner : Option String) (task : String) (context : Fields)
  | vote (agent response : String) (owner : Option String) (task : String) (context : Fields)
      (own : Bool)
  | result (result : String) (owner : Option String)

/-- A docket after news, and whether it may have fixed a result. A vote closes the record if it fixes
the result; the agent's own vote closes it again if the result was fixed before. -/
def Docket.learn (d : Docket) (aggregate : Aggregator) (participants : Nat) (now : Instant) :
    News → Bool × Docket
  | .task owner task context => (false, d.announce owner participants task context)
  | .vote agent response owner task context own =>
    let v := (d.widen owner participants task context).vote aggregate agent response now
    (v.1.newlyFinal, v.2.close (if own then v.1.ready else v.1.newlyFinal) v.1 now)
  | .result result owner => (true, d.adopt result owner now)

/-- A ledger after news of a task. -/
def Ledger.learn (l : Ledger) (participants : Nat) (taskId : String) (news : News)
    (now : Instant) : Ledger :=
  let d := (l.docket taskId now).learn l.box.aggregate participants now news
  (l.commit taskId d.2).pruneIf d.1 taskId now

namespace Node

inductive Op
  | start (taskId task : String) (context : Fields) (now : Instant)
  | submit (taskId result : String) (owner : Option String) (task : String) (context : Fields)
      (now : Instant)
  | execute (m : Message) (now : Instant)
  | handle (m : Message) (now : Instant)
  | setParticipants (value : Nat)
  | contact (failure : String → Option String) (now : Instant)
  | await (taskId : String)
  | leave (taskId : String)

/-- The agent after an operation. -/
def apply (n : Node) : Op → Node
  | .start taskId task context now => (n.start taskId task context now).1
  | .submit taskId result owner task context now =>
    (n.submit taskId result owner task context now).1
  | .execute m now => (n.execute m now).1
  | .handle m now => (n.handle m now).node
  | .setParticipants value => n.setParticipants value
  | .contact failure now => n.noteContacts failure now
  | .await taskId => n.await taskId
  | .leave taskId => n.stopWaiting taskId

def run (n : Node) (ops : List Op) : Node := ops.foldl apply n

def news? (n : Node) : Op → Option (String × News × Instant)
  | .start taskId task context now => some (taskId, .task (some n.id) task context, now)
  | .submit taskId result owner task context now =>
    some (taskId, .vote n.id result owner task context true, now)
  | .execute m now =>
    n.executor.map fun executor =>
      let task := (m.payload.text? "task").getD ""
      let context := m.payload.object "context"
      (m.taskId, .vote n.id (executor task context).vote (m.payload.text? "owner") task context
        true, now)
  | .handle m now =>
    match m.kind with
    | .task =>
      some (m.taskId, .task (some ((m.payload.text? "owner").getD m.sender))
        ((m.payload.text? "task").getD "") (m.payload.object "context"), now)
    | .result =>
      some (m.taskId, .vote m.sender ((m.payload.text? "result").getD "")
        (m.payload.text? "owner") "" Dict.empty false, now)
    | .consensus =>
      some (m.taskId, .result ((m.payload.text? "result").getD "") (m.payload.text? "owner"), now)
    | .heartbeat => none
  | _ => none

variable {n : Node}

theorem apply_settings (n : Node) (op : Op) :
    (n.apply op).id = n.id ∧ (n.apply op).executor = n.executor ∧
      ((n.apply op).participants = n.participants ∨
        ∃ v, op = .setParticipants v ∧ (n.apply op).participants = max 1 v) := by
  have htell : ∀ ledger taskId b, (({ n with ledger } : Node).tell taskId b).id = n.id ∧
      (({ n with ledger } : Node).tell taskId b).executor = n.executor ∧
      (({ n with ledger } : Node).tell taskId b).participants = n.participants :=
    fun _ taskId b => ⟨tell_id _ taskId b, tell_executor _ taskId b, tell_participants _ taskId b⟩
  cases op with
  | submit taskId result owner task context now =>
    obtain ⟨hid, he, hp⟩ := htell _ taskId _
    exact ⟨hid, he, Or.inl hp⟩
  | execute m now =>
    cases he : n.executor with
    | none => simp [apply, execute, he]
    | some executor =>
      obtain ⟨hid, he', hp⟩ := htell _ m.taskId _
      simp only [apply, execute, he]
      exact ⟨hid, he'.trans he, Or.inl hp⟩
  | handle m now =>
    simp only [apply, handle]
    cases m.kind with
    | result | consensus =>
      obtain ⟨hid, he, hp⟩ := htell _ m.taskId _
      exact ⟨hid, he, Or.inl hp⟩
    | task | heartbeat => exact ⟨rfl, rfl, Or.inl rfl⟩
  | setParticipants value => exact ⟨rfl, rfl, Or.inr ⟨value, rfl, rfl⟩⟩
  | start | contact | await | leave => exact ⟨rfl, rfl, Or.inl rfl⟩

theorem apply_participants_pos (hp : 1 ≤ n.participants) (op : Op) :
    1 ≤ (n.apply op).participants := by
  rcases (n.apply_settings op).2.2 with h | ⟨v, -, h⟩
  · rw [h]
    exact hp
  · rw [h]
    exact Nat.le_max_left 1 v

/-- News goes into the ledger; and those who wait for the task are told, unless it just mentions the
task. -/
theorem apply_of_news (hp : 1 ≤ n.participants) {op : Op} {t : String} {news : News} {now : Instant}
    (h : n.news? op = some (t, news, now)) :
    (n.apply op = { n with ledger := n.ledger.learn n.participants t news now } ∧
        ∃ owner task context, news = .task owner task context) ∨
      n.apply op = n.settle t (n.ledger.learn n.participants t news now)
        ((n.ledger.docket t now).learn n.ledger.box.aggregate n.participants now news).2.ballot := by
  cases op with
  | start taskId task context at_ =>
    cases h
    exact Or.inl ⟨congrArg Prod.fst (start_eq n t task context now), _, _, _, rfl⟩
  | submit taskId result owner task context at_ =>
    cases h
    right
    rw [apply, submit_eq t hp]
    rfl
  | execute m at_ =>
    cases he : n.executor with
    | none => simp [news?, he] at h
    | some executor =>
      simp only [news?, he, Option.map_some] at h
      cases h
      right
      simp only [apply, execute, he]
      rw [submit_eq m.taskId hp]
      rfl
  | handle m at_ =>
    cases hk : m.kind with
    | task =>
      simp only [news?, hk] at h
      cases h
      refine Or.inl ⟨?_, _, _, _, rfl⟩
      simp only [apply, handle, hk]
      rw [onTask_eq]
      rfl
    | result =>
      simp only [news?, hk] at h
      cases h
      right
      simp only [apply, handle, hk]
      rw [onResult_eq hp]
      rfl
    | consensus =>
      simp only [news?, hk] at h
      cases h
      right
      simp only [apply, handle, hk]
      rw [onConsensus_eq]
      rfl
    | heartbeat => simp [news?, hk] at h
  | setParticipants | contact | await | leave => cases h

theorem apply_of_no_news {op : Op} (h : n.news? op = none) :
    (n.apply op).ledger = n.ledger ∧
      ((n.apply op).awaited = n.awaited ∨ ∃ t, op = .await t ∨ op = .leave t) := by
  cases op with
  | execute m now =>
    cases he : n.executor with
    | none => simp [apply, execute, he]
    | some executor => simp [news?, he] at h
  | handle m now =>
    cases hk : m.kind with
    | heartbeat => simp [apply, handle, hk, onHeartbeat]
    | task | result | consensus => simp [news?, hk] at h
  | await t => exact ⟨rfl, Or.inr ⟨t, Or.inl rfl⟩⟩
  | leave t => exact ⟨rfl, Or.inr ⟨t, Or.inr rfl⟩⟩
  | setParticipants | contact => exact ⟨rfl, Or.inl rfl⟩
  | start | submit => cases h

/-- The ledger after an operation is the one before with the news that the operation brings. -/
theorem ledger_apply (hp : 1 ≤ n.participants) (op : Op) :
    (n.apply op).ledger =
      (n.news? op).elim n.ledger fun x => n.ledger.learn n.participants x.1 x.2.1 x.2.2 := by
  cases hnews : n.news? op with
  | none => exact (apply_of_no_news hnews).1
  | some x =>
    rcases apply_of_news hp hnews with ⟨h, -⟩ | h
    · rw [h]
      rfl
    · rw [h]
      exact tell_ledger _ _ _

/-- What news keeps of a ledger, whatever it is, holds after every run. -/
theorem ledger_run {P : Ledger → Prop}
    (hlearn : ∀ l participants taskId news now, 1 ≤ participants → P l →
      P (l.learn participants taskId news now))
    (hp : 1 ≤ n.participants) (h : P n.ledger) (ops : List Op) : P (n.run ops).ledger := by
  induction ops generalizing n with
  | nil => exact h
  | cons op rest ih =>
    refine ih (apply_participants_pos hp op) ?_
    rw [ledger_apply hp]
    cases n.news? op with
    | none => exact h
    | some x => exact hlearn _ _ _ _ _ hp h

end Node

end AgentMesh
