import AgentMesh.Mesh
import AgentMesh.Proofs.Node.Answers
import AgentMesh.Proofs.Node.Sends
import AgentMesh.Proofs.Node.Turnover

/-!
Tasks apart. Where everything is kept, what an agent holds of a task, what it answers about it and what
it sends about it depend on the operations about that task and on the number of participants alone: two
runs that agree in these show the same of the task, whatever else is done in either
(`Node.tasks_apart`).
-/

namespace AgentMesh.Node

/-- What an operation answers. -/
inductive Reply
  | ack (ack : Ack)
  | receipt (receipt : Receipt)
deriving DecidableEq

def reply? (n : Node) : Op → Option Reply
  | .submit taskId result owner task context now =>
    some (.receipt (n.submit taskId result owner task context now).2.1)
  | .handle m now => some (.ack (n.handle m now).ack)
  | _ => none

def Op.time? : Op → Option Instant
  | .start _ _ _ now => some now
  | .submit _ _ _ _ _ now => some now
  | .execute _ now => some now
  | .handle _ now => some now
  | .contact _ now => some now
  | _ => none

/-- What an operation sends: each message that it broadcasts, to one neighbour after the other. -/
def posts (n : Node) (op : Op) : List Sent :=
  match op.time? with
  | some now => (Mesh.spread n.urls (n.sends op)).map fun e => ⟨e.1, e.2, now⟩
  | none => []

/-- What each operation of a run shows, taken together. -/
def trace {α : Type} (see : Node → Op → List α) : Node → List Op → List α
  | _, [] => []
  | n, op :: rest => see n op ++ trace see (n.apply op) rest

def replies (n : Node) (taskId : String) (ops : List Op) : List Reply :=
  n.trace (fun n op => if op.about? = some taskId then (n.reply? op).toList else []) ops

/-- What a run sends about a task. -/
def mail (n : Node) (taskId : String) (ops : List Op) : List Sent :=
  n.trace (fun n op => (n.posts op).filter fun sent => decide (sent.message.taskId = taskId)) ops

/-- The operations on which a task may depend: those about it, and changes of the number of
participants. -/
def Op.concerns (taskId : String) : Op → Bool
  | .setParticipants _ => true
  | op => decide (op.about? = some taskId)

variable {n n' : Node} {op : Op} {t : String} {ops : List Op}

theorem Op.concerns_of_about? (h : op.about? = some t) : op.concerns t = true := by
  cases op with
  | setParticipants v => rfl
  | _ => exact decide_eq_true h

theorem Op.about?_of_concerns (h : op.concerns t = true) :
    op.about? = some t ∨ ∃ v, op = .setParticipants v := by
  cases op with
  | setParticipants v => exact Or.inr ⟨v, rfl⟩
  | _ => exact Or.inl (of_decide_eq_true h)

theorem taskId_of_mem_consensusMessages {receipt : Receipt} {owner : Option String} {m : Message}
    (h : m ∈ n.consensusMessages receipt t owner) : m.taskId = t := by
  unfold consensusMessages at h
  split at h
  · split at h
    · cases h
    · rw [List.mem_singleton.mp h]
  · cases h

theorem participants_apply (n : Node) (ho : ∀ v, op ≠ .setParticipants v) :
    (n.apply op).participants = n.participants :=
  (n.apply_settings op).2.2.resolve_right fun ⟨v, hset, _⟩ => ho v hset

theorem about?_of_mem_sends {m : Message} (h : m ∈ n.sends op) : op.about? = some m.taskId := by
  have hsubmit : ∀ taskId result owner task context now,
      m ∈ (n.submit taskId result owner task context now).2.2 → taskId = m.taskId := by
    intro taskId result owner task context now hm
    rcases List.mem_cons.mp hm with rfl | hm
    · rfl
    · exact (taskId_of_mem_consensusMessages hm).symm
  cases op with
  | start taskId task context now =>
    rw [List.mem_singleton.mp h]
    rfl
  | submit taskId result owner task context now =>
    exact congrArg some (hsubmit _ _ _ _ _ _ h)
  | execute m' now =>
    cases he : n.executor with
    | none => simp [sends, execute, he] at h
    | some executor =>
      simp only [sends, execute, he] at h
      exact congrArg some (hsubmit _ _ _ _ _ _ h)
  | handle m' now =>
    simp only [sends, handle] at h
    cases hk : m'.kind with
    | result =>
      simp only [hk] at h
      exact congrArg some (taskId_of_mem_consensusMessages h).symm
    | task | consensus | heartbeat => simp [hk, onTask, onConsensus, onHeartbeat] at h
  | setParticipants | contact | await | leave => cases h

/-- An agent that keeps everything. -/
structure Lasting (n : Node) : Prop extends n.Sound where
  unbounded : n.ledger.box.retention.isUnbounded = true

theorem Lasting.apply (h : n.Lasting) (op : Op) : (n.apply op).Lasting :=
  ⟨h.toSound.apply op, by rw [(apply_box h.participants_pos op).2]; exact h.unbounded⟩

theorem Lasting.run (h : n.Lasting) (ops : List Op) : (n.run ops).Lasting := by
  induction ops generalizing n with
  | nil => exact h
  | cons op rest ih => exact ih (h.apply op)

theorem Lasting.ledger_apply (h : n.Lasting) {u : String} {news : News} {now : Instant}
    (hnews : n.news? op = some (u, news, now)) :
    (n.apply op).ledger = n.ledger.commit u
      ((n.ledger.docket u now).learn n.ledger.box.aggregate n.participants now news).2 := by
  rw [Node.ledger_apply h.participants_pos, hnews]
  exact Ledger.pruneIf_commit h.unbounded _ _ u now

/-- Agents that make the same of a task. -/
structure Alike (taskId : String) (n n' : Node) : Prop where
  id : n.id = n'.id
  executor : n.executor = n'.executor
  participants : n.participants = n'.participants
  aggregate : n.ledger.box.aggregate = n'.ledger.box.aggregate
  urls : n.urls = n'.urls
  ballot : n.ballot? taskId = n'.ballot? taskId
  record : n.record? taskId = n'.record? taskId

theorem Alike.refl (t : String) (n : Node) : Alike t n n := ⟨rfl, rfl, rfl, rfl, rfl, rfl, rfl⟩

theorem Alike.trans {n'' : Node} (h : Alike t n n') (h' : Alike t n' n'') : Alike t n n'' :=
  ⟨h.id.trans h'.id, h.executor.trans h'.executor, h.participants.trans h'.participants,
    h.aggregate.trans h'.aggregate, h.urls.trans h'.urls, h.ballot.trans h'.ballot,
    h.record.trans h'.record⟩

theorem Alike.docket (h : Alike t n n') (now : Instant) :
    n.ledger.docket t now = n'.ledger.docket t now := by
  have hb : n.ledger.box.get? t = n'.ledger.box.get? t := h.ballot
  have hr : n.ledger.records.get? t = n'.ledger.records.get? t := h.record
  simp only [Ledger.docket, BallotBox.held, hb, hr]

theorem Alike.news (h : Alike t n n') (op : Op) : n.news? op = n'.news? op := by
  cases op <;> simp only [news?, h.id, h.executor]

theorem alike_apply (h : n.Lasting) (ho : op.concerns t = false) : Alike t (n.apply op) n := by
  obtain ⟨hid, he, -⟩ := n.apply_settings op
  have hparticipants : (n.apply op).participants = n.participants := by
    refine n.participants_apply ?_
    rintro v rfl
    cases ho
  have hlookup : (n.apply op).ballot? t = n.ballot? t ∧ (n.apply op).record? t = n.record? t := by
    cases hnews : n.news? op with
    | none => simp only [ballot?, record?, (apply_of_no_news hnews).1, and_self]
    | some x =>
      obtain ⟨u, news, now⟩ := x
      have hne : u ≠ t := by
        rintro rfl
        rw [Op.concerns_of_about? (about?_of_news hnews)] at ho
        cases ho
      simp only [ballot?, record?, h.ledger_apply hnews, Ledger.get?_commit,
        Ledger.records_get?_commit, if_neg hne, and_self]
  exact ⟨hid, he, hparticipants, (apply_box h.participants_pos op).1, n.urls_apply op, hlookup.1,
    hlookup.2⟩

theorem Alike.apply (h : Alike t n n') (hn : n.Lasting) (hn' : n'.Lasting)
    (ho : op.concerns t = true) : Alike t (n.apply op) (n'.apply op) := by
  obtain ⟨hid, he, -⟩ := n.apply_settings op
  obtain ⟨hid', he', -⟩ := n'.apply_settings op
  have hparticipants : (n.apply op).participants = (n'.apply op).participants := by
    by_cases hset : ∃ v, op = .setParticipants v
    · obtain ⟨v, rfl⟩ := hset
      rfl
    · have hkeeps : ∀ v, op ≠ .setParticipants v := fun v hv => hset ⟨v, hv⟩
      rw [n.participants_apply hkeeps, n'.participants_apply hkeeps, h.participants]
  have hlookup : (n.apply op).ballot? t = (n'.apply op).ballot? t ∧
      (n.apply op).record? t = (n'.apply op).record? t := by
    cases hnews : n.news? op with
    | none =>
      have hnews' : n'.news? op = none := (h.news op).symm.trans hnews
      have hkept := (apply_of_no_news hnews).1
      have hkept' := (apply_of_no_news hnews').1
      exact ⟨(congrArg (·.box.get? t) hkept).trans
          (h.ballot.trans (congrArg (·.box.get? t) hkept').symm),
        (congrArg (·.records.get? t) hkept).trans
          (h.record.trans (congrArg (·.records.get? t) hkept').symm)⟩
    | some x =>
      obtain ⟨u, news, now⟩ := x
      have hnews' : n'.news? op = some (u, news, now) := (h.news op).symm.trans hnews
      obtain rfl : u = t := by
        rcases Op.about?_of_concerns ho with ht | ⟨v, rfl⟩
        · exact Option.some.inj ((about?_of_news hnews).symm.trans ht)
        · cases hnews
      simp only [ballot?, record?, hn.ledger_apply hnews, hn'.ledger_apply hnews',
        Ledger.get?_commit, Ledger.records_get?_commit, if_pos, h.docket, h.aggregate,
        h.participants, and_self]
  exact ⟨hid.trans (h.id.trans hid'.symm), he.trans (h.executor.trans he'.symm), hparticipants,
    ((apply_box hn.participants_pos op).1).trans
      (h.aggregate.trans (apply_box hn'.participants_pos op).1.symm),
    (n.urls_apply op).trans (h.urls.trans (n'.urls_apply op).symm), hlookup.1, hlookup.2⟩

theorem Alike.submit (h : Alike t n n') (hn : n.Lasting) (hn' : n'.Lasting) (result : String)
    (owner : Option String) (task : String) (context : Fields) (now : Instant) :
    (n.submit t result owner task context now).2 =
      (n'.submit t result owner task context now).2 := by
  simp only [submit_eq t hn.participants_pos, submit_eq t hn'.participants_pos, resultMessage,
    consensusMessages, h.docket, h.participants, h.aggregate, h.id]

theorem Alike.handle (h : Alike t n n') (hn : n.Lasting) (hn' : n'.Lasting) {m : Message}
    (hm : m.taskId = t) (now : Instant) :
    (n.handle m now).ack = (n'.handle m now).ack ∧
      (n.handle m now).sends = (n'.handle m now).sends := by
  subst t
  unfold Node.handle
  cases m.kind with
  | result =>
    simp only [onResult_eq hn.participants_pos, onResult_eq hn'.participants_pos,
      consensusMessages, h.docket, h.participants, h.aggregate, h.id, and_self]
  | task | consensus | heartbeat => exact ⟨rfl, rfl⟩

theorem Alike.shows (h : Alike t n n') (hn : n.Lasting) (hn' : n'.Lasting)
    (ho : op.about? = some t) : n.reply? op = n'.reply? op ∧ n.sends op = n'.sends op := by
  cases op with
  | start taskId task context now =>
    cases ho
    exact ⟨rfl, by simp only [sends, start_eq, taskMessage, h.id]⟩
  | submit taskId result owner task context now =>
    cases ho
    have hs := h.submit hn hn' result owner task context now
    simp only [reply?, sends, hs, and_self]
  | execute m now =>
    cases ho
    refine ⟨rfl, ?_⟩
    cases he : n.executor with
    | none => simp only [sends, execute, ← h.executor, he]
    | some executor =>
      simp only [sends, execute, ← h.executor, he, h.submit hn hn']
  | handle m now =>
    obtain ⟨hack, hsends⟩ := h.handle hn hn' (Option.some.inj ho) now
    exact ⟨congrArg (fun a => some (Reply.ack a)) hack, hsends⟩
  | setParticipants | contact | await | leave => exact ⟨rfl, rfl⟩

/-- A run leaves of a task what the operations leave on which the task depends. -/
theorem Alike.run (h : Alike t n n') (hn : n.Lasting) (hn' : n'.Lasting) (ops : List Op) :
    Alike t (n.run ops) (n'.run (ops.filter (Op.concerns t))) := by
  induction ops generalizing n n' with
  | nil => exact h
  | cons op rest ih =>
    cases ho : op.concerns t with
    | true =>
      rw [List.filter_cons_of_pos ho]
      exact ih (h.apply hn hn' ho) (hn.apply op) (hn'.apply op)
    | false =>
      rw [List.filter_cons_of_neg (by rw [ho]; exact Bool.false_ne_true)]
      exact ih ((alike_apply hn ho).trans h) (hn.apply op) hn'

/-- A run shows what the operations show on which the task depends, if the others show nothing. -/
theorem Alike.trace {α : Type} {see : Node → Op → List α} (h : Alike t n n') (hn : n.Lasting)
    (hn' : n'.Lasting) (hquiet : ∀ n op, op.concerns t = false → see n op = [])
    (hsee : ∀ n n' op, Alike t n n' → n.Lasting → n'.Lasting → see n op = see n' op)
    (ops : List Op) : n.trace see ops = n'.trace see (ops.filter (Op.concerns t)) := by
  induction ops generalizing n n' with
  | nil => rfl
  | cons op rest ih =>
    cases ho : op.concerns t with
    | true =>
      rw [List.filter_cons_of_pos ho, Node.trace, Node.trace, hsee n n' op h hn hn',
        ih (h.apply hn hn' ho) (hn.apply op) (hn'.apply op)]
    | false =>
      rw [List.filter_cons_of_neg (by rw [ho]; exact Bool.false_ne_true), Node.trace,
        hquiet n op ho, ih ((alike_apply hn ho).trans h) (hn.apply op) hn']
      rfl

theorem replies_purged (hn : n.Lasting) (t : String) (ops : List Op) :
    n.replies t ops = n.replies t (ops.filter (Op.concerns t)) := by
  refine (Alike.refl t n).trace hn hn ?_ ?_ ops
  · intro n op ho
    refine if_neg fun ht => ?_
    rw [Op.concerns_of_about? ht] at ho
    cases ho
  · intro n n' op h hn hn'
    split
    · next ht => rw [(h.shows hn hn' ht).1]
    · rfl

theorem mail_purged (hn : n.Lasting) (t : String) (ops : List Op) :
    n.mail t ops = n.mail t (ops.filter (Op.concerns t)) := by
  -- an operation that sends anything about the task is about it
  have hnone : ∀ (n : Node) (op : Op), op.about? ≠ some t →
      ((n.posts op).filter fun sent => decide (sent.message.taskId = t)) = [] := by
    intro n op ho
    rw [List.filter_eq_nil_iff]
    intro sent hsent ht
    unfold posts at hsent
    split at hsent
    · obtain ⟨e, he, rfl⟩ := List.mem_map.mp hsent
      have hm := (Mesh.mem_spread.mp he).2
      exact ho ((about?_of_mem_sends hm).trans (congrArg some (of_decide_eq_true ht)))
    · cases hsent
  refine (Alike.refl t n).trace hn hn ?_ ?_ ops
  · intro n op ho
    refine hnone n op fun ht => ?_
    rw [Op.concerns_of_about? ht] at ho
    cases ho
  · intro n n' op h hn hn'
    by_cases ht : op.about? = some t
    · simp only [posts, (h.shows hn hn' ht).2, h.urls]
    · rw [hnone n op ht, hnone n' op ht]

/-- Two runs of an agent that keeps everything, with the same operations about a task and the same
changes of the number of participants, come to the same ballot and the same record of the task, answer
the same about it and send the same about it, wherever operations about other tasks are added, changed
or left out. -/
theorem tasks_apart (id : String) (peers : List Peer) (executor : Option Executor)
    (participants : Option Nat) (aggregate : Aggregator) (past ops ops' : List Op) (t : String)
    (h : ops.filter (Op.concerns t) = ops'.filter (Op.concerns t)) :
    let n := (build id peers executor participants
      (Ledger.empty aggregate Retention.unbounded)).run past
    (n.run ops).ballot? t = (n.run ops').ballot? t ∧
      (n.run ops).record? t = (n.run ops').record? t ∧
      n.replies t ops = n.replies t ops' ∧ n.mail t ops = n.mail t ops' := by
  intro n
  have hbuilt : (build id peers executor participants
      (Ledger.empty aggregate Retention.unbounded)).Lasting :=
    ⟨sound_build id peers executor participants aggregate _, rfl⟩
  have hn : n.Lasting := hbuilt.run past
  have halike := (Alike.refl t n).run hn hn ops
  have halike' := (Alike.refl t n).run hn hn ops'
  rw [h] at halike
  refine ⟨halike.ballot.trans halike'.ballot.symm, halike.record.trans halike'.record.symm, ?_, ?_⟩
  · rw [replies_purged hn, h, ← replies_purged hn]
  · rw [mail_purged hn, h, ← mail_purged hn]

def crossed : List Op :=
  [.handle ⟨.result, "c", "u", Dict.ofList [("result", .str "1")]⟩ (Instant.ofNanos 0),
   .start "t" "sum" Dict.empty (Instant.ofNanos 1),
   .handle ⟨.consensus, "c", "u", Dict.ofList [("result", .str "2")]⟩ (Instant.ofNanos 2),
   .setParticipants 2,
   .submit "t" "3" (some "a") "sum" Dict.empty (Instant.ofNanos 3),
   .handle ⟨.task, "c", "u", Dict.ofList [("task", .str "product")]⟩ (Instant.ofNanos 4),
   .handle ⟨.result, "b", "t", Dict.ofList [("result", .str "4")]⟩ (Instant.ofNanos 5)]

/-- Without the messages about `u` the task `t` becomes final all the same, with the same three messages
to the one neighbour. -/
theorem tasks_apart_crossed :
    let n := build "a" [Peer.ofEndpoint "b" "http://b"] none (some 1)
      (Ledger.empty transcript Retention.unbounded)
    let own := crossed.filter fun op => decide (∀ u ∈ op.about?, u = "t")
    (n.run own).ballot? "t" = (n.run crossed).ballot? "t" ∧
      ((n.run own).ballot? "t").map Ballot.isFinal = some true ∧
      (n.run own).record? "t" = (n.run crossed).record? "t" ∧
      n.replies "t" own = n.replies "t" crossed ∧ n.mail "t" own = n.mail "t" crossed ∧
      (n.mail "t" own).map (·.message.kind) = [.task, .result, .consensus] := by
  intro n own
  have h : own.filter (Op.concerns "t") = crossed.filter (Op.concerns "t") := by rfl
  obtain ⟨hballot, hrecord, hreplies, hmail⟩ := tasks_apart "a" [Peer.ofEndpoint "b" "http://b"] none
    (some 1) transcript [] own crossed "t" h
  exact ⟨hballot, by decide, hrecord, hreplies, hmail, by decide⟩

end AgentMesh.Node
