import AgentMesh.Proofs.Consensus.Eviction
import AgentMesh.Proofs.Node.Runs

/-!
The ballots of an agent along its runs. News of a task changes the ballot on it (`Node.ballot_of_news`);
any other ballot stays as it is, or is dropped if it is final and not everything is kept
(`Node.ballot_of_other`).
-/

namespace AgentMesh

/-- A ballot after news. -/
def Ballot.learn (b : Ballot) (aggregate : Aggregator) (participants : Nat) (now : Instant) :
    News → Ballot
  | .task owner task context => b.widen (owner.filter (!·.isEmpty)) participants task context
  | .vote agent response owner task context _ =>
    ((b.widen (owner.filter (!·.isEmpty)) participants task context).vote aggregate agent response
      now).2
  | .result result _ => (b.widen none 1 "" Dict.empty).finalize result now

theorem Docket.learn_ballot (d : Docket) (aggregate : Aggregator) (participants : Nat)
    (now : Instant) (news : News) :
    (d.learn aggregate participants now news).2.ballot =
      d.ballot.learn aggregate participants now news := by
  cases news <;> rfl

namespace Ballot

variable {b : Ballot} (aggregate : Aggregator) (participants : Nat) (now : Instant) (news : News)

theorem Valid.learn {taskId : String} (h : b.Valid taskId) :
    (b.learn aggregate participants now news).Valid taskId := by
  cases news with
  | task owner task context => exact h.widen _ participants task context
  | vote agent response owner task context own =>
    exact (h.widen _ participants task context).vote
  | result result owner => exact (h.widen none 1 "" Dict.empty).finalize result now

theorem outcome_learn (h : b.isFinal = true) :
    (b.learn aggregate participants now news).outcome = b.outcome := by
  cases news with
  | task owner task context => rfl
  | vote agent response owner task context own =>
    have hf : (b.widen (owner.filter (!·.isEmpty)) participants task context).isFinal = true := h
    exact outcome_vote hf
  | result result owner =>
    have hf : (b.widen none 1 "" Dict.empty).isFinal = true := h
    exact outcome_finalize hf result

end Ballot

namespace Ledger

variable {l : Ledger} {taskId t : String} {participants : Nat} {news : News} {now : Instant}

theorem get?_pruneIf (condition : Bool) (keep : String) :
    (l.pruneIf condition keep now).box.get? t =
      if condition = true ∧ t ∈ l.box.evictions (some keep) now then none else l.box.get? t := by
  cases condition with
  | false => simp [pruneIf]
  | true =>
    have hp := l.box.get?_prune (some keep) now t
    simpa [pruneIf, prune] using hp

theorem records_get?_pruneIf (condition : Bool) (keep : String) :
    (l.pruneIf condition keep now).records.get? t =
      if condition = true ∧ t ∈ l.box.evictions (some keep) now then none
      else l.records.get? t := by
  cases condition with
  | false => simp [pruneIf]
  | true =>
    have hp := Dict.get?_eraseAll l.records (l.box.evictions (some keep) now) t
    simpa [pruneIf, prune, BallotBox.prune] using hp

theorem docket_of_none (hb : l.box.get? t = none)
    (hr : l.records.get? t = none) (now : Instant) :
    l.docket t now = ⟨Ballot.blank t now, AuditRecord.blank t now⟩ := by
  simp [docket, BallotBox.held, hb, hr]

theorem docket_pruneIf (l : Ledger) (condition : Bool) (keep : String) (at_ : Instant) (t : String)
    (now : Instant) :
    (l.pruneIf condition keep at_).docket t now = l.docket t now ∨
      (l.pruneIf condition keep at_).docket t now =
        ⟨Ballot.blank t now, AuditRecord.blank t now⟩ := by
  have hbox : (l.pruneIf condition keep at_).box.get? t =
      if condition = true ∧ t ∈ l.box.evictions (some keep) at_ then none else l.box.get? t :=
    l.get?_pruneIf condition keep
  have hrec : (l.pruneIf condition keep at_).records.get? t =
      if condition = true ∧ t ∈ l.box.evictions (some keep) at_ then none else l.records.get? t :=
    l.records_get?_pruneIf condition keep
  by_cases hgone : condition = true ∧ t ∈ l.box.evictions (some keep) at_
  · right
    rw [if_pos hgone] at hbox hrec
    exact docket_of_none hbox hrec now
  · left
    rw [if_neg hgone] at hbox hrec
    simp only [Ledger.docket, BallotBox.held, hbox, hrec]

theorem learn_box :
    (l.learn participants taskId news now).box.aggregate = l.box.aggregate ∧
      (l.learn participants taskId news now).box.retention = l.box.retention := by
  simp only [learn, pruneIf]
  split <;> exact ⟨rfl, rfl⟩

theorem valid_committed (h : l.box.Valid) :
    (l.commit taskId ((l.docket taskId now).learn l.box.aggregate participants now
      news).2).box.Valid := by
  refine h.put ?_
  rw [Docket.learn_ballot]
  exact (h.held taskId now).learn l.box.aggregate participants now news

theorem get?_learn_self (h : l.box.Valid) :
    (l.learn participants taskId news now).box.get? taskId =
      some ((l.box.held taskId now).learn l.box.aggregate participants now news) := by
  rw [learn, get?_pruneIf, if_neg, get?_commit, if_pos rfl, Docket.learn_ballot]
  · rfl
  · rintro ⟨-, hmem⟩
    exact (BallotBox.mem_evictions (valid_committed h) hmem).2.1 rfl

theorem get?_learn_of_ne (h : l.box.Valid) (ht : taskId ≠ t) :
    (l.learn participants taskId news now).box.get? t = l.box.get? t ∨
      (l.box.retention.isUnbounded = false ∧
        (l.learn participants taskId news now).box.get? t = none ∧
        ∃ b, l.box.get? t = some b ∧ b.isFinal = true) := by
  rw [learn, get?_pruneIf]
  split
  · next hgone =>
    obtain ⟨hbounded, -, b, hb, hf⟩ := BallotBox.mem_evictions (valid_committed h) hgone.2
    rw [get?_commit, if_neg ht] at hb
    exact Or.inr ⟨hbounded, rfl, b, hb, hf⟩
  · left
    rw [get?_commit, if_neg ht]

end Ledger

theorem BallotBox.Valid.learn {l : Ledger} (h : l.box.Valid) (participants : Nat) (taskId : String)
    (news : News) (now : Instant) : (l.learn participants taskId news now).box.Valid := by
  intro t b hb
  by_cases ht : taskId = t
  · subst t
    rw [Ledger.get?_learn_self h] at hb
    exact Option.some.inj hb ▸ (h.held taskId now).learn l.box.aggregate participants now news
  · rcases Ledger.get?_learn_of_ne h ht with he | ⟨-, he, -⟩
    · exact h t b (he ▸ hb)
    · rw [he] at hb
      cases hb

namespace Node

variable {n : Node} {op : Op} {t : String}

theorem run_identity (n : Node) (ops : List Op) :
    (n.run ops).id = n.id ∧ (n.run ops).executor = n.executor := by
  induction ops generalizing n with
  | nil => exact ⟨rfl, rfl⟩
  | cons op rest ih =>
    obtain ⟨hid, he, -⟩ := n.apply_settings op
    obtain ⟨hid', he'⟩ := ih (n.apply op)
    exact ⟨hid'.trans hid, he'.trans he⟩

theorem run_append (n : Node) (ops more : List Op) : n.run (ops ++ more) = (n.run ops).run more :=
  List.foldl_append

theorem news?_run (n : Node) (ops : List Op) (op : Op) : (n.run ops).news? op = n.news? op := by
  obtain ⟨hid, he⟩ := n.run_identity ops
  cases op <;> simp only [news?, hid, he]

theorem apply_box (hp : 1 ≤ n.participants) (op : Op) :
    (n.apply op).ledger.box.aggregate = n.ledger.box.aggregate ∧
      (n.apply op).ledger.box.retention = n.ledger.box.retention := by
  rw [ledger_apply hp]
  cases n.news? op with
  | none => exact ⟨rfl, rfl⟩
  | some x => exact Ledger.learn_box

/-- What holds of an agent after any operations. -/
structure Sound (n : Node) : Prop where
  participants_pos : 1 ≤ n.participants
  valid : n.ledger.box.Valid

theorem sound_build (id : String) (peers : List Peer) (executor : Option Executor)
    (participants : Option Nat) (aggregate : Aggregator) (retention : Retention) :
    (build id peers executor participants (Ledger.empty aggregate retention)).Sound :=
  ⟨Nat.le_max_left 1 _, BallotBox.valid_empty aggregate retention⟩

theorem Sound.apply (h : n.Sound) (op : Op) : (n.apply op).Sound := by
  refine ⟨apply_participants_pos h.participants_pos op, ?_⟩
  rw [ledger_apply h.participants_pos]
  cases n.news? op with
  | none => exact h.valid
  | some x => exact h.valid.learn n.participants x.1 x.2.1 x.2.2

theorem Sound.run (h : n.Sound) (ops : List Op) : (n.run ops).Sound := by
  induction ops generalizing n with
  | nil => exact h
  | cons op rest ih => exact ih (h.apply op)

theorem Sound.run_box (h : n.Sound) (ops : List Op) :
    (n.run ops).ledger.box.aggregate = n.ledger.box.aggregate ∧
      (n.run ops).ledger.box.retention = n.ledger.box.retention := by
  induction ops generalizing n with
  | nil => exact ⟨rfl, rfl⟩
  | cons op rest ih =>
    obtain ⟨ha, hr⟩ := apply_box h.participants_pos op
    obtain ⟨ha', hr'⟩ := ih (h.apply op)
    exact ⟨ha'.trans ha, hr'.trans hr⟩

/-- The ballot that an agent holds on a task. -/
def ballot? (n : Node) (taskId : String) : Option Ballot := n.ledger.box.get? taskId

def result? (n : Node) (taskId : String) : Option String := (n.ballot? taskId).bind (·.result)

theorem ballot_of_news (h : n.Sound) {news : News} {now : Instant}
    (hnews : n.news? op = some (t, news, now)) :
    (n.apply op).ballot? t =
      some ((n.ledger.box.held t now).learn n.ledger.box.aggregate n.participants now news) := by
  rw [ballot?, ledger_apply h.participants_pos, hnews]
  exact Ledger.get?_learn_self h.valid

theorem ballot_of_other (h : n.Sound) (hother : ∀ x, n.news? op = some x → x.1 ≠ t) :
    (n.apply op).ballot? t = n.ballot? t ∨
      (n.ledger.box.retention.isUnbounded = false ∧ (n.apply op).ballot? t = none ∧
        ∃ b, n.ballot? t = some b ∧ b.isFinal = true) := by
  simp only [ballot?, ledger_apply h.participants_pos]
  cases hnews : n.news? op with
  | none => exact Or.inl rfl
  | some x => exact Ledger.get?_learn_of_ne h.valid (hother x hnews)

/-- An operation brings news of a task, or leaves its ballot alone, or drops it. -/
theorem ballot_apply (h : n.Sound) (op : Op) (t : String) :
    (∃ news now, n.news? op = some (t, news, now)) ∨ (n.apply op).ballot? t = n.ballot? t ∨
      (n.ledger.box.retention.isUnbounded = false ∧ (n.apply op).ballot? t = none ∧
        ∃ b, n.ballot? t = some b ∧ b.isFinal = true) := by
  by_cases hother : ∀ x, n.news? op = some x → x.1 ≠ t
  · exact Or.inr (ballot_of_other h hother)
  · push Not at hother
    obtain ⟨⟨t', news, now⟩, hnews, rfl⟩ := hother
    exact Or.inl ⟨news, now, hnews⟩

end Node

end AgentMesh
