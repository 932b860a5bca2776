import AgentMesh.Proofs.Consensus.Voting

/-!
Runs of operations on a ballot box. Every ballot of a run is valid (`BallotBox.Valid.run`), and a
final one keeps its outcome until it is removed (`BallotBox.outcome_run`).
-/

namespace AgentMesh.BallotBox

/-- What can be done with a box. The instants are readings of the clock, in no particular order. -/
inductive Op
  | expect (taskId : String) (owner : Option String) (participants : Nat) (task : String)
      (context : Fields) (now : Instant)
  | respond (taskId agent response : String) (now : Instant)
  | adopt (taskId result : String) (now : Instant)
  | get (taskId : String)
  | prune (keep : Option String) (now : Instant)
  | forget (taskId : String)

def apply (box : BallotBox) : Op → BallotBox
  | .expect taskId owner participants task context now =>
    (box.expect taskId owner participants task context now).2
  | .respond taskId agent response now => (box.respond taskId agent response now).2
  | .adopt taskId result now => (box.adopt taskId result now).2
  | .get _ => box
  | .prune keep now => (box.prune keep now).2
  | .forget taskId => box.forget taskId

def run (box : BallotBox) (ops : List Op) : BallotBox := ops.foldl apply box

/-- Whether an operation takes the ballot on a task away. -/
def Removes (box : BallotBox) (taskId : String) : Op → Prop
  | .prune keep now => taskId ∈ box.evictions keep now
  | .forget t => t = taskId
  | _ => False

/-- Whether an operation works on the ballot on a task, which it opens if there is none. -/
def Op.Opens (taskId : String) : Op → Prop
  | .expect t _ _ _ _ _ => t = taskId
  | .respond t _ _ _ => t = taskId
  | .adopt t _ _ => t = taskId
  | _ => False

/-- No operation of a run takes the ballot on a task away. -/
def Keeps (taskId : String) : BallotBox → List Op → Prop
  | _, [] => True
  | box, op :: rest => ¬box.Removes taskId op ∧ Keeps taskId (box.apply op) rest

theorem run_append (box : BallotBox) (ops more : List Op) :
    box.run (ops ++ more) = (box.run ops).run more := List.foldl_append

theorem keeps_append {taskId : String} {box : BallotBox} {ops more : List Op} :
    Keeps taskId box (ops ++ more) ↔ Keeps taskId box ops ∧ Keeps taskId (box.run ops) more := by
  induction ops generalizing box with
  | nil => simp [Keeps, run]
  | cons op rest ih => simpa [Keeps, run, and_assoc] using fun _ => ih

def Valid (box : BallotBox) : Prop := ∀ taskId b, box.get? taskId = some b → b.Valid taskId

theorem valid_empty (aggregate : Aggregator) (retention : Retention) :
    (empty aggregate retention).Valid := fun _ _ h => by simp [get?, empty] at h

theorem Valid.held {box : BallotBox} (h : box.Valid) (taskId : String) (now : Instant) :
    (box.held taskId now).Valid taskId := by
  cases hb : box.get? taskId with
  | none => simpa [BallotBox.held, hb] using Ballot.valid_blank taskId now
  | some b => simpa [held_of_some hb] using h taskId b hb

theorem Valid.put {box : BallotBox} (h : box.Valid) {taskId : String} {b : Ballot}
    (hb : b.Valid taskId) : (box.put taskId b).Valid := by
  intro t b' ht
  rw [get?_put] at ht
  by_cases he : taskId = t
  · subst t
    rw [if_pos rfl] at ht
    exact Option.some.inj ht ▸ hb
  · rw [if_neg he] at ht
    exact h t b' ht

theorem Valid.touched {box : BallotBox} (h : box.Valid) (taskId : String) (now : Instant) :
    (box.touched taskId now).Valid taskId := by
  rw [touched_eq]
  exact (h.held taskId now).widen none 1 "" Dict.empty

theorem Valid.apply {box : BallotBox} (h : box.Valid) (op : Op) : (box.apply op).Valid := by
  cases op with
  | expect taskId owner participants task context now =>
    have hm : (box.mentioned taskId owner participants task context now).Valid taskId := by
      rw [mentioned_eq]
      exact (h.held taskId now).widen _ participants task context
    exact h.put hm
  | respond taskId agent response now => exact h.put (h.touched taskId now).vote
  | adopt taskId result now => exact h.put ((h.touched taskId now).finalize result now)
  | get taskId => exact h
  | prune keep now =>
    intro t b ht
    change (box.prune keep now).2.get? t = some b at ht
    rw [get?_prune] at ht
    split at ht
    · cases ht
    · exact h t b ht
  | forget taskId =>
    intro t b ht
    change (box.forget taskId).get? t = some b at ht
    rw [get?_forget] at ht
    split at ht
    · cases ht
    · exact h t b ht

theorem Valid.run {box : BallotBox} (h : box.Valid) (ops : List Op) : (box.run ops).Valid := by
  induction ops generalizing box with
  | nil => exact h
  | cons op rest ih => exact ih (h.apply op)

theorem apply_aggregate (box : BallotBox) (op : Op) : (box.apply op).aggregate = box.aggregate := by
  cases op <;> rfl

theorem run_aggregate (box : BallotBox) (ops : List Op) :
    (box.run ops).aggregate = box.aggregate := by
  induction ops generalizing box with
  | nil => rfl
  | cons op rest ih => exact (ih (box.apply op)).trans (box.apply_aggregate op)

section Apply

variable (box : BallotBox) {taskId t : String}

theorem get?_expect (owner : Option String) (participants : Nat) (task : String)
    (context : Fields) (now : Instant) :
    (box.apply (.expect taskId owner participants task context now)).get? t =
      if taskId = t then
        some ((box.held taskId now).widen (owner.filter (!·.isEmpty)) participants task context)
      else box.get? t := by
  rw [← mentioned_eq]
  exact get?_put box taskId _ t

theorem get?_respond (agent response : String) (now : Instant) :
    (box.apply (.respond taskId agent response now)).get? t =
      if taskId = t then
        some ((box.touched taskId now).vote box.aggregate agent response now).2
      else box.get? t :=
  get?_put box taskId _ t

theorem get?_adopt (result : String) (now : Instant) :
    (box.apply (.adopt taskId result now)).get? t =
      if taskId = t then some ((box.touched taskId now).finalize result now) else box.get? t :=
  get?_put box taskId _ t

theorem get?_apply_of_not_opens {box : BallotBox} {op : Op} (hr : ¬box.Removes taskId op)
    (ho : ¬op.Opens taskId) : (box.apply op).get? taskId = box.get? taskId := by
  cases op with
  | expect t owner participants task context now =>
    exact (get?_expect box owner participants task context now).trans (if_neg ho)
  | respond t agent response now => exact (get?_respond box agent response now).trans (if_neg ho)
  | adopt t result now => exact (get?_adopt box result now).trans (if_neg ho)
  | get t => rfl
  | prune keep now => exact (get?_prune box keep now taskId).trans (if_neg hr)
  | forget t => exact (get?_forget box t taskId).trans (if_neg hr)

end Apply

theorem outcome_apply {box : BallotBox} {taskId : String} {b : Ballot}
    (hb : box.get? taskId = some b) (hf : b.isFinal = true) {op : Op}
    (hop : ¬box.Removes taskId op) :
    ∃ b', (box.apply op).get? taskId = some b' ∧ b'.outcome = b.outcome := by
  by_cases ho : op.Opens taskId
  · cases op with
    | expect t owner participants task context now =>
      obtain rfl : t = taskId := ho
      rw [get?_expect, if_pos rfl, held_of_some hb]
      exact ⟨_, rfl, rfl⟩
    | respond t agent response now =>
      obtain rfl : t = taskId := ho
      rw [get?_respond, if_pos rfl, touched_eq, held_of_some hb]
      refine ⟨_, rfl, ?_⟩
      rw [Ballot.outcome_vote (by simpa [Ballot.isFinal] using hf), Ballot.outcome_widen]
    | adopt t result now =>
      obtain rfl : t = taskId := ho
      rw [get?_adopt, if_pos rfl, touched_eq, held_of_some hb]
      refine ⟨_, rfl, ?_⟩
      rw [Ballot.outcome_finalize (by simpa [Ballot.isFinal] using hf), Ballot.outcome_widen]
    | _ => cases ho
  · exact ⟨b, by rw [get?_apply_of_not_opens hop ho, hb], rfl⟩

theorem isFinal_of_outcome {b b' : Ballot} (h : b'.outcome = b.outcome) :
    b'.isFinal = b.isFinal := by
  have hr : b'.result = b.result := congrArg Ballot.Outcome.result h
  rw [Ballot.isFinal, Ballot.isFinal, hr]

theorem outcome_run {box : BallotBox} {taskId : String} {b : Ballot}
    (hb : box.get? taskId = some b) (hf : b.isFinal = true) {ops : List Op}
    (hk : Keeps taskId box ops) :
    ∃ b', (box.run ops).get? taskId = some b' ∧ b'.outcome = b.outcome := by
  induction ops generalizing box b with
  | nil => exact ⟨b, hb, rfl⟩
  | cons op rest ih =>
    obtain ⟨b₁, hb₁, ho₁⟩ := outcome_apply hb hf hk.1
    obtain ⟨b₂, hb₂, ho₂⟩ := ih hb₁ ((isFinal_of_outcome ho₁).trans hf) hk.2
    exact ⟨b₂, hb₂, ho₂.trans ho₁⟩

/-- In every box that operations reach from the empty one, a ballot has a result, a time and a
signal together; it lacks a vote as long as it has none; and a result, once there, stays with its
time, its votes and its signal until the ballot is removed. -/
theorem finality_permanent (aggregate : Aggregator) (retention : Retention) (ops : List Op)
    {taskId : String} {b : Ballot}
    (hb : ((empty aggregate retention).run ops).get? taskId = some b) :
    ((b.result.isSome ↔ b.finalizedAt.isSome) ∧ (b.finalizedAt.isSome ↔ b.signal.isSome) ∧
      b.signal = b.result) ∧
    (1 ≤ b.expected ∧ b.taskId = taskId ∧
      (b.isFinal = false → b.responses.size < b.expected)) ∧
    (b.isFinal = true → ∀ later : List Op,
      Keeps taskId ((empty aggregate retention).run ops) later →
      ∃ b', (((empty aggregate retention).run ops).run later).get? taskId = some b' ∧
        b'.result = b.result ∧ b'.finalizedAt = b.finalizedAt ∧ b'.responses = b.responses ∧
        b'.signal = b.signal) := by
  have hv := (valid_empty aggregate retention).run ops taskId b hb
  refine ⟨⟨?_, ?_, hv.signal_eq⟩, ⟨hv.expected_pos, hv.taskId_eq, fun hf => ?_⟩, ?_⟩
  · rw [hv.isSome_finalizedAt]
  · rw [hv.isSome_finalizedAt, hv.signal_eq]
  · exact hv.pending_lt (by simpa [Ballot.isFinal] using hf)
  · intro hf later hk
    obtain ⟨b', hb', ho⟩ := outcome_run hb hf hk
    exact ⟨b', hb', congrArg Ballot.Outcome.result ho, congrArg Ballot.Outcome.finalizedAt ho,
      congrArg Ballot.Outcome.responses ho, congrArg Ballot.Outcome.signal ho⟩

/-- Neither a wider expectation nor a further vote nor another result moves a final ballot. -/
theorem finality_permanent_widened :
    let now := Instant.ofNanos 0
    let box := (empty transcript Retention.unbounded).run
      [.expect "t" (some "a") 2 "sum" Dict.empty now, .respond "t" "a" "1" now,
       .respond "t" "b" "2" now]
    let later : List Op :=
      [.expect "t" none 5 "other" Dict.empty now, .respond "t" "c" "3" now, .adopt "t" "x" now,
       .prune none now, .forget "u"]
    ∃ b, box.get? "t" = some b ∧ b.isFinal = true ∧ Keeps "t" box later ∧
      ∃ b', (box.run later).get? "t" = some b' ∧ b'.result = b.result := by
  intro now box later
  have hsome : (box.get? "t").map Ballot.isFinal = some true := by decide
  obtain ⟨b, hb, hf⟩ := Option.map_eq_some_iff.mp hsome
  have hk : Keeps "t" box later := by
    simp [later, Keeps, Removes, evictions, apply, box, run, empty, Retention.isUnbounded,
      Retention.unbounded, expect, respond, adopt, put]
  obtain ⟨b', hb', hr, -⟩ :=
    (finality_permanent transcript Retention.unbounded _ hb).2.2 hf later hk
  exact ⟨b, hb, hf, hk, b', hb', hr⟩

end AgentMesh.BallotBox
