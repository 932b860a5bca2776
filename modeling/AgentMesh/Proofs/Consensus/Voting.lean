import AgentMesh.Consensus.BallotBox
import AgentMesh.Proofs.Tables

/-!
One ballot under mentions, votes and adopted results. A vote on an open ballot either leaves some
missing (`Ballot.vote_of_lt`) or is the last one (`Ballot.vote_of_le`); a closed ballot keeps its
outcome (`Ballot.outcome_vote`).
-/

namespace AgentMesh

theorem Receipt.ready_of_newlyFinal {r : Receipt} (h : r.newlyFinal = true) : r.ready = true := by
  simp only [newlyFinal, Bool.and_eq_true] at h
  exact h.1

namespace Ballot

/-- What of a ballot does not change once it is final. -/
structure Outcome where
  result : Option String
  finalizedAt : Option Instant
  responses : Dict String
  signal : Option String

def outcome (b : Ballot) : Outcome :=
  { result := b.result, finalizedAt := b.finalizedAt, responses := b.responses, signal := b.signal }

/-- What holds of a ballot under the task it is kept for. -/
structure Valid (taskId : String) (b : Ballot) : Prop where
  taskId_eq : b.taskId = taskId
  expected_pos : 1 ≤ b.expected
  isSome_finalizedAt : b.finalizedAt.isSome = b.result.isSome
  signal_eq : b.signal = b.result
  pending_lt : b.result = none → b.responses.size < b.expected

def blank (taskId : String) (now : Instant) : Ballot := opened taskId none 1 "" Dict.empty now

section Mention

variable (b : Ballot) (owner : Option String) (participants : Nat) (task : String)
  (context : Fields)

@[simp] theorem widen_result : (b.widen owner participants task context).result = b.result := rfl

@[simp] theorem widen_responses :
    (b.widen owner participants task context).responses = b.responses := rfl

@[simp] theorem widen_expected :
    (b.widen owner participants task context).expected = max b.expected participants := rfl

@[simp] theorem outcome_widen :
    (b.widen owner participants task context).outcome = b.outcome := rfl

theorem widen_nothing (h : 1 ≤ b.expected) : b.widen none 1 "" Dict.empty = b := by
  obtain ⟨taskId, own, expected, text, fields, createdAt, responses, result, finalizedAt, signal⟩ := b
  have he : max expected 1 = expected := Nat.max_eq_left h
  cases own <;> by_cases ht : text = "" <;> simp [widen, he, ht]

theorem widen_opened (taskId : String) (now : Instant) :
    (opened taskId owner participants task context now).widen owner participants task context =
      (blank taskId now).widen owner participants task context := by
  by_cases ht : task = "" <;> cases owner <;> simp [blank, opened, widen, ht]

end Mention

theorem valid_blank (taskId : String) (now : Instant) : (blank taskId now).Valid taskId :=
  ⟨rfl, Nat.le_max_left 1 1, rfl, rfl, fun _ => by simp [blank, opened, Dict.size, Dict.empty]⟩

theorem Valid.widen {taskId : String} {b : Ballot} (h : b.Valid taskId) (owner : Option String)
    (participants : Nat) (task : String) (context : Fields) :
    (b.widen owner participants task context).Valid taskId := by
  have hp := h.expected_pos
  refine ⟨h.taskId_eq, ?_, h.isSome_finalizedAt, h.signal_eq, fun hr => ?_⟩
  · simp only [widen_expected]
    omega
  · have hlt := h.pending_lt hr
    simp only [widen_expected, widen_responses]
    omega

variable {aggregate : Aggregator} {b : Ballot} {agent response : String} {now : Instant}

theorem vote_of_result {result : String} (h : b.result = some result) :
    b.vote aggregate agent response now =
      ({ ready := true, result := some result, responses := b.responses, missing := 0,
         alreadyFinal := true }, b) := by
  simp [vote, h]

theorem vote_of_lt (h : b.result = none)
    (hlt : (b.responses.insert agent response).size < b.expected) :
    b.vote aggregate agent response now =
      ({ ready := false, result := none, responses := b.responses.insert agent response,
         missing := b.expected - (b.responses.insert agent response).size,
         alreadyFinal := false }, b.record agent response) := by
  have hm : b.expected - (b.responses.insert agent response).size ≠ 0 := by omega
  simp [vote, h, missing, record, hm]

theorem finalize_of_none (h : b.result = none) (result : String) (now : Instant) :
    b.finalize result now =
      { b with result := some result, finalizedAt := some now, signal := some result } := by
  simp [finalize, isFinal, h]

theorem vote_of_le (h : b.result = none)
    (hle : b.expected ≤ (b.responses.insert agent response).size) :
    b.vote aggregate agent response now =
      ({ ready := true, result := some (aggregate (b.record agent response)),
         responses := b.responses.insert agent response, missing := 0, alreadyFinal := false },
       { b.record agent response with
         result := some (aggregate (b.record agent response)), finalizedAt := some now
         signal := some (aggregate (b.record agent response)) }) := by
  have hm : b.expected - (b.responses.insert agent response).size = 0 := by omega
  have hf := finalize_of_none (b := b.record agent response) h
    (aggregate (b.record agent response)) now
  simp only [vote, h, missing, record, hm, if_true] at hf ⊢
  rw [hf]

theorem vote_newlyFinal (hf : (b.vote aggregate agent response now).1.newlyFinal = true) :
    ∃ result, (b.vote aggregate agent response now).2.result = some result ∧
      (b.vote aggregate agent response now).1.result = some result ∧
      (b.vote aggregate agent response now).2.responses =
        (b.vote aggregate agent response now).1.responses := by
  cases hr : b.result with
  | some x => simp [vote_of_result hr, Receipt.newlyFinal] at hf
  | none =>
    by_cases hlt : (b.responses.insert agent response).size < b.expected
    · simp [vote_of_lt hr hlt, Receipt.newlyFinal] at hf
    · rw [vote_of_le hr (Nat.not_lt.mp hlt)]
      exact ⟨_, rfl, rfl, rfl⟩

theorem Valid.finalize {taskId : String} (h : b.Valid taskId) (result : String) (now : Instant) :
    (b.finalize result now).Valid taskId := by
  cases hr : b.result with
  | some x => rwa [finalize_of_isFinal (by simp [isFinal, hr])]
  | none =>
    rw [finalize_of_none hr]
    exact ⟨h.taskId_eq, h.expected_pos, rfl, rfl, fun hn => by simp at hn⟩

theorem Valid.vote {taskId : String} (h : b.Valid taskId) :
    (b.vote aggregate agent response now).2.Valid taskId := by
  cases hr : b.result with
  | some x => rwa [vote_of_result hr]
  | none =>
    by_cases hlt : (b.responses.insert agent response).size < b.expected
    · rw [vote_of_lt hr hlt]
      exact ⟨h.taskId_eq, h.expected_pos, h.isSome_finalizedAt, h.signal_eq, fun _ => hlt⟩
    · -- the last vote finalizes, so nothing has to be said about what is pending
      rw [vote_of_le hr (Nat.not_lt.mp hlt)]
      exact ⟨h.taskId_eq, h.expected_pos, rfl, rfl, fun hn => by simp at hn⟩

theorem outcome_vote (h : b.isFinal = true) :
    (b.vote aggregate agent response now).2.outcome = b.outcome := by
  obtain ⟨result, hr⟩ := Option.isSome_iff_exists.mp h
  rw [vote_of_result hr]

theorem outcome_finalize (h : b.isFinal = true) (result : String) :
    (b.finalize result now).outcome = b.outcome := by
  rw [finalize_of_isFinal h]

end Ballot

namespace BallotBox

variable (box : BallotBox) (taskId : String)

/-- The ballot on a task, blank if there is none. -/
def held (now : Instant) : Ballot := (box.get? taskId).getD (Ballot.blank taskId now)

theorem held_of_some {box : BallotBox} {taskId : String} {b : Ballot}
    (h : box.get? taskId = some b) (now : Instant) : box.held taskId now = b := by
  simp [held, h]

theorem mentioned_eq (owner : Option String) (participants : Nat) (task : String)
    (context : Fields) (now : Instant) :
    box.mentioned taskId owner participants task context now =
      (box.held taskId now).widen (owner.filter (!·.isEmpty)) participants task context := by
  unfold mentioned held
  cases box.get? taskId with
  | none => exact Ballot.widen_opened _ _ _ _ taskId now
  | some b => rfl

theorem touched_eq (now : Instant) :
    box.touched taskId now = (box.held taskId now).widen none 1 "" Dict.empty :=
  mentioned_eq box taskId none 1 "" Dict.empty now

theorem get?_put (b : Ballot) (t : String) :
    (box.put taskId b).get? t = if taskId = t then some b else box.get? t :=
  Dict.get?_insert box.ballots taskId b t

@[simp] theorem get?_put_self (b : Ballot) : (box.put taskId b).get? taskId = some b := by
  simp [get?_put]

theorem get?_prune (keep : Option String) (now : Instant) (t : String) :
    (box.prune keep now).2.get? t = if t ∈ box.evictions keep now then none else box.get? t :=
  Dict.get?_eraseAll box.ballots _ t

theorem get?_forget (t : String) :
    (box.forget taskId).get? t = if taskId = t then none else box.get? t :=
  Dict.get?_erase box.ballots taskId t

theorem put_put (b b' : Ballot) : (box.put taskId b).put taskId b' = box.put taskId b' := by
  simp [put, Dict.insert_insert]

theorem touched_put {b : Ballot} (h : 1 ≤ b.expected) (now : Instant) :
    (box.put taskId b).touched taskId now = b := by
  rw [touched_eq, held_of_some (get?_put_self box taskId b), Ballot.widen_nothing b h]

end BallotBox

end AgentMesh
