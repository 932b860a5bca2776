import AgentMesh.Proofs.Consensus.Finality

/-!
Which vote fixes a result, told from the operations that came before it: the one that brings the
number of distinct voters up to the greatest number of participants named so far.
-/

namespace AgentMesh.BallotBox

def Op.participants? (taskId : String) : Op → Option Nat
  | .expect t _ participants _ _ _ => if t = taskId then some participants else none
  | _ => none

/-- The vote that an operation casts on a task. -/
def Op.vote? (taskId : String) : Op → Option (String × String)
  | .respond t agent response _ => if t = taskId then some (agent, response) else none
  | _ => none

def Op.Adopts (taskId : String) : Op → Prop
  | .adopt t _ _ => t = taskId
  | _ => False

/-- The greatest number of participants named for a task, one at least. -/
def threshold (taskId : String) (ops : List Op) : Nat :=
  (ops.filterMap (Op.participants? taskId)).foldl max 1

def votes (taskId : String) (ops : List Op) : List (String × String) :=
  ops.filterMap (Op.vote? taskId)

/-- The last answer of each agent that voted on a task. -/
def answers (taskId : String) (ops : List Op) : Dict String := Dict.ofList (votes taskId ops)

def receipt? (taskId : String) (box : BallotBox) : Op → Option Receipt
  | .respond t agent response now =>
    if t = taskId then some (box.respond t agent response now).1 else none
  | _ => none

def receipts (taskId : String) : BallotBox → List Op → List Receipt
  | _, [] => []
  | box, op :: rest => (box.receipt? taskId op).toList ++ receipts taskId (box.apply op) rest

/-- No operation of a run adopts a result for a task or removes its ballot. -/
structure Undisturbed (taskId : String) (box : BallotBox) (ops : List Op) : Prop where
  adopts : ∀ op ∈ ops, ¬op.Adopts taskId
  keeps : Keeps taskId box ops

theorem participants?_of_not_opens {taskId : String} {op : Op} (ho : ¬op.Opens taskId) :
    op.participants? taskId = none := by
  cases op with
  | expect t owner participants task context now => exact if_neg ho
  | _ => rfl

theorem vote?_of_not_opens {taskId : String} {op : Op} (ho : ¬op.Opens taskId) :
    op.vote? taskId = none := by
  cases op with
  | respond t agent response now => exact if_neg ho
  | _ => rfl

section History

variable (taskId : String) (ops : List Op) (op : Op)

theorem one_le_threshold : 1 ≤ threshold taskId ops := by
  have hle : ∀ (l : List Nat) (n : Nat), n ≤ l.foldl max n := by
    intro l
    induction l with
    | nil => exact fun n => le_refl n
    | cons x r ih => exact fun n => le_trans (Nat.le_max_left n x) (ih (max n x))
  exact hle _ 1

theorem threshold_concat :
    threshold taskId (ops ++ [op]) =
      max (threshold taskId ops) ((op.participants? taskId).getD 1) := by
  have h1 := one_le_threshold taskId ops
  rw [threshold] at h1
  cases hp : op.participants? taskId with
  | none => simpa [threshold, hp] using h1
  | some p => simp [threshold, hp]

theorem answers_concat :
    answers taskId (ops ++ [op]) =
      (op.vote? taskId).elim (answers taskId ops) fun v => (answers taskId ops).insert v.1 v.2 := by
  cases hv : op.vote? taskId <;> simp [answers, votes, hv, Dict.ofList, Dict.insertAll]

theorem size_answers :
    (answers taskId ops).size = ((votes taskId ops).map (·.1)).dedup.length :=
  Dict.size_ofList _

variable (box : BallotBox)

theorem run_concat : box.run (ops ++ [op]) = (box.run ops).apply op := box.run_append ops [op]

theorem respond_fst (agent response : String) (now : Instant) :
    (box.respond taskId agent response now).1 =
      ((box.touched taskId now).vote box.aggregate agent response now).1 := rfl

theorem receipts_concat :
    receipts taskId box (ops ++ [op]) =
      receipts taskId box ops ++ ((box.run ops).receipt? taskId op).toList := by
  induction ops generalizing box with
  | nil => simp [receipts, run]
  | cons x rest ih => simp [receipts, ih, run]

end History

section Concat

variable {taskId : String} {box : BallotBox} {ops : List Op} {op : Op}

theorem Undisturbed.init (h : Undisturbed taskId box (ops ++ [op])) : Undisturbed taskId box ops :=
  ⟨fun x hx => h.adopts x (List.mem_append_left _ hx), (keeps_append.mp h.keeps).1⟩

theorem Undisturbed.last (h : Undisturbed taskId box (ops ++ [op])) :
    ¬op.Adopts taskId ∧ ¬(box.run ops).Removes taskId op :=
  ⟨h.adopts op (by simp), (keeps_append.mp h.keeps).2.1⟩

end Concat

/-- How a ballot without result stands after some operations. -/
structure Stands (taskId : String) (ops : List Op) (b : Ballot) : Prop where
  result_eq : b.result = none
  expected_eq : b.expected = threshold taskId ops
  responses_eq : b.responses = answers taskId ops
  pending_lt : (answers taskId ops).size < threshold taskId ops

theorem stands_blank (taskId : String) (now : Instant) :
    Stands taskId [] (Ballot.blank taskId now) :=
  ⟨rfl, rfl, rfl, by simp [answers, votes, threshold, Dict.ofList, Dict.insertAll, Dict.size,
    Dict.empty]⟩

section Step

variable {taskId : String} {ops : List Op} {b : Ballot}

theorem Stands.expected_pos (h : Stands taskId ops b) : 1 ≤ b.expected := by
  have := h.pending_lt
  rw [h.expected_eq]
  omega

theorem Stands.touched {box : BallotBox} {now : Instant}
    (h : Stands taskId ops (box.held taskId now)) :
    box.touched taskId now = box.held taskId now := by
  rw [touched_eq, Ballot.widen_nothing _ h.expected_pos]

theorem Stands.concat_of_none {op : Op} (h : Stands taskId ops b)
    (hp : op.participants? taskId = none) (hv : op.vote? taskId = none) :
    Stands taskId (ops ++ [op]) b := by
  have ht : threshold taskId (ops ++ [op]) = threshold taskId ops := by
    have := h.pending_lt
    rw [threshold_concat, hp]
    simp only [Option.getD_none]
    omega
  have ha : answers taskId (ops ++ [op]) = answers taskId ops := by rw [answers_concat, hv]; rfl
  exact ⟨h.result_eq, ht ▸ h.expected_eq, ha ▸ h.responses_eq, by rw [ht, ha]; exact h.pending_lt⟩

theorem Stands.expect (h : Stands taskId ops b) (owner : Option String) (participants : Nat)
    (task : String) (context : Fields) (now : Instant) :
    Stands taskId (ops ++ [.expect taskId owner participants task context now])
      (b.widen (owner.filter (!·.isEmpty)) participants task context) := by
  have hlt := h.pending_lt
  have ht : threshold taskId (ops ++ [.expect taskId owner participants task context now]) =
      max (threshold taskId ops) participants := by simp [threshold_concat, Op.participants?]
  have ha : answers taskId (ops ++ [.expect taskId owner participants task context now]) =
      answers taskId ops := by simp [answers_concat, Op.vote?]
  refine ⟨h.result_eq, ?_, ha ▸ h.responses_eq, ?_⟩
  · rw [ht, ← h.expected_eq]
    rfl
  · rw [ht, ha]
    omega

theorem answers_respond (agent response : String) (now : Instant) :
    answers taskId (ops ++ [.respond taskId agent response now]) =
      (answers taskId ops).insert agent response := by
  simp [answers_concat, Op.vote?]

theorem Stands.vote (h : Stands taskId ops b) (aggregate : Aggregator) (agent response : String)
    (now : Instant) :
    let given := answers taskId (ops ++ [.respond taskId agent response now])
    (given.size = threshold taskId ops →
      (b.vote aggregate agent response now).1 =
        { ready := true, result := some (aggregate { b with responses := given }),
          responses := given, missing := 0, alreadyFinal := false }) ∧
    (given.size ≠ threshold taskId ops →
      given.size < threshold taskId ops ∧
      b.vote aggregate agent response now =
        ({ ready := false, result := none, responses := given,
           missing := threshold taskId ops - given.size, alreadyFinal := false },
         { b with responses := given })) := by
  intro given
  have hg : b.responses.insert agent response = given := by
    rw [h.responses_eq]
    exact (answers_respond agent response now).symm
  have hlt := h.pending_lt
  have hle : given.size ≤ (answers taskId ops).size + 1 := by
    rw [show given = _ from answers_respond agent response now]
    exact Dict.size_insert_le _ agent response
  constructor
  · intro he
    rw [Ballot.vote_of_le h.result_eq (by rw [hg, h.expected_eq, he])]
    simp only [Ballot.record, hg]
  · intro hne
    have hs : given.size < threshold taskId ops := by omega
    refine ⟨hs, ?_⟩
    rw [Ballot.vote_of_lt h.result_eq (by rwa [hg, h.expected_eq])]
    simp only [Ballot.record, hg, h.expected_eq]

theorem Stands.respond (h : Stands taskId ops b) {agent response : String} {now : Instant}
    (hlt : (answers taskId (ops ++ [.respond taskId agent response now])).size <
      threshold taskId ops) :
    Stands taskId (ops ++ [.respond taskId agent response now])
      { b with responses := answers taskId (ops ++ [.respond taskId agent response now]) } := by
  have hpos := h.expected_pos
  have ht : threshold taskId (ops ++ [.respond taskId agent response now]) =
      threshold taskId ops := by
    rw [h.expected_eq] at hpos
    simpa [threshold_concat, Op.participants?] using hpos
  exact ⟨h.result_eq, ht ▸ h.expected_eq, rfl, by rw [ht]; exact hlt⟩

theorem stands_apply {box : BallotBox} (hs : ∀ now, Stands taskId ops (box.held taskId now))
    {op : Op} (ha : ¬op.Adopts taskId) (hr : ¬box.Removes taskId op)
    (hopen : ∀ r, box.receipt? taskId op = some r → r.newlyFinal = false) (now : Instant) :
    Stands taskId (ops ++ [op]) ((box.apply op).held taskId now) := by
  by_cases ho : op.Opens taskId
  · cases op with
    | expect t owner participants task context at_ =>
      obtain rfl : t = taskId := ho
      rw [held, get?_expect, if_pos rfl]
      exact (hs at_).expect owner participants task context at_
    | respond t agent response at_ =>
      obtain rfl : t = taskId := ho
      have hb := hs at_
      have hv := hb.vote box.aggregate agent response at_
      have hne : (answers t (ops ++ [.respond t agent response at_])).size ≠ threshold t ops := by
        intro he
        have hlast := hopen (box.respond t agent response at_).1 (by simp [receipt?])
        rw [respond_fst, hb.touched, hv.1 he] at hlast
        simp [Receipt.newlyFinal] at hlast
      obtain ⟨hlt, he⟩ := hv.2 hne
      rw [held, get?_respond, if_pos rfl, hb.touched, he]
      exact hb.respond hlt
    | adopt t result at_ => exact absurd ho ha
    | _ => cases ho
  · rw [held, get?_apply_of_not_opens hr ho]
    exact (hs now).concat_of_none (participants?_of_not_opens ho) (vote?_of_not_opens ho)

end Step

/-- As long as no vote has fixed the result, the ballot stands as the operations on it tell. -/
theorem stands_run {taskId : String} {box : BallotBox} (hnew : box.get? taskId = none)
    {ops : List Op} (hops : Undisturbed taskId box ops)
    (hopen : ∀ r ∈ receipts taskId box ops, r.newlyFinal = false) (now : Instant) :
    Stands taskId ops ((box.run ops).held taskId now) := by
  induction ops using List.reverseRecOn generalizing now with
  | nil => simpa [run, held, hnew] using stands_blank taskId now
  | append_singleton ops op ih =>
    have hopen' : ∀ r ∈ receipts taskId box ops, r.newlyFinal = false := fun r hr =>
      hopen r (by rw [receipts_concat]; exact List.mem_append_left _ hr)
    have hlast : ∀ r, (box.run ops).receipt? taskId op = some r → r.newlyFinal = false :=
      fun r hr => hopen r (by rw [receipts_concat]; exact List.mem_append_right _ (by simp [hr]))
    obtain ⟨ha, hr⟩ := hops.last
    rw [run_concat]
    exact stands_apply (ih hops.init hopen') ha hr hlast now

theorem le_threshold {taskId : String} {ops : List Op} {op : Op} {n : Nat} (hop : op ∈ ops)
    (hn : op.participants? taskId = some n) : n ≤ threshold taskId ops := by
  induction ops using List.reverseRecOn with
  | nil => cases hop
  | append_singleton ops last ih =>
    rw [threshold_concat]
    rcases List.mem_append.mp hop with hop | hop
    · exact (ih hop).trans (Nat.le_max_left _ _)
    · rw [← List.mem_singleton.mp hop, hn]
      exact Nat.le_max_right _ _

/-- No vote fixes a result as long as fewer agents have voted than the first operation names. -/
theorem receipts_open {taskId : String} {box : BallotBox} (hnew : box.get? taskId = none)
    {op : Op} {n : Nat} (hn : op.participants? taskId = some n) {rest : List Op}
    (hops : Undisturbed taskId box (op :: rest)) (hfew : (answers taskId (op :: rest)).size < n) :
    ∀ r ∈ receipts taskId box (op :: rest), r.newlyFinal = false := by
  induction rest using List.reverseRecOn with
  | nil => cases op <;> simp [Op.participants?, receipts, receipt?] at hn ⊢
  | append_singleton rest last ih =>
    rw [← List.cons_append] at hops hfew ⊢
    have hsize : (answers taskId (op :: rest)).size ≤ (answers taskId (op :: rest ++ [last])).size := by
      rw [answers_concat]
      cases last.vote? taskId with
      | none => exact le_rfl
      | some v =>
        rw [Option.elim_some, Dict.size_insert]
        split <;> omega
    have hpast := ih hops.init (by omega)
    have hle : n ≤ threshold taskId (op :: rest) := le_threshold List.mem_cons_self hn
    intro r hr
    rw [receipts_concat] at hr
    rcases List.mem_append.mp hr with hr | hr
    · exact hpast r hr
    · cases last with
      | respond t agent response now =>
        by_cases ht : t = taskId
        · subst t
          have hs := stands_run hnew hops.init hpast now
          have hmore := (hs.vote (box.run (op :: rest)).aggregate agent response now).2 (by omega)
          have hrr : r = ((box.run (op :: rest)).respond taskId agent response now).1 := by
            simpa [receipt?] using hr
          rw [hrr, respond_fst, hs.touched, hmore.2]
          rfl
        · simp [receipt?, ht] at hr
      | _ => simp [receipt?] at hr

/-- The vote that fixed the result leaves it, and the votes it was made from, in the box. -/
theorem final_of_newlyFinal {taskId : String} {box : BallotBox} {ops : List Op}
    (hk : Keeps taskId box ops) {r : Receipt} (hr : r ∈ receipts taskId box ops)
    (hf : r.newlyFinal = true) :
    ∃ b result, (box.run ops).get? taskId = some b ∧ b.result = some result ∧
      r.result = some result ∧ b.responses = r.responses := by
  induction ops using List.reverseRecOn with
  | nil => simp [receipts] at hr
  | append_singleton ops op ih =>
    have hrun := box.run_concat ops op
    obtain ⟨hk, hlast, -⟩ := keeps_append.mp hk
    rw [receipts_concat] at hr
    rcases List.mem_append.mp hr with hr | hr
    · obtain ⟨b, result, hb, hbr, hrr, hresp⟩ := ih hk hr
      obtain ⟨b', hb', ho⟩ := outcome_apply hb (by simp [Ballot.isFinal, hbr]) hlast
      have hres : b'.result = b.result := congrArg Ballot.Outcome.result ho
      have hans : b'.responses = b.responses := congrArg Ballot.Outcome.responses ho
      exact ⟨b', result, hrun ▸ hb', hres.trans hbr, hrr, hans.trans hresp⟩
    · obtain ⟨t, agent, response, now, rfl⟩ :
          ∃ t agent response now, op = .respond t agent response now := by
        cases op <;> simp [receipt?] at hr ⊢
      by_cases ht : t = taskId
      · subst t
        have hr : r = (((box.run ops).touched taskId now).vote (box.run ops).aggregate agent
            response now).1 := by simpa [receipt?, respond_fst] using hr
        obtain ⟨result, hresult, hreceipt, hresponses⟩ := Ballot.vote_newlyFinal (hr ▸ hf)
        refine ⟨_, result, ?_, hresult, hr ▸ hreceipt, hr ▸ hresponses⟩
        rw [hrun, get?_respond, if_pos rfl]
      · simp [receipt?, ht] at hr

/-- Along operations on a task that was new to the box, none of which adopts a result for it or
removes it, a vote fixes the result if and only if it makes the number of distinct voters the
greatest number of participants named before; the result is then made from the last answer of each.
Before that a vote tells how many are missing, after that it tells the fixed result. -/
theorem newlyFinal_at_threshold {box : BallotBox} {taskId : String}
    (hnew : box.get? taskId = none) {past : List Op} (hpast : Undisturbed taskId box past)
    (agent response : String) (now : Instant) :
    let receipt := ((box.run past).respond taskId agent response now).1
    let given := answers taskId (past ++ [.respond taskId agent response now])
    let voters := ((votes taskId past).map (·.1) ++ [agent]).dedup.length
    ((∀ r ∈ receipts taskId box past, r.newlyFinal = false) →
      (receipt.newlyFinal = true ↔ voters = threshold taskId past) ∧
      (voters = threshold taskId past →
        receipt =
          { ready := true
            result := some (box.aggregate
              { (box.run past).touched taskId now with responses := given })
            responses := given, missing := 0, alreadyFinal := false }) ∧
      (voters ≠ threshold taskId past →
        0 < threshold taskId past - voters ∧
        receipt =
          { ready := false, result := none, responses := given
            missing := threshold taskId past - voters, alreadyFinal := false })) ∧
    ∀ r ∈ receipts taskId box past, r.newlyFinal = true →
      receipt =
        { ready := true, result := r.result, responses := r.responses, missing := 0
          alreadyFinal := true } := by
  intro receipt given voters
  have hvoters : given.size = voters := by simp [given, voters, size_answers, votes, Op.vote?]
  constructor
  · intro hopen
    have hs := stands_run hnew hpast hopen now
    have hv := hs.vote box.aggregate agent response now
    have hr : receipt =
        (((box.run past).held taskId now).vote box.aggregate agent response now).1 := by
      rw [← hs.touched, ← run_aggregate box past]
      exact respond_fst taskId (box.run past) agent response now
    have hlast : voters = threshold taskId past → _ := fun he => hr.trans (hv.1 (hvoters.trans he))
    have hmore : voters ≠ threshold taskId past → _ := fun he => hv.2 fun h => he (hvoters ▸ h)
    refine ⟨⟨fun hf => ?_, fun he => ?_⟩, fun he => ?_, fun he => ?_⟩
    · by_contra he
      rw [hr, (hmore he).2] at hf
      simp [Receipt.newlyFinal] at hf
    · rw [hlast he]
      rfl
    · rw [hs.touched]
      exact hlast he
    · obtain ⟨hlt, hpair⟩ := hmore he
      exact ⟨Nat.sub_pos_of_lt (hvoters ▸ hlt), by rw [hr, hpair, hvoters]⟩
  · intro r hmem hf
    obtain ⟨b, result, hb, hbr, hrr, hresp⟩ := final_of_newlyFinal hpast.keeps hmem hf
    have ht : ((box.run past).touched taskId now).result = some result := by
      rw [touched_eq, held_of_some hb, Ballot.widen_result, hbr]
    have hresp' : ((box.run past).touched taskId now).responses = r.responses := by
      rw [touched_eq, held_of_some hb, Ballot.widen_responses, hresp]
    rw [show receipt = _ from respond_fst taskId (box.run past) agent response now,
      Ballot.vote_of_result ht, hrr, hresp']

/-- The expectation is raised between two votes and one agent votes twice, so it takes a third agent
to fix the result. -/
theorem newlyFinal_at_threshold_raised :
    let now := Instant.ofNanos 0
    let past : List Op :=
      [.expect "t" (some "a") 2 "sum" Dict.empty now, .respond "t" "a" "1" now,
       .expect "t" none 3 "" Dict.empty now, .respond "t" "a" "2" now, .respond "t" "b" "3" now]
    let box := empty transcript Retention.unbounded
    box.get? "t" = none ∧ Undisturbed "t" box past ∧
      ((box.run past).respond "t" "c" "4" now).1.newlyFinal = true := by
  intro now past box
  have hpast : Undisturbed "t" box past :=
    ⟨by simp [past, Op.Adopts], by simp [past, Keeps, Removes]⟩
  have hopen : ∀ r ∈ receipts "t" box past, r.newlyFinal = false := by decide
  refine ⟨rfl, hpast, ?_⟩
  exact (((newlyFinal_at_threshold rfl hpast "c" "4" now).1 hopen).1).mpr (by decide)

end AgentMesh.BallotBox
