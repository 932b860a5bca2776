import AgentMesh.Proofs.Consensus.Expectation

/-!
Votes in any order. Once it is settled what is told of a task, and so how many agents have to answer,
the result is a function of the answers alone (`BallotBox.result_of_votes`): neither the order in
which they come nor how often each comes leaves a trace in it.
-/

namespace AgentMesh

namespace Transcript

def lines (agents : List String) (responses : Dict String) : List String :=
  agents.map fun agent => agent ++ ": " ++ (responses.get? agent).getD ""

theorem body_eq {responses : Dict String} (h : 0 < responses.size) :
    body responses = Text.joinWith "\n" (lines responses.keys responses) := by
  have hne : responses.isEmpty = false := by
    rw [Dict.isEmpty, List.isEmpty_eq_false_iff]
    exact List.ne_nil_of_length_pos h
  have hlines : lines responses.keys responses =
      responses.entries.map fun e => e.1 ++ ": " ++ e.2 := by
    rw [lines, Dict.keys, List.map_map]
    refine List.map_congr_left fun e he => ?_
    have hv : responses.get? e.1 = some e.2 := Dict.get?_eq_some_iff.mpr he
    simp [hv]
  simp [body, hne, hlines]

theorem header_of_title {task title : String} {context : Fields}
    (ht : context.text? "title" = some title) (hne : title ≠ "") : header task context = title := by
  simp [header, ht, hne]

theorem header_of_task {task : String} {context : Fields}
    (ht : ∀ title, context.text? "title" = some title → title = "") :
    header task context = if task = "" then defaultHeader else task := by
  unfold header
  cases hc : context.text? "title" with
  | none => by_cases hs : task = "" <;> simp [hs]
  | some title => by_cases hs : task = "" <;> simp [hs, ht title hc]

end Transcript

namespace BallotBox

variable {taskId : String} {box : BallotBox} {ops : List Op}

section Silent

variable {more : List Op}

theorem threshold_append_of_told (h : mentions taskId more = []) :
    threshold taskId (ops ++ more) = threshold taskId ops := by
  rw [mentions] at h
  rw [threshold_eq, threshold_eq, mentions, List.filterMap_append, h, List.append_nil, mentions]

theorem receipts_of_votes (h : votes taskId ops = []) : receipts taskId box ops = [] := by
  induction ops generalizing box with
  | nil => rfl
  | cons op rest ih =>
    obtain ⟨hop, hrest⟩ : votes taskId [op] = [] ∧ votes taskId rest = [] := by
      rwa [← List.singleton_append, votes, List.filterMap_append, List.append_eq_nil_iff] at h
    have hr : box.receipt? taskId op = none := by
      cases op with
      | respond t agent response now =>
        by_cases ht : t = taskId
        · simp [votes, Op.vote?, ht] at hop
        · simp [receipt?, ht]
      | _ => rfl
    simp [receipts, hr, ih hrest]

end Silent

/-- A task that is new to a box is announced as `told` says, and then only gets answers out of
`given`, which has one for each agent that is to answer. What happens to other tasks does not
matter. -/
structure Polling (taskId : String) (told : List Mention) (given : Dict String) (box : BallotBox)
    (before after : List Op) : Prop where
  aggregate_eq : box.aggregate = transcript
  new : box.get? taskId = none
  undisturbed : Undisturbed taskId box (before ++ after)
  told_eq : mentions taskId before = told
  unanswered : votes taskId before = []
  expected_eq : ∃ b, (box.run before).get? taskId = some b ∧ b.expected = given.size
  settled : mentions taskId after = []
  verbatim : ∀ v ∈ votes taskId after, given.get? v.1 = some v.2

/-- In the end each of the answers has come, once or more often. -/
structure Polled (taskId : String) (told : List Mention) (given : Dict String) (box : BallotBox)
    (before after : List Op) : Prop extends Polling taskId told given box before after where
  complete : ∀ agent, (given.get? agent).isSome → agent ∈ (votes taskId after).map (·.1)

section Polling

variable {told : List Mention} {given : Dict String} {before after : List Op} {op : Op}

theorem Polling.init (h : Polling taskId told given box before (after ++ [op])) :
    Polling taskId told given box before after := by
  have hu := h.undisturbed
  rw [← List.append_assoc] at hu
  have hs := h.settled
  rw [mentions, List.filterMap_append, List.append_eq_nil_iff] at hs
  refine { h with undisturbed := hu.init, settled := hs.1, verbatim := fun v hv => ?_ }
  refine h.verbatim v ?_
  rw [votes, List.filterMap_append]
  exact List.mem_append_left _ hv

theorem Polling.threshold_eq (h : Polling taskId told given box before after) :
    threshold taskId (before ++ after) = given.size := by
  obtain ⟨b, hb, he⟩ := h.expected_eq
  have hopen : ∀ r ∈ receipts taskId box before, r.newlyFinal = false := by
    simp [receipts_of_votes h.unanswered]
  have hbefore : Undisturbed taskId box before :=
    ⟨fun op hop => h.undisturbed.adopts op (List.mem_append_left after hop),
      (keeps_append.mp h.undisturbed.keeps).1⟩
  have hs := stands_run h.new hbefore hopen default
  rw [held_of_some hb] at hs
  rw [threshold_append_of_told h.settled, ← hs.expected_eq, he]

theorem Polling.votes_eq (h : Polling taskId told given box before after) :
    votes taskId (before ++ after) = votes taskId after := by
  have hb := h.unanswered
  rw [votes] at hb ⊢
  rw [List.filterMap_append, hb, List.nil_append, votes]

theorem Polling.answers_imp (h : Polling taskId told given box before after) {agent response : String}
    (ha : (answers taskId (before ++ after)).get? agent = some response) :
    given.get? agent = some response := by
  rw [answers, h.votes_eq] at ha
  exact h.verbatim _ (Dict.mem_of_get?_ofList ha)

theorem Polling.answers_eq (h : Polling taskId told given box before after)
    (hs : threshold taskId (before ++ after) ≤ (answers taskId (before ++ after)).size) :
    answers taskId (before ++ after) = given :=
  Dict.eq_of_get?_imp (fun _ _ ha => h.answers_imp ha) (h.threshold_eq ▸ hs)

/-- The answer that fixes the result makes it from all of them. -/
theorem Polling.last {agent response : String} {now : Instant}
    (h : Polling taskId told given box before (after ++ [.respond taskId agent response now]))
    (hopen : ∀ r ∈ receipts taskId box (before ++ after), r.newlyFinal = false)
    (hf : ((box.run (before ++ after)).respond taskId agent response now).1.newlyFinal = true) :
    ∃ b, (box.run (before ++ (after ++ [.respond taskId agent response now]))).get? taskId = some b ∧
      b.responses = given ∧
      b.result = some (Transcript.render (toldTask told) (toldContext told) given) := by
  have hi := h.init
  have hs := stands_run hi.new hi.undisturbed hopen now
  have ht := told_run hi.new hi.undisturbed.keeps now
  have hm : mentions taskId (before ++ after) = told := by
    rw [mentions, List.filterMap_append, ← mentions, ← mentions, hi.settled, List.append_nil,
      hi.told_eq]
  have hagg : (box.run (before ++ after)).aggregate = transcript := by
    rw [run_aggregate, hi.aggregate_eq]
  rw [respond_fst, hs.touched, hagg] at hf
  obtain ⟨hlast, hmore⟩ := hs.vote transcript agent response now
  -- it fixes the result, so with it there are as many answers as are expected
  have hsize : (answers taskId ((before ++ after) ++ [.respond taskId agent response now])).size =
      threshold taskId (before ++ after) := by
    by_contra hne
    rw [(hmore hne).2] at hf
    simp [Receipt.newlyFinal] at hf
  have hgiven : answers taskId ((before ++ after) ++ [.respond taskId agent response now]) =
      given := by
    rw [List.append_assoc] at hsize ⊢
    refine h.answers_eq ?_
    rw [hsize, h.threshold_eq, hi.threshold_eq]
  obtain ⟨result, hresult, hreceipt, hresponses⟩ := Ballot.vote_newlyFinal hf
  rw [hlast hsize, hgiven] at hreceipt hresponses
  refine ⟨_, ?_, hresponses, ?_⟩
  · rw [← List.append_assoc, run_concat, get?_respond, if_pos rfl, hs.touched, hagg]
  · rw [hresult, ← hreceipt, ← hm, ← ht.task_eq, ← ht.context_eq]
    rfl

theorem Polling.outcome (h : Polling taskId told given box before after) :
    (∀ r ∈ receipts taskId box (before ++ after), r.newlyFinal = false) ∨
      ∃ b, (box.run (before ++ after)).get? taskId = some b ∧ b.responses = given ∧
        b.result = some (Transcript.render (toldTask told) (toldContext told) given) := by
  induction after using List.reverseRecOn with
  | nil =>
    left
    rw [List.append_nil]
    simp [receipts_of_votes h.unanswered]
  | append_singleton after op ih =>
    have hu := h.undisturbed
    rw [← List.append_assoc] at hu
    rcases ih h.init with hopen | ⟨b, hb, hresponses, hresult⟩
    · by_cases hlast : ∀ r, (box.run (before ++ after)).receipt? taskId op = some r →
          r.newlyFinal = false
      · left
        intro r hr
        rw [← List.append_assoc, receipts_concat] at hr
        rcases List.mem_append.mp hr with hr | hr
        · exact hopen r hr
        · exact hlast r (by simpa using hr)
      · right
        push Not at hlast
        obtain ⟨r, hr, hf⟩ := hlast
        have hf : r.newlyFinal = true := by simpa using hf
        cases op with
        | respond t agent response now =>
          by_cases ht : t = taskId
          · subst t
            rw [receipt?, if_pos rfl] at hr
            exact h.last hopen (Option.some.inj hr ▸ hf)
          · simp [receipt?, ht] at hr
        | _ => simp [receipt?] at hr
    · -- the result is fixed already, and stays
      right
      have hfinal : b.isFinal = true := by simp [Ballot.isFinal, hresult]
      obtain ⟨b', hb', ho⟩ := outcome_apply hb hfinal hu.last.2
      have hr : b'.result = b.result := congrArg Ballot.Outcome.result ho
      have hv : b'.responses = b.responses := congrArg Ballot.Outcome.responses ho
      refine ⟨b', ?_, hv.trans hresponses, hr.trans hresult⟩
      rw [← List.append_assoc, run_concat, hb']

theorem Polled.result_eq (h : Polled taskId told given box before after) :
    ∃ b, (box.run (before ++ after)).get? taskId = some b ∧ b.responses = given ∧
      b.result = some (Transcript.render (toldTask told) (toldContext told) given) := by
  refine h.outcome.resolve_left fun hopen => ?_
  have hs := stands_run h.new h.undisturbed hopen default
  have hlt := hs.pending_lt
  have hle : given.size ≤ (answers taskId (before ++ after)).size := by
    refine Dict.size_le_of_isSome_imp fun agent ha => ?_
    rw [answers, Dict.isSome_get?_ofList, h.votes_eq]
    exact h.complete agent ha
  have hn := h.threshold_eq
  omega

theorem Polled.size_pos (h : Polled taskId told given box before after) : 0 < given.size := by
  rw [← h.threshold_eq]
  exact one_le_threshold taskId _

end Polling

/-- Two boxes in which a task is announced alike and all its answers come, in any order and any number
of times, end with the same answers and the same result: the title that the announcements give, else
the task, else a general label, and a line for each agent in ascending order. -/
theorem result_independent_of_arrival {told : List Mention} {given : Dict String}
    {box₁ box₂ : BallotBox} {before₁ after₁ before₂ after₂ : List Op}
    (h₁ : Polled taskId told given box₁ before₁ after₁)
    (h₂ : Polled taskId told given box₂ before₂ after₂) :
    ∃ b₁ b₂, (box₁.run (before₁ ++ after₁)).get? taskId = some b₁ ∧
      (box₂.run (before₂ ++ after₂)).get? taskId = some b₂ ∧
      b₁.result = b₂.result ∧ b₁.responses = given ∧ b₂.responses = given ∧
      ∃ (header : String) (agents : List String),
        (∀ title, (toldContext told).text? "title" = some title → title ≠ "" → header = title) ∧
        ((∀ title, (toldContext told).text? "title" = some title → title = "") →
          header = if toldTask told = "" then "Consensus result" else toldTask told) ∧
        agents.Pairwise (· < ·) ∧ (∀ agent, agent ∈ agents ↔ (given.get? agent).isSome) ∧
        b₁.result = some ("🤝 " ++ header ++ "\n" ++
          Text.joinWith "\n" (agents.map fun agent =>
            agent ++ ": " ++ (given.get? agent).getD "")) := by
  obtain ⟨b₁, hb₁, hresponses₁, hresult₁⟩ := h₁.result_eq
  obtain ⟨b₂, hb₂, hresponses₂, hresult₂⟩ := h₂.result_eq
  refine ⟨b₁, b₂, hb₁, hb₂, hresult₁.trans hresult₂.symm, hresponses₁, hresponses₂,
    Transcript.header (toldTask told) (toldContext told), given.keys,
    fun _ => Transcript.header_of_title, Transcript.header_of_task, given.pairwise_keys,
    fun _ => Dict.mem_keys, ?_⟩
  rw [hresult₁, Transcript.render, Transcript.body_eq h₁.size_pos]
  rfl

/-- One box hears both answers in one order, one of them three times; the other hears them in the
other order, and of another task in between. -/
theorem result_independent_of_arrival_repeated :
    let now := Instant.ofNanos 0
    let told : List Mention := [⟨some "a", 2, "sum", Dict.empty⟩]
    let given : Dict String := Dict.ofList [("a", "1"), ("b", "2")]
    let box₁ := empty transcript Retention.unbounded
    let box₂ := empty transcript ⟨some 5, none⟩
    let expected : List Op := [.expect "t" (some "a") 2 "sum" Dict.empty now]
    let after₁ : List Op :=
      [.respond "t" "a" "1" now, .respond "t" "a" "1" now, .respond "t" "b" "2" now,
       .respond "t" "a" "1" now]
    let after₂ : List Op :=
      [.respond "t" "b" "2" now, .expect "u" none 1 "" Dict.empty now, .respond "u" "c" "3" now,
       .respond "t" "a" "1" now, .forget "u"]
    Polled "t" told given box₁ expected after₁ ∧ Polled "t" told given box₂ expected after₂ ∧
      ∃ b₁ b₂, (box₁.run (expected ++ after₁)).get? "t" = some b₁ ∧
        (box₂.run (expected ++ after₂)).get? "t" = some b₂ ∧ b₁.result = b₂.result := by
  intro now told given box₁ box₂ expected after₁ after₂
  have hkeys : given.keys = ["a", "b"] := by decide
  have hcomplete : ∀ agents : List String, "a" ∈ agents → "b" ∈ agents →
      ∀ agent, (given.get? agent).isSome → agent ∈ agents := by
    intro agents ha hb agent hagent
    rw [← Dict.mem_keys, hkeys] at hagent
    rcases List.mem_cons.mp hagent with rfl | hagent
    · exact ha
    · exact List.mem_singleton.mp hagent ▸ hb
  have h₁ : Polled "t" told given box₁ expected after₁ :=
    { aggregate_eq := rfl, new := rfl
      undisturbed := ⟨by simp [expected, after₁, Op.Adopts], by simp [expected, after₁, Keeps, Removes]⟩
      told_eq := rfl, unanswered := rfl, expected_eq := ⟨_, rfl, rfl⟩, settled := rfl
      verbatim := by decide
      complete := hcomplete _ (by decide) (by decide) }
  have h₂ : Polled "t" told given box₂ expected after₂ :=
    { aggregate_eq := rfl, new := rfl
      undisturbed := ⟨by simp [expected, after₂, Op.Adopts], by simp [expected, after₂, Keeps, Removes]⟩
      told_eq := rfl, unanswered := rfl, expected_eq := ⟨_, rfl, rfl⟩, settled := rfl
      verbatim := by decide
      complete := hcomplete _ (by decide) (by decide) }
  obtain ⟨b₁, b₂, hb₁, hb₂, hresult, -⟩ := result_independent_of_arrival h₁ h₂
  exact ⟨h₁, h₂, b₁, b₂, hb₁, hb₂, hresult⟩

end BallotBox

end AgentMesh
