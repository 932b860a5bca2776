import AgentMesh.Proofs.Node.Ballots

/-!
Where the final results of an agent come from. Each was made from enough votes that the agent received
or cast, or was taken over from a message that told it (`Node.final_result_provenance`). A message that
tells no result at all is taken to tell the empty one (`Node.final_result_unfounded`).
-/

namespace AgentMesh

/-- A ballot as it was when its result was still open. -/
def Ballot.reopened (b : Ballot) : Ballot :=
  { b with result := none, finalizedAt := none, signal := none }

theorem Ballot.Valid.reopened_eq {taskId : String} {b : Ballot} (h : b.Valid taskId)
    (hr : b.result = none) : b.reopened = b := by
  have hat : b.finalizedAt = none := by simpa [hr] using h.isSome_finalizedAt
  have hs : b.signal = none := by rw [h.signal_eq, hr]
  obtain ⟨taskId, owner, expected, task, fields, createdAt, responses, result, finalizedAt, signal⟩ := b
  simp only at hr hat hs
  rw [reopened, hr, hat, hs]

namespace Node

variable (n : Node) (taskId : String)

/-- The vote that an operation brings to a task: a vote of this agent, or one that it is told. -/
def vote? (op : Op) : Option (String × String) :=
  match n.news? op with
  | some (t, .vote agent response _ _ _ _, _) => if t = taskId then some (agent, response) else none
  | _ => none

/-- The votes on a task that an agent received or cast. -/
def votes (ops : List Op) : List (String × String) := ops.filterMap (n.vote? taskId)

/-- At some time the agent's own rule made a result from some responses. All of them were votes by
then, and they were as many as the ballot expected. -/
def Tallied (ops : List Op) (responses : Dict String) (r : String) : Prop :=
  ∃ past later b, ops = past ++ later ∧ (n.run past).ballot? taskId = some b ∧
    b.responses = responses ∧ r = n.ledger.box.aggregate b.reopened ∧
    b.expected ≤ responses.size ∧
    ∀ agent response, responses.get? agent = some response →
      (agent, response) ∈ n.votes taskId past

/-- A message told the result, or told of a result without telling it, which passes for the empty
one. -/
def Adopted (ops : List Op) (r : String) : Prop :=
  ∃ m now, Op.handle m now ∈ ops ∧ m.kind = .consensus ∧ m.taskId = taskId ∧
    (m.payload.text? "result" = some r ∨ m.payload.text? "result" = none ∧ r = "")

/-- All votes of a ballot, and its result, come from the operations so far. -/
structure Accounted (ops : List Op) (b : Ballot) : Prop where
  heard : ∀ agent response, b.responses.get? agent = some response →
    (agent, response) ∈ n.votes taskId ops
  origin : ∀ r, b.result = some r → n.Tallied taskId ops b.responses r ∨ Adopted taskId ops r

variable {n taskId} {ops : List Op} {b b' : Ballot} {op : Op}

theorem accounted_blank (now : Instant) : n.Accounted taskId ops (Ballot.blank taskId now) where
  heard agent response h := by simp [Ballot.blank, Ballot.opened] at h
  origin r h := by simp [Ballot.blank, Ballot.opened] at h

theorem Accounted.of_outcome (h : n.Accounted taskId ops b) (ho : b'.outcome = b.outcome) :
    n.Accounted taskId ops b' := by
  have hr : b'.result = b.result := congrArg Ballot.Outcome.result ho
  have hv : b'.responses = b.responses := congrArg Ballot.Outcome.responses ho
  refine ⟨fun agent response hget => ?_, fun r hresult => ?_⟩
  · exact h.heard agent response (hv ▸ hget)
  · rw [hv]
    exact h.origin r (hr ▸ hresult)

theorem Accounted.append (h : n.Accounted taskId ops b) (op : Op) :
    n.Accounted taskId (ops ++ [op]) b := by
  refine ⟨fun agent response hget => ?_, fun r hresult => ?_⟩
  · rw [votes, List.filterMap_append]
    exact List.mem_append_left _ (h.heard agent response hget)
  · rcases h.origin r hresult with ⟨past, later, b₀, rfl, htallied⟩ | ⟨m, now, hmem, hadopted⟩
    · exact Or.inl ⟨past, later ++ [op], b₀, List.append_assoc past later [op], htallied⟩
    · exact Or.inr ⟨m, now, List.mem_append_left _ hmem, hadopted⟩

theorem adopted_of_news {result : String} {owner : Option String} {now : Instant}
    (h : n.news? op = some (taskId, .result result owner, now)) :
    Adopted taskId (ops ++ [op]) result := by
  cases op with
  | handle m at_ =>
    have hmem : Op.handle m at_ ∈ ops ++ [.handle m at_] := by simp
    simp only [news?] at h
    cases hk : m.kind with
    | consensus =>
      simp only [hk, Option.some.injEq, Prod.mk.injEq, News.result.injEq] at h
      refine ⟨m, at_, hmem, hk, h.1, ?_⟩
      cases htext : m.payload.text? "result" with
      | none => exact Or.inr ⟨rfl, by simpa [htext] using h.2.1.1.symm⟩
      | some text => exact Or.inl (by simpa [htext] using h.2.1.1)
    | task | result | heartbeat => simp [hk] at h
  | execute m at_ => simp [news?] at h
  | start | submit | setParticipants | contact | await | leave => simp [news?] at h

section Vote

variable {agent response : String} {owner : Option String} {task : String} {context : Fields}
  {own : Bool} {now : Instant}

theorem mem_votes_of_news
    (h : n.news? op = some (taskId, .vote agent response owner task context own, now)) :
    (agent, response) ∈ n.votes taskId (ops ++ [op]) := by
  have hv : n.vote? taskId op = some (agent, response) := by simp [vote?, h]
  simp [votes, hv]

/-- A vote on an open ballot is noted, and if it is the last one the result is made from all. -/
theorem Accounted.vote (h : n.Accounted taskId ops b) (hvalid : b.Valid taskId)
    (hr : b.result = none)
    (hnews : n.news? op = some (taskId, .vote agent response owner task context own, now))
    (hb' : b' = (b.vote n.ledger.box.aggregate agent response now).2)
    (hafter : (n.run (ops ++ [op])).ballot? taskId = some b') :
    n.Accounted taskId (ops ++ [op]) b' := by
  have hheard : ∀ k v, (b.responses.insert agent response).get? k = some v →
      (k, v) ∈ n.votes taskId (ops ++ [op]) := by
    intro k v hget
    rw [Dict.get?_insert] at hget
    split at hget
    · next hk =>
      rw [← hk, ← Option.some.inj hget]
      exact mem_votes_of_news hnews
    · exact (h.append op).heard k v hget
  by_cases hlt : (b.responses.insert agent response).size < b.expected
  · rw [Ballot.vote_of_lt hr hlt] at hb'
    subst b'
    refine ⟨hheard, fun r hresult => ?_⟩
    simp [Ballot.record, hr] at hresult
  · have hle := Nat.not_lt.mp hlt
    have hopen : (b.record agent response).reopened = b.record agent response := by
      have hrecord := congrArg (Ballot.record · agent response) (hvalid.reopened_eq hr)
      exact hrecord
    rw [Ballot.vote_of_le hr hle] at hb'
    refine ⟨by rw [hb']; exact hheard, fun r hresult => Or.inl ?_⟩
    refine ⟨ops ++ [op], [], b', by simp, hafter, rfl, ?_, by rw [hb']; exact hle, ?_⟩
    · have hmade : r = n.ledger.box.aggregate (b.record agent response) := by
        rw [hb'] at hresult
        exact (Option.some.inj hresult).symm
      have hsame : b'.reopened = (b.record agent response).reopened := by rw [hb']; rfl
      rw [hsame, hopen, hmade]
    · rw [hb']
      exact hheard

end Vote

theorem Accounted.learn (h : n.Accounted taskId ops b) (hvalid : b.Valid taskId) {news : News}
    {participants : Nat} {now : Instant} (hnews : n.news? op = some (taskId, news, now))
    (hb' : b' = b.learn n.ledger.box.aggregate participants now news)
    (hafter : (n.run (ops ++ [op])).ballot? taskId = some b') :
    n.Accounted taskId (ops ++ [op]) b' := by
  cases hr : b.result with
  | some r =>
    have hf : b.isFinal = true := by rw [Ballot.isFinal, hr]; rfl
    rw [hb']
    exact (h.append op).of_outcome (Ballot.outcome_learn _ _ _ _ hf)
  | none =>
    cases news with
    | task owner task context =>
      rw [hb']
      exact (h.append op).of_outcome rfl
    | vote agent response owner task context own =>
      have hw := hvalid.widen (owner.filter (!·.isEmpty)) participants task context
      have hopen : n.Accounted taskId ops
          (b.widen (owner.filter (!·.isEmpty)) participants task context) := h.of_outcome rfl
      exact hopen.vote hw hr hnews hb' hafter
    | result result owner =>
      have hfixed := Ballot.finalize_of_none (b := b.widen none 1 "" Dict.empty) hr result now
      have hlearn : b' = (b.widen none 1 "" Dict.empty).finalize result now := hb'
      rw [hfixed] at hlearn
      refine ⟨?_, fun r hresult => Or.inr ?_⟩
      · rw [hlearn]
        exact (h.append op).heard
      · have hresult' : result = r := by
          rw [hlearn] at hresult
          exact Option.some.inj hresult
        exact hresult' ▸ adopted_of_news hnews

theorem accounted_run (hs : n.Sound) (hempty : n.ledger.box.ballots = Dict.empty)
    (hb : (n.run ops).ballot? taskId = some b) : n.Accounted taskId ops b := by
  -- on the last operation, since the votes are read off the whole history
  induction ops using List.reverseRecOn generalizing b with
  | nil =>
    have hnone : (n.run []).ballot? taskId = none := by
      change n.ledger.box.ballots.get? taskId = none
      rw [hempty, Dict.get?_empty]
    rw [hnone] at hb
    cases hb
  | append_singleton ops op ih =>
    have hrun : n.run (ops ++ [op]) = (n.run ops).apply op := run_append n ops [op]
    have hs' := hs.run ops
    rcases ballot_apply hs' op taskId with ⟨news, now, hnews⟩ | hsame | ⟨-, hnone, -⟩
    · have hlearn := ballot_of_news hs' hnews
      rw [← hrun, hb, (hs.run_box ops).1] at hlearn
      have hheld : n.Accounted taskId ops ((n.run ops).ledger.box.held taskId now) := by
        cases hbefore : (n.run ops).ballot? taskId with
        | none =>
          rw [BallotBox.held, show (n.run ops).ledger.box.get? taskId = none from hbefore]
          exact accounted_blank now
        | some b₀ =>
          rw [BallotBox.held_of_some hbefore]
          exact ih hbefore
      rw [news?_run] at hnews
      exact hheld.learn (hs'.valid.held taskId now) hnews (Option.some.inj hlearn) hb
    · rw [hrun, hsame] at hb
      exact (ih hb).append op
    · rw [hrun, hnone] at hb
      cases hb

/-- After every run of an agent that began with an empty ledger, a final result was made by the agent's
own rule from at least as many votes as were expected, all of them received or cast by then, or it was
taken over from a message about the task that told it, or that told none, if it is empty. -/
theorem final_result_provenance (id : String) (peers : List Peer) (executor : Option Executor)
    (participants : Option Nat) (aggregate : Aggregator) (retention : Retention) (ops : List Op)
    {taskId : String} {b : Ballot} {r : String}
    (hb : ((build id peers executor participants (Ledger.empty aggregate retention)).run
      ops).ballot? taskId = some b) (hr : b.result = some r) :
    Tallied (build id peers executor participants (Ledger.empty aggregate retention)) taskId ops
        b.responses r ∨
      Adopted taskId ops r := by
  have hs := sound_build id peers executor participants aggregate retention
  exact (accounted_run hs rfl hb).origin r hr

/-- Where no message tells of a result, the one that is held was made from votes, late and repeated
ones among them. -/
theorem final_result_provenance_tallied :
    let at_ (k : Nat) := Instant.ofNanos k
    let told (sender result : String) : Message :=
      ⟨.result, sender, "t", Dict.ofList [("result", .str result)]⟩
    let n := build "a" [] (some (Executor.constant "1")) (some 3)
      (Ledger.empty transcript Retention.unbounded)
    let ops : List Op :=
      [.handle (told "b" "2") (at_ 0), .start "t" "sum" Dict.empty (at_ 1),
       .execute ⟨.task, "a", "t", Dict.empty⟩ (at_ 2), .handle (told "b" "3") (at_ 3),
       .handle (told "c" "4") (at_ 4), .handle (told "d" "5") (at_ 5)]
    ∃ b, (n.run ops).ballot? "t" = some b ∧ b.result = some "🤝 sum\na: 1\nb: 3\nc: 4" ∧
      n.Tallied "t" ops b.responses "🤝 sum\na: 1\nb: 3\nc: 4" := by
  intro at_ told n ops
  have hsome : ((n.run ops).ballot? "t").map (·.result) =
      some (some "🤝 sum\na: 1\nb: 3\nc: 4") := by decide
  obtain ⟨b, hb, hr⟩ := Option.map_eq_some_iff.mp hsome
  refine ⟨b, hb, hr, ?_⟩
  rcases final_result_provenance "a" [] (some (Executor.constant "1")) (some 3) transcript
    Retention.unbounded ops hb hr with htallied | ⟨m, now, hmem, hkind, -⟩
  · exact htallied
  · simp only [ops, told, List.mem_cons, Op.handle.injEq, List.not_mem_nil, or_false,
      reduceCtorEq, false_or] at hmem
    rcases hmem with ⟨rfl, -⟩ | ⟨rfl, -⟩ | ⟨rfl, -⟩ | ⟨rfl, -⟩ <;> cases hkind

/-- A message that tells of a result without telling it makes a task final on which nobody has voted,
for good: the votes that come after it change nothing. -/
theorem final_result_unfounded :
    let at_ (k : Nat) := Instant.ofNanos k
    let n := build "a" [] none (some 2) (Ledger.empty transcript Retention.unbounded)
    let silent : Message := ⟨.consensus, "b", "t", Dict.ofList [("result", .null)]⟩
    let vote (sender : String) : Message :=
      ⟨.result, sender, "t", Dict.ofList [("result", .str "1")]⟩
    let ops : List Op :=
      [.start "t" "sum" Dict.empty (at_ 0), .handle silent (at_ 1), .handle (vote "b") (at_ 2),
       .handle (vote "c") (at_ 3)]
    silent.payload.text? "result" = none ∧ (n.run ops).result? "t" = some "" ∧
      ((n.run ops).ballot? "t").map (·.responses) = some Dict.empty := by
  decide

end Node

end AgentMesh
