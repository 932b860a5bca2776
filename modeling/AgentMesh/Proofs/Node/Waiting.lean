import AgentMesh.Proofs.Node.Provenance
import AgentMesh.Proofs.Node.Turnover

/-!
Waiting for a result. Who waits is shown the result that the ballot gets which the agent held on the
task at first, whatever becomes of that ballot afterwards (`Node.awaitedResult?_iff`). A task that is
still open gets a result once enough agents have voted (`Node.yields_of_votes`).
-/

namespace AgentMesh.Node

/-- Whether an operation begins or ends a wait for a task. -/
def Op.Minds (taskId : String) : Op → Prop
  | .await t => t = taskId
  | .leave t => t = taskId
  | _ => False

/-- In the course of a run a task gets a result, before its ballot is dropped. What the run does to the
ballot after that does not matter. -/
def Yields (n : Node) (taskId : String) (ops : List Op) (r : String) : Prop :=
  ∃ past later, ops = past ++ later ∧ n.droppings taskId past = 0 ∧
    (n.run past).result? taskId = some r

variable {n : Node} {t : String} {op : Op} {ops : List Op} {r r' : String}

theorem droppings_append (n : Node) (t : String) (ops more : List Op) :
    n.droppings t (ops ++ more) = n.droppings t ops + (n.run ops).droppings t more :=
  tally_append n _ ops more

theorem Yields.of_result (h : n.result? t = some r) : n.Yields t ops r := ⟨[], ops, rfl, rfl, h⟩

theorem Yields.append (h : n.Yields t ops r) (more : List Op) : n.Yields t (ops ++ more) r := by
  obtain ⟨past, later, rfl, hkeep, hr⟩ := h
  exact ⟨past, later ++ more, List.append_assoc past later more, hkeep, hr⟩

theorem Yields.cons (hkeep : n.drops t op = false) (h : (n.apply op).Yields t ops r) :
    n.Yields t (op :: ops) r := by
  obtain ⟨past, later, rfl, hpast, hr⟩ := h
  refine ⟨op :: past, later, rfl, ?_, hr⟩
  rw [droppings, tally, hkeep]
  exact (Nat.zero_add _).trans hpast

theorem Yields.result? (hs : n.Sound) (h : n.Yields t ops r) (hkeep : n.droppings t ops = 0) :
    (n.run ops).result? t = some r := by
  obtain ⟨past, later, rfl, -, hr⟩ := h
  rw [droppings_append] at hkeep
  rw [run_append]
  exact result?_run (hs.run past) hr (Nat.add_eq_zero_iff.mp hkeep).2

theorem Yields.unique (hs : n.Sound) (h : n.Yields t ops r) (h' : n.Yields t ops r') : r = r' := by
  obtain ⟨past, later, rfl, hkeep, hr⟩ := h
  obtain ⟨past', later', hsame, hkeep', hr'⟩ := h'
  -- of the two moments one comes first, and its result is still there at the other
  rcases List.append_eq_append_iff.mp hsame with ⟨mid, rfl, -⟩ | ⟨mid, rfl, -⟩
  · have hy : n.Yields t (past ++ mid) r := ⟨past, mid, rfl, hkeep, hr⟩
    exact Option.some.inj ((hy.result? hs hkeep').symm.trans hr')
  · have hy : n.Yields t (past' ++ mid) r' := ⟨past', mid, rfl, hkeep', hr'⟩
    exact Option.some.inj (hr.symm.trans (hy.result? hs hkeep))

theorem awaited_of_other (hp : 1 ≤ n.participants) (hminds : ¬op.Minds t)
    (hother : ∀ x, n.news? op = some x → x.1 ≠ t) :
    (n.apply op).awaited.get? t = n.awaited.get? t := by
  cases hnews : n.news? op with
  | some x =>
    obtain ⟨t', news, now⟩ := x
    rcases apply_of_news hp hnews with ⟨hlearn, -⟩ | hsettle
    · rw [hlearn]
    · rw [hsettle, settle, awaited_tell, if_neg (hother _ hnews)]
  | none =>
    rcases (apply_of_no_news hnews).2 with hsame | ⟨t', rfl | rfl⟩
    · rw [hsame]
    · exact Dict.get?_insert_of_ne n.awaited _ hminds
    · have hne : t' ≠ t := hminds
      exact (Dict.get?_erase n.awaited t' t).trans (if_neg hne)

theorem Sound.signal_eq (h : n.Sound) (t : String) :
    (n.ballot? t).bind (·.signal) = n.result? t := by
  rw [Node.result?]
  cases hb : n.ballot? t with
  | none => rfl
  | some b => exact (h.valid t b hb).signal_eq

theorem awaited_apply (h : n.Sound) (hminds : ¬op.Minds t) :
    (n.apply op).awaited.get? t =
        (n.awaited.get? t).map (· <|> (n.apply op).result? t) ∨
      ((n.apply op).awaited.get? t = n.awaited.get? t ∧
        (n.result? t = none → (n.apply op).result? t = none)) := by
  by_cases hother : ∀ x, n.news? op = some x → x.1 ≠ t
  · refine Or.inr ⟨awaited_of_other h.participants_pos hminds hother, fun hopen => ?_⟩
    rcases ballot_of_other h hother with hsame | ⟨-, hnone, -⟩
    · rwa [result?, hsame]
    · rw [result?, hnone]
      rfl
  · push Not at hother
    obtain ⟨⟨t', news, now⟩, hnews, rfl⟩ := hother
    have hafter := ballot_of_news h hnews
    rcases apply_of_news h.participants_pos hnews with
      ⟨hlearn, owner, task, context, rfl⟩ | hsettle
    · refine Or.inr ⟨by rw [hlearn], fun hopen => ?_⟩
      rw [n.result?_eq t' now] at hopen
      rw [result?, hafter]
      exact hopen
    · left
      have hsignal := (h.apply op).signal_eq t'
      rw [hafter, Option.bind_some] at hsignal
      rw [← hsignal, hsettle, settle, awaited_tell, if_pos rfl, Docket.learn_ballot]
      rfl

theorem awaited_run (hs : n.Sound) (hwait : n.awaited.get? t = some (n.result? t))
    (hminds : ∀ op ∈ ops, ¬op.Minds t) :
    ∃ shown, (n.run ops).awaited.get? t = some shown ∧
      ((∃ r, shown = some r ∧ n.Yields t ops r) ∨
        (shown = none ∧ (n.run ops).result? t = none ∧ n.droppings t ops = 0)) := by
  induction ops using List.reverseRecOn with
  | nil =>
    refine ⟨n.result? t, hwait, ?_⟩
    cases hr : n.result? t with
    | none => exact Or.inr ⟨rfl, hr, rfl⟩
    | some r => exact Or.inl ⟨r, rfl, .of_result hr⟩
  | append_singleton ops op ih =>
    obtain ⟨shown, hshown, hcase⟩ := ih fun x hx => hminds x (List.mem_append_left [op] hx)
    have hs' := hs.run ops
    have hstep := awaited_apply hs' (hminds op (by simp))
    have hrun : n.run (ops ++ [op]) = (n.run ops).apply op := run_append n ops [op]
    rw [hshown, Option.map_some] at hstep
    rw [hrun]
    rcases hcase with ⟨r, rfl, hyields⟩ | ⟨rfl, hopen, hkeep⟩
    · -- what has been shown stays
      refine ⟨some r, ?_, Or.inl ⟨r, rfl, hyields.append [op]⟩⟩
      rcases hstep with hstep | ⟨hstep, -⟩ <;> exact hstep
    · have hkept : n.droppings t (ops ++ [op]) = 0 := by
        have hnot : (n.run ops).drops t op = false := by
          refine Bool.eq_false_iff.mpr fun hd => ?_
          have hfinal := (isSome_result?_of_drops hs' hd).1
          rw [hopen] at hfinal
          cases hfinal
        rw [droppings_append, hkeep, droppings, tally, tally, hnot]
        rfl
      cases hr : ((n.run ops).apply op).result? t with
      | none =>
        refine ⟨none, ?_, Or.inr ⟨rfl, rfl, hkept⟩⟩
        rcases hstep with hstep | ⟨hstep, -⟩
        · rw [hstep, hr]
          rfl
        · exact hstep
      | some r =>
        have hyields : n.Yields t (ops ++ [op]) r :=
          ⟨ops ++ [op], [], by simp, hkept, by rw [hrun]; exact hr⟩
        refine ⟨some r, ?_, Or.inl ⟨r, rfl, hyields⟩⟩
        rcases hstep with hstep | ⟨-, hnone⟩
        · rw [hstep, hr]
          rfl
        · rw [hnone hopen] at hr
          cases hr

/-- Who waits from the beginning of a run on is shown a result just if the run gives the task this one,
be its ballot dropped by then, or another one opened in its place. -/
theorem awaitedResult?_iff (hs : n.Sound) (hwait : n.awaited.get? t = some (n.result? t))
    (hminds : ∀ op ∈ ops, ¬op.Minds t) :
    (n.run ops).awaitedResult? t = some r ↔ n.Yields t ops r := by
  obtain ⟨shown, hshown, hcase⟩ := awaited_run hs hwait hminds
  have hresult : (n.run ops).awaitedResult? t = shown := by simp [awaitedResult?, hshown]
  rw [hresult]
  rcases hcase with ⟨r', rfl, hyields⟩ | ⟨rfl, hopen, hkeep⟩
  · constructor
    · intro h
      exact Option.some.inj h ▸ hyields
    · intro h
      rw [hyields.unique hs h]
  · constructor
    · intro h
      cases h
    · intro h
      rw [h.result? hs hkeep] at hopen
      cases hopen

theorem await_awaited (hs : n.Sound) (t : String) :
    (n.await t).awaited.get? t = some ((n.await t).result? t) :=
  (Dict.get?_insert_self n.awaited t _).trans (congrArg some (hs.signal_eq t))

theorem apply_participants_le {q : Nat} (hq : n.participants ≤ q)
    (hset : ∀ v, op = .setParticipants v → max 1 v ≤ q) : (n.apply op).participants ≤ q := by
  rcases (n.apply_settings op).2.2 with h | ⟨v, hop, h⟩
  · rw [h]
    exact hq
  · rw [h]
    exact hset v hop

theorem pending_apply (hs : n.Sound) {b : Ballot} (hb : n.ballot? t = some b)
    (hr : b.result = none) (op : Op) :
    ∃ b', (n.apply op).ballot? t = some b' ∧
      (b'.result = none → b'.expected ≤ max b.expected n.participants ∧
        b'.responses = b.responses.insertAll (n.vote? t op).toList) := by
  by_cases hother : ∀ x, n.news? op = some x → x.1 ≠ t
  · have hvote : n.vote? t op = none := by
      unfold vote?
      split
      · next hnews => exact if_neg (hother _ hnews)
      · rfl
    rcases ballot_of_other hs hother with hsame | ⟨-, -, b', hb', hf⟩
    · refine ⟨b, hsame.trans hb, fun _ => ⟨Nat.le_max_left _ _, ?_⟩⟩
      rw [hvote]
      rfl
    · rw [hb] at hb'
      rw [← Option.some.inj hb', Ballot.isFinal, hr] at hf
      cases hf
  · push Not at hother
    obtain ⟨⟨t', news, now⟩, hnews, rfl⟩ := hother
    have hafter := ballot_of_news hs hnews
    rw [BallotBox.held_of_some hb] at hafter
    refine ⟨_, hafter, fun hopen => ?_⟩
    cases news with
    | task owner task context =>
      have hvote : n.vote? t' op = none := by simp [vote?, hnews]
      rw [hvote]
      exact ⟨le_refl _, rfl⟩
    | vote agent response owner task context own =>
      have hvote : n.vote? t' op = some (agent, response) := by simp [vote?, hnews]
      rw [hvote]
      let w := b.widen (owner.filter (!·.isEmpty)) n.participants task context
      have hw : w.result = none := hr
      have hlearn : b.learn n.ledger.box.aggregate n.participants now
          (.vote agent response owner task context own) =
            (w.vote n.ledger.box.aggregate agent response now).2 := rfl
      rw [hlearn] at hopen ⊢
      by_cases hlt : (w.responses.insert agent response).size < w.expected
      · rw [Ballot.vote_of_lt hw hlt]
        exact ⟨le_refl _, rfl⟩
      · rw [Ballot.vote_of_le hw (Nat.not_lt.mp hlt)] at hopen
        cases hopen
    | result result owner =>
      have hfixed := (b.widen none 1 "" Dict.empty).isFinal_finalize result now
      have hnone : ((b.widen none 1 "" Dict.empty).finalize result now).result = none := hopen
      rw [Ballot.isFinal, hnone] at hfixed
      cases hfixed

theorem yields_of_votes (hs : n.Sound) {b : Ballot} (hb : n.ballot? t = some b)
    (hr : b.result = none) {q : Nat} (hexpected : b.expected ≤ q) (hparticipants : n.participants ≤ q)
    (hset : ∀ v, Op.setParticipants v ∈ ops → max 1 v ≤ q)
    (hvotes : q ≤ (b.responses.insertAll (n.votes t ops)).size) : ∃ r, n.Yields t ops r := by
  -- the votes so far move into the ballot one by one, so their number stays
  induction ops generalizing n b with
  | nil =>
    have hlt := (hs.valid t b hb).pending_lt hr
    have hle : q ≤ b.responses.size := hvotes
    omega
  | cons op rest ih =>
    obtain ⟨b', hb', hopen⟩ := pending_apply hs hb hr op
    have hkeep : n.drops t op = false := by simp [drops, hb']
    cases hr' : b'.result with
    | some r =>
      have hresult : (n.apply op).result? t = some r := by rw [result?, hb']; exact hr'
      exact ⟨r, .cons hkeep (.of_result hresult)⟩
    | none =>
      obtain ⟨hle, hresponses⟩ := hopen hr'
      have hsplit : n.votes t (op :: rest) = (n.vote? t op).toList ++ (n.apply op).votes t rest := by
        have hsame : (n.apply op).vote? t = n.vote? t := by
          funext x
          have hnews := n.news?_run [op] x
          change (n.apply op).news? x = n.news? x at hnews
          rw [vote?, vote?, hnews]
        rw [votes, votes, hsame, List.filterMap_cons]
        cases n.vote? t op <;> rfl
      obtain ⟨r, hyields⟩ := ih (hs.apply op) hb' hr'
        (hle.trans (Nat.max_le.mpr ⟨hexpected, hparticipants⟩))
        (apply_participants_le hparticipants fun v hv => hset v (by simp [hv]))
        (fun v hv => hset v (List.mem_cons_of_mem op hv))
        (by
          rw [hresponses, Dict.insertAll, Dict.insertAll, ← List.foldl_append, ← hsplit]
          exact hvotes)
      exact ⟨r, hyields.cons hkeep⟩

end AgentMesh.Node
