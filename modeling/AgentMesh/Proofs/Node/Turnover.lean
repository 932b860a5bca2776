import AgentMesh.Proofs.Node.Ballots

/-!
How often a task becomes final. A final result stays until its ballot is dropped, and a task that comes
up again after that is decided anew; so the times a task becomes final and the times its ballot is
dropped keep pace (`Node.decided_per_drop`). Nothing remembers a task whose ballot was dropped, so late
and repeated messages may decide it a second time, and another way (`Node.decided_twice`).
-/

namespace AgentMesh.Node

/-- What each operation of a run counts, taken together. -/
def tally (count : Node → Op → Nat) : Node → List Op → Nat
  | _, [] => 0
  | n, op :: rest => count n op + tally count (n.apply op) rest

variable (taskId : String)

def decides (n : Node) (op : Op) : Bool :=
  (n.result? taskId).isNone && ((n.apply op).result? taskId).isSome

def drops (n : Node) (op : Op) : Bool :=
  (n.ballot? taskId).isSome && ((n.apply op).ballot? taskId).isNone

def sends (n : Node) : Op → List Message
  | .start taskId task context now => [(n.start taskId task context now).2]
  | .submit taskId result owner task context now =>
    (n.submit taskId result owner task context now).2.2
  | .execute m now => (n.execute m now).2
  | .handle m now => (n.handle m now).sends
  | _ => []

def announces (m : Message) : Bool := m.kind = .consensus ∧ m.taskId = taskId

def decisions (n : Node) (ops : List Op) : Nat := n.tally (fun n op => (n.decides taskId op).toNat) ops

def droppings (n : Node) (ops : List Op) : Nat := n.tally (fun n op => (n.drops taskId op).toNat) ops

/-- How many messages a run broadcasts that tell the final result of a task. -/
def announcements (n : Node) (ops : List Op) : Nat :=
  n.tally (fun n op => (n.sends op).countP (announces taskId)) ops

section Tally

variable {count count' : Node → Op → Nat} (n : Node)

theorem tally_append (count : Node → Op → Nat) (ops more : List Op) :
    n.tally count (ops ++ more) = n.tally count ops + (n.run ops).tally count more := by
  induction ops generalizing n with
  | nil => simp [tally, run]
  | cons op rest ih => rw [List.cons_append, tally, tally, ih, Nat.add_assoc]; rfl

theorem tally_le (h : n.Sound) (hle : ∀ n op, n.Sound → count n op ≤ count' n op) (ops : List Op) :
    n.tally count ops ≤ n.tally count' ops := by
  induction ops generalizing n with
  | nil => exact le_refl 0
  | cons op rest ih => exact Nat.add_le_add (hle n op h) (ih (n.apply op) (h.apply op))

end Tally

variable {taskId} {n : Node} {op : Op}

theorem result?_eq (n : Node) (taskId : String) (now : Instant) :
    n.result? taskId = (n.ledger.box.held taskId now).result := by
  unfold result? ballot? BallotBox.held
  cases n.ledger.box.get? taskId with
  | none => rfl
  | some b => rfl

theorem result?_of_final {b : Ballot} (hb : n.ballot? taskId = some b) (hf : b.isFinal = true) :
    ∃ r, n.result? taskId = some r := by
  rw [result?, hb]
  exact Option.isSome_iff_exists.mp hf

theorem result?_apply (h : n.Sound) {r : String} (hr : n.result? taskId = some r)
    (hkeep : n.drops taskId op = false) : (n.apply op).result? taskId = some r := by
  obtain ⟨b, hb, hbr⟩ := Option.bind_eq_some_iff.mp hr
  rcases ballot_apply h op taskId with ⟨news, now, hnews⟩ | hsame | ⟨-, hnone, -⟩
  · have hheld : n.ledger.box.held taskId now = b := BallotBox.held_of_some hb now
    have hf : b.isFinal = true := by rw [Ballot.isFinal, hbr]; rfl
    have ho := Ballot.outcome_learn n.ledger.box.aggregate n.participants now news hf
    rw [result?, ballot_of_news h hnews, hheld]
    exact (congrArg Ballot.Outcome.result ho).trans hbr
  · rw [result?, hsame, hb]
    exact hbr
  · simp [drops, hb, hnone] at hkeep

theorem isSome_result?_of_drops (h : n.Sound) (hd : n.drops taskId op = true) :
    (n.result? taskId).isSome ∧ n.ledger.box.retention.isUnbounded = false := by
  have hgone := Bool.and_eq_true_iff.mp hd
  rcases ballot_apply h op taskId with ⟨news, now, hnews⟩ | hsame | ⟨hbounded, -, b, hb, hf⟩
  · rw [ballot_of_news h hnews] at hgone
    exact absurd hgone.2 (by simp)
  · rw [hsame, Option.isNone_iff_eq_none] at hgone
    rw [hgone.2] at hgone
    exact absurd hgone.1 (by simp)
  · obtain ⟨r, hr⟩ := result?_of_final hb hf
    exact ⟨by rw [hr]; rfl, hbounded⟩

/-- What is decided or was so before is dropped or still so. -/
theorem decides_balance (h : n.Sound) (op : Op) :
    (n.decides taskId op).toNat + (n.result? taskId).isSome.toNat =
      (n.drops taskId op).toNat + ((n.apply op).result? taskId).isSome.toNat := by
  cases hd : n.drops taskId op with
  | true =>
    -- only a final ballot goes, so nothing is decided here
    have hbefore := (isSome_result?_of_drops h hd).1
    have hafter : (n.apply op).result? taskId = none := by
      have hnone := (Bool.and_eq_true_iff.mp hd).2
      rw [result?, Option.isNone_iff_eq_none.mp hnone]
      rfl
    simp [decides, hbefore, hafter]
  | false =>
    cases hr : n.result? taskId with
    | none => cases ha : (n.apply op).result? taskId <;> simp [decides, hr, ha]
    | some r => simp [decides, hr, result?_apply h hr hd]

theorem decisions_balance (h : n.Sound) (ops : List Op) :
    n.decisions taskId ops + (n.result? taskId).isSome.toNat =
      n.droppings taskId ops + ((n.run ops).result? taskId).isSome.toNat := by
  induction ops generalizing n with
  | nil => rfl
  | cons op rest ih =>
    have hstep : (n.decides taskId op).toNat + (n.result? taskId).isSome.toNat =
        (n.drops taskId op).toNat + ((n.apply op).result? taskId).isSome.toNat := decides_balance h op
    have hrest := ih (h.apply op)
    simp only [decisions, droppings, tally, run, List.foldl_cons] at hrest ⊢
    omega

theorem droppings_of_unbounded (h : n.Sound) (hu : n.ledger.box.retention.isUnbounded = true)
    (ops : List Op) : n.droppings taskId ops = 0 := by
  induction ops generalizing n with
  | nil => rfl
  | cons op rest ih =>
    have hkeep : n.drops taskId op = false := by
      refine Bool.eq_false_iff.mpr fun hd => ?_
      rw [(isSome_result?_of_drops h hd).2] at hu
      cases hu
    have hsame := (apply_box h.participants_pos op).2
    have hrest := ih (h.apply op) (hsame ▸ hu)
    simp only [droppings, tally, hkeep, Bool.toNat_false, Nat.zero_add] at hrest ⊢
    exact hrest

theorem result?_run (h : n.Sound) {r : String} (hr : n.result? taskId = some r) {ops : List Op}
    (hkeep : n.droppings taskId ops = 0) : (n.run ops).result? taskId = some r := by
  induction ops generalizing n with
  | nil => exact hr
  | cons op rest ih =>
    obtain ⟨hop, hrest⟩ := Nat.add_eq_zero_iff.mp hkeep
    have hkept : n.drops taskId op = false := by
      cases hd : n.drops taskId op with
      | false => rfl
      | true => simp [hd] at hop
    exact ih (h.apply op) (result?_apply h hr hkept) hrest

theorem countP_consensusMessages (receipt : Receipt) (t : String) (owner : Option String) :
    (n.consensusMessages receipt t owner).countP (announces taskId) ≤
      if t = taskId then receipt.newlyFinal.toNat else 0 := by
  unfold consensusMessages
  split
  · next hnew _ =>
    split
    · exact Nat.zero_le _
    · by_cases ht : t = taskId
      · simp [announces, hnew, ht]
      · simp [announces, ht]
  · exact Nat.zero_le _

section Vote

variable {t agent response : String} {owner : Option String} {task : String} {context : Fields}
  {own : Bool} {now : Instant}

theorem decides_of_newlyFinal (h : n.Sound)
    (hnews : n.news? op = some (t, .vote agent response owner task context own, now))
    (hnew : (((n.ledger.docket t now).widen owner n.participants task context).vote
      n.ledger.box.aggregate agent response now).1.newlyFinal = true) :
    n.decides t op = true := by
  let b := (n.ledger.box.held t now).widen (owner.filter (!·.isEmpty)) n.participants task context
  have hnewly : (b.vote n.ledger.box.aggregate agent response now).1.newlyFinal = true := hnew
  have hopen : n.result? t = none := by
    cases hr : n.result? t with
    | none => rfl
    | some r =>
      have hb : b.result = some r := (n.result?_eq t now).symm.trans hr
      rw [Ballot.vote_of_result hb] at hnewly
      cases hnewly
  obtain ⟨r, hr, -⟩ := Ballot.vote_newlyFinal hnewly
  have hafter : (n.apply op).result? t = some r := by
    rw [result?, ballot_of_news h hnews]
    exact hr
  rw [decides, hopen, hafter]
  rfl

theorem announcements_vote_le (h : n.Sound)
    (hnews : n.news? op = some (t, .vote agent response owner task context own, now))
    (owner' : Option String) :
    (n.consensusMessages (((n.ledger.docket t now).widen owner n.participants task context).vote
      n.ledger.box.aggregate agent response now).1 t owner').countP (announces taskId) ≤
      (n.decides taskId op).toNat := by
  refine le_trans (countP_consensusMessages _ t owner') ?_
  split
  · next ht =>
    subst t
    cases hnew : (((n.ledger.docket taskId now).widen owner n.participants task context).vote
      n.ledger.box.aggregate agent response now).1.newlyFinal with
    | false => exact Nat.zero_le _
    | true => rw [decides_of_newlyFinal h hnews hnew]
  · exact Nat.zero_le _

end Vote

theorem countP_sends_le (h : n.Sound) (op : Op) :
    (n.sends op).countP (announces taskId) ≤ (n.decides taskId op).toNat := by
  have hsubmit : ∀ t result owner task context now,
      n.news? op = some (t, .vote n.id result owner task context true, now) →
      (n.submit t result owner task context now).2.2.countP (announces taskId) ≤
        (n.decides taskId op).toNat := by
    intro t result owner task context now hnews
    rw [submit_eq t h.participants_pos]
    have hown : announces taskId (n.resultMessage t result owner) = false := by
      simp [announces, resultMessage]
    simp only [List.countP_cons, hown]
    exact announcements_vote_le h hnews _
  cases op with
  | start t task context now => simp [sends, start, taskMessage, announces]
  | submit t result owner task context now => exact hsubmit t result owner task context now rfl
  | execute m now =>
    cases he : n.executor with
    | none => simp [sends, execute, he]
    | some executor =>
      simp only [sends, execute, he]
      exact hsubmit _ _ _ _ _ _ (by simp [news?, he])
  | handle m now =>
    cases hk : m.kind with
    | result =>
      have hnews : n.news? (.handle m now) =
          some (m.taskId, .vote m.sender ((m.payload.text? "result").getD "")
            (m.payload.text? "owner") "" Dict.empty false, now) := by
        simp only [news?, hk]
      simp only [sends, handle, hk]
      rw [onResult_eq h.participants_pos]
      exact announcements_vote_le h hnews _
    | task | consensus | heartbeat =>
      simp [sends, handle, hk, onTask, onConsensus, onHeartbeat]
  | setParticipants | contact | await | leave => exact Nat.zero_le _

/-- An agent that began with an empty ledger has decided a task as often as it has dropped its ballot,
and once more if it holds a result now; it has told the others of a result no more often. Until its
ballot is dropped, no result of a task turns into another or into none, and where everything is kept
no ballot is dropped at all. -/
theorem decided_per_drop (id : String) (peers : List Peer) (executor : Option Executor)
    (participants : Option Nat) (aggregate : Aggregator) (retention : Retention)
    (taskId : String) (ops : List Op) :
    let n := build id peers executor participants (Ledger.empty aggregate retention)
    n.decisions taskId ops =
        n.droppings taskId ops + ((n.run ops).result? taskId).isSome.toNat ∧
      n.announcements taskId ops ≤ n.decisions taskId ops ∧
      (∀ past later r, ops = past ++ later → (n.run past).result? taskId = some r →
        (n.run past).droppings taskId later = 0 → (n.run ops).result? taskId = some r) ∧
      (retention.isUnbounded = true → n.droppings taskId ops = 0) := by
  intro n
  have hs : n.Sound := sound_build id peers executor participants aggregate retention
  refine ⟨?_, tally_le n hs (fun n op h => countP_sends_le h op) ops, ?_, fun hu => ?_⟩
  · have hbalance : n.decisions taskId ops + (n.result? taskId).isSome.toNat =
        n.droppings taskId ops + ((n.run ops).result? taskId).isSome.toNat := decisions_balance hs ops
    have hopen : n.result? taskId = none := rfl
    rwa [hopen, Option.isSome_none, Bool.toNat_false, Nat.add_zero] at hbalance
  · rintro past later r rfl hr hkeep
    rw [run_append]
    exact result?_run (hs.run past) hr hkeep
  · exact droppings_of_unbounded hs hu ops

/-- A run in which one result is kept only, and an answer comes again and another one late: the first
result of `t` makes room for that of `u`. -/
def crowded : List Op :=
  let told (sender taskId result : String) (k : Nat) : Op :=
    .handle ⟨.result, sender, taskId, Dict.ofList [("result", .str result)]⟩ (Instant.ofNanos k)
  [told "b" "t" "1" 0, told "c" "t" "2" 1, told "b" "u" "1" 2, told "c" "u" "2" 3,
   told "b" "t" "1" 4, told "d" "t" "4" 5]

def forgetful : Node :=
  build "a" [] none (some 2) (Ledger.empty transcript ⟨some 1, none⟩)

theorem decided_per_drop_crowded :
    forgetful.droppings "t" crowded = 1 ∧ forgetful.decisions "t" crowded = 2 ∧
      (forgetful.run (crowded.take 3)).result? "t" = some "🤝 Consensus result\nb: 1\nc: 2" := by
  have hdropped : forgetful.droppings "t" crowded = 1 := by decide
  have hheld : ((forgetful.run crowded).result? "t").isSome = true := by decide
  have hpace : forgetful.decisions "t" crowded =
      forgetful.droppings "t" crowded + ((forgetful.run crowded).result? "t").isSome.toNat :=
    (decided_per_drop "a" [] none (some 2) transcript ⟨some 1, none⟩ "t" crowded).1
  have hstays := (decided_per_drop "a" [] none (some 2) transcript ⟨some 1, none⟩ "t"
    (crowded.take 3)).2.2.1
  refine ⟨hdropped, ?_, ?_⟩
  · rw [hpace, hdropped, hheld]
    rfl
  · exact hstays (crowded.take 2) ((crowded.drop 2).take 1) _ rfl (by decide) (by decide)

/-- A task whose ballot was dropped goes back to being open, is decided again and announced again, with
another result. -/
theorem decided_twice :
    (forgetful.run (crowded.take 2)).result? "t" = some "🤝 Consensus result\nb: 1\nc: 2" ∧
      ((forgetful.run (crowded.take 5)).ballot? "t").map (·.result) = some none ∧
      (forgetful.run crowded).result? "t" = some "🤝 Consensus result\nb: 1\nd: 4" ∧
      forgetful.decisions "t" crowded = 2 ∧ forgetful.announcements "t" crowded = 2 := by
  decide

end AgentMesh.Node
