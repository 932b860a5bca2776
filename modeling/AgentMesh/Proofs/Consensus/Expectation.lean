import AgentMesh.Proofs.Consensus.Threshold

/-!
What a ballot says of its task is the sum of all that the operations have told, from the first one on
(`BallotBox.terms_run`). Votes and adopted results add nothing to it, be the ballot open or final.
-/

namespace AgentMesh.BallotBox

structure Mention where
  owner : Option String
  participants : Nat
  task : String
  context : Fields

def Op.mention? (taskId : String) : Op → Option Mention
  | .expect t owner participants task context _ =>
    if t = taskId then some ⟨owner, participants, task, context⟩ else none
  | _ => none

def mentions (taskId : String) (ops : List Op) : List Mention :=
  ops.filterMap (Op.mention? taskId)

def toldTask (told : List Mention) : String :=
  told.foldl (fun task m => if task.isEmpty then m.task else task) ""

/-- The contexts of a task, the later over the earlier. -/
def toldContext (told : List Mention) : Fields :=
  told.foldl (fun context m => context.merge m.context) Dict.empty

def terms (b : Ballot) : Mention := ⟨b.owner, b.expected, b.task, b.context⟩

def hear (b : Ballot) (m : Mention) : Ballot :=
  b.widen (m.owner.filter (!·.isEmpty)) m.participants m.task m.context

variable {taskId : String} {box : BallotBox} {ops : List Op} {now : Instant}

theorem terms_hear {b b' : Ballot} (h : terms b = terms b') (m : Mention) :
    terms (hear b m) = terms (hear b' m) := by
  obtain ⟨ho, he, ht, hc⟩ := Mention.mk.inj h
  simp [terms, hear, Ballot.widen, ho, he, ht, hc]

theorem terms_vote (b : Ballot) (aggregate : Aggregator) (agent response : String) (now : Instant) :
    terms (b.vote aggregate agent response now).2 = terms b := by
  cases hr : b.result with
  | some x => rw [Ballot.vote_of_result hr]
  | none =>
    by_cases hlt : (b.responses.insert agent response).size < b.expected
    · rw [Ballot.vote_of_lt hr hlt]
      rfl
    · rw [Ballot.vote_of_le hr (Nat.not_lt.mp hlt)]
      rfl

theorem terms_finalize (b : Ballot) (result : String) (now : Instant) :
    terms (b.finalize result now) = terms b := by
  unfold Ballot.finalize
  split <;> rfl

theorem terms_held (box : BallotBox) (taskId : String) (now later : Instant) :
    terms (box.held taskId now) = terms (box.held taskId later) := by
  unfold held
  cases box.get? taskId <;> rfl

theorem terms_touched (h : 1 ≤ (box.held taskId now).expected) :
    terms (box.touched taskId now) = terms (box.held taskId now) := by
  rw [touched_eq, Ballot.widen_nothing _ h]

theorem mention?_of_not_opens {op : Op} (ho : ¬op.Opens taskId) : op.mention? taskId = none := by
  cases op with
  | expect t owner participants task context now => exact if_neg ho
  | _ => rfl

theorem terms_apply (hpos : ∀ now, 1 ≤ (box.held taskId now).expected) {op : Op}
    (hr : ¬box.Removes taskId op) (now : Instant) :
    terms ((box.apply op).held taskId now) =
      terms ((op.mention? taskId).toList.foldl hear (box.held taskId now)) := by
  by_cases ho : op.Opens taskId
  · cases op with
    | expect t owner participants task context at_ =>
      obtain rfl : t = taskId := ho
      rw [held, get?_expect, if_pos rfl]
      simp only [Op.mention?, if_pos]
      exact terms_hear (terms_held box t at_ now) ⟨owner, participants, task, context⟩
    | respond t agent response at_ =>
      obtain rfl : t = taskId := ho
      rw [held, get?_respond, if_pos rfl]
      calc terms ((box.touched t at_).vote box.aggregate agent response at_).2
        _ = terms (box.touched t at_) := terms_vote _ _ agent response at_
        _ = terms (box.held t at_) := terms_touched (hpos at_)
        _ = terms (box.held t now) := terms_held box t at_ now
    | adopt t result at_ =>
      obtain rfl : t = taskId := ho
      rw [held, get?_adopt, if_pos rfl]
      calc terms ((box.touched t at_).finalize result at_)
        _ = terms (box.touched t at_) := terms_finalize _ result at_
        _ = terms (box.held t at_) := terms_touched (hpos at_)
        _ = terms (box.held t now) := terms_held box t at_ now
    | _ => cases ho
  · rw [held, get?_apply_of_not_opens hr ho, mention?_of_not_opens ho]
    rfl

theorem mentions_concat (op : Op) :
    mentions taskId (ops ++ [op]) = mentions taskId ops ++ (op.mention? taskId).toList := by
  cases hm : op.mention? taskId <;> simp [mentions, hm]

theorem threshold_eq (taskId : String) (ops : List Op) :
    threshold taskId ops = ((mentions taskId ops).map Mention.participants).foldl max 1 := by
  rw [threshold, mentions, List.map_filterMap]
  congr 1
  refine List.filterMap_congr fun op _ => ?_
  cases op with
  | expect t owner participants task context now =>
    by_cases ht : t = taskId <;> simp [Op.mention?, Op.participants?, ht]
  | _ => rfl

theorem expected_foldl_hear (b : Ballot) (told : List Mention) :
    (told.foldl hear b).expected = (told.map Mention.participants).foldl max b.expected := by
  rw [List.foldl_map]
  exact (List.foldl_hom Ballot.expected fun _ _ => rfl).symm

theorem terms_run (hnew : box.get? taskId = none) (hk : Keeps taskId box ops) (now : Instant) :
    terms ((box.run ops).held taskId now) =
      terms ((mentions taskId ops).foldl hear (Ballot.blank taskId now)) := by
  induction ops using List.reverseRecOn generalizing now with
  | nil => simp [run, held, hnew, mentions]
  | append_singleton ops op ih =>
    obtain ⟨hk, hlast, -⟩ := keeps_append.mp hk
    -- one answer at least is expected, so a vote or a result that touches the ballot widens nothing
    have hpos : ∀ now, 1 ≤ ((box.run ops).held taskId now).expected := by
      intro now
      have he : ((box.run ops).held taskId now).expected = threshold taskId ops := by
        rw [threshold_eq]
        exact (congrArg Mention.participants (ih hk now)).trans (expected_foldl_hear _ _)
      exact he ▸ one_le_threshold taskId ops
    rw [run_concat, terms_apply hpos hlast, mentions_concat, List.foldl_append]
    cases hm : op.mention? taskId with
    | none => exact ih hk now
    | some m => exact terms_hear (ih hk now) m

/-- What a ballot says of its task is what the operations have told. -/
structure Told (taskId : String) (ops : List Op) (b : Ballot) : Prop where
  task_eq : b.task = toldTask (mentions taskId ops)
  context_eq : b.context = toldContext (mentions taskId ops)

theorem told_run (hnew : box.get? taskId = none) (hk : Keeps taskId box ops) (now : Instant) :
    Told taskId ops ((box.run ops).held taskId now) := by
  have ht := terms_run hnew hk now
  exact ⟨(congrArg Mention.task ht).trans (List.foldl_hom Ballot.task fun _ _ => rfl).symm,
    (congrArg Mention.context ht).trans (List.foldl_hom Ballot.context fun _ _ => rfl).symm⟩

theorem owner_hear {b : Ballot} (hb : b.owner ≠ some "") (m : Mention) :
    (hear b m).owner = b.owner.or (m.owner.filter (!·.isEmpty)) := by
  cases ho : b.owner with
  | none => simp [hear, Ballot.widen, ho]
  | some owner =>
    have hne : owner ≠ "" := fun he => hb (by rw [ho, he])
    simp [hear, Ballot.widen, ho, hne]

theorem find?_owners_cons (m : Mention) (rest : List Mention) :
    ((m :: rest).filterMap Mention.owner).find? (· ≠ "") =
      (m.owner.filter (!·.isEmpty)).or ((rest.filterMap Mention.owner).find? (· ≠ "")) := by
  rw [List.filterMap_cons]
  cases m.owner with
  | none => rfl
  | some owner => by_cases he : owner = "" <;> simp [Option.filter, he]

theorem owner_foldl_hear {b : Ballot} (hb : b.owner ≠ some "") (told : List Mention) :
    (told.foldl hear b).owner = b.owner.or ((told.filterMap Mention.owner).find? (· ≠ "")) := by
  induction told generalizing b with
  | nil => simp
  | cons m rest ih =>
    have ho := owner_hear hb m
    have hne : (hear b m).owner ≠ some "" := by
      cases hbo : b.owner with
      | some owner => simpa [ho, hbo] using hb
      | none => simp [ho, hbo, Option.filter_eq_some_iff]
    rw [List.foldl_cons, ih hne, ho, Option.or_assoc, find?_owners_cons]

theorem toldTask_eq (told : List Mention) :
    toldTask told = ((told.map Mention.task).find? (· ≠ "")).getD "" := by
  induction told using List.reverseRecOn with
  | nil => rfl
  | append_singleton told m ih =>
    have hlast : toldTask (told ++ [m]) =
        if (toldTask told).isEmpty then m.task else toldTask told := by simp [toldTask]
    rw [hlast, ih, List.map_append, List.find?_append]
    cases hf : (told.map Mention.task).find? (· ≠ "") with
    | none => by_cases hm : m.task = "" <;> simp [hm]
    | some task =>
      have hne : task ≠ "" := by simpa using List.find?_some hf
      simp [hne]

theorem get?_toldContext (told : List Mention) (key : String) :
    (toldContext told).get? key = told.reverse.findSome? (·.context.get? key) := by
  induction told using List.reverseRecOn with
  | nil => rfl
  | append_singleton told m ih =>
    have hlast : toldContext (told ++ [m]) = (toldContext told).merge m.context := by
      simp [toldContext]
    rw [hlast, Dict.get?_merge, ih, List.reverse_append, List.reverse_singleton,
      List.singleton_append, List.findSome?_cons]
    cases m.context.get? key <;> rfl

theorem isSome_apply {op : Op} (hr : ¬box.Removes taskId op) :
    ((box.apply op).get? taskId).isSome ↔ (box.get? taskId).isSome ∨ op.Opens taskId := by
  by_cases ho : op.Opens taskId
  · cases op with
    | expect t owner participants task context now =>
      obtain rfl : t = taskId := ho
      simp [get?_expect, Op.Opens]
    | respond t agent response now =>
      obtain rfl : t = taskId := ho
      simp [get?_respond, Op.Opens]
    | adopt t result now =>
      obtain rfl : t = taskId := ho
      simp [get?_adopt, Op.Opens]
    | _ => cases ho
  · rw [get?_apply_of_not_opens hr ho, or_iff_left ho]

theorem isSome_run (hk : Keeps taskId box ops) :
    ((box.run ops).get? taskId).isSome ↔
      (box.get? taskId).isSome ∨ ∃ op ∈ ops, op.Opens taskId := by
  induction ops generalizing box with
  | nil => simp [run]
  | cons op rest ih =>
    have hrest : ((box.run (op :: rest)).get? taskId).isSome ↔
        ((box.apply op).get? taskId).isSome ∨ ∃ op ∈ rest, op.Opens taskId := ih hk.2
    rw [hrest, isSome_apply hk.1, or_assoc]
    simp

theorem widen_widen (b : Ballot) (owner : Option String) (participants : Nat) (task : String)
    (context : Fields) :
    (b.widen owner participants task context).widen owner participants task context =
      b.widen owner participants task context := by
  have hc := Dict.merge_merge_same b.context context
  by_cases ho : b.owner.getD "" = "" <;> by_cases ht : b.task = "" <;> cases owner <;>
    simp [Ballot.widen, hc, ho, ht]

theorem expect_expect (box : BallotBox) (taskId : String) (owner : Option String)
    (participants : Nat) (task : String) (context : Fields) (now later : Instant) :
    let once := box.expect taskId owner participants task context now
    once.2.expect taskId owner participants task context later = once := by
  intro once
  have honce : once.1 =
      (box.held taskId now).widen (owner.filter (!·.isEmpty)) participants task context :=
    mentioned_eq box taskId owner participants task context now
  have hheld : once.2.held taskId later = once.1 :=
    held_of_some (get?_put_self box taskId once.1) later
  have hagain : once.2.mentioned taskId owner participants task context later = once.1 := by
    rw [mentioned_eq, hheld, honce, widen_widen]
  have hbox : once.2.put taskId once.1 = once.2 := put_put box taskId once.1 once.1
  simp only [expect, hagain]
  exact Prod.ext rfl hbox

/-- A task that is new to a box is told of, voted on and given results in any order, and not removed.
There is a ballot on it as soon as one of that has been done. It expects the greatest number of
participants that was named, one at least; it has the first owner and the first description that are
not empty, and of each part of the context the last value. To repeat what was told changes nothing,
and the order in which it is told does not change the number of participants. -/
theorem expectation_joined (hnew : box.get? taskId = none) (hk : Keeps taskId box ops) :
    let told := mentions taskId ops
    (((box.run ops).get? taskId).isSome ↔ ∃ op ∈ ops, op.Opens taskId) ∧
    (∀ b, (box.run ops).get? taskId = some b →
      b.expected = (told.map Mention.participants).foldl max 1 ∧
      b.owner = (told.filterMap Mention.owner).find? (· ≠ "") ∧
      b.task = ((told.map Mention.task).find? (· ≠ "")).getD "" ∧
      ∀ key, b.context.get? key = told.reverse.findSome? (·.context.get? key)) ∧
    (∀ owner participants task context now later,
      let once := (box.run ops).expect taskId owner participants task context now
      once.2.expect taskId owner participants task context later = once) ∧
    ∀ more, Keeps taskId box more → (mentions taskId more).Perm told →
      ∀ b b', (box.run ops).get? taskId = some b → (box.run more).get? taskId = some b' →
        b'.expected = b.expected := by
  intro told
  have hexpected : ∀ ops, Keeps taskId box ops → ∀ b, (box.run ops).get? taskId = some b →
      b.expected = ((mentions taskId ops).map Mention.participants).foldl max 1 := by
    intro ops hk b hb
    rw [← held_of_some hb default]
    exact (congrArg Mention.participants (terms_run hnew hk default)).trans
      (expected_foldl_hear _ _)
  refine ⟨by simpa [hnew] using isSome_run hk, fun b hb => ⟨hexpected ops hk b hb, ?_, ?_, ?_⟩,
    fun owner participants task context now later => expect_expect _ _ _ _ _ _ _ _, ?_⟩
  · rw [← held_of_some hb default]
    exact (congrArg Mention.owner (terms_run hnew hk default)).trans
      (owner_foldl_hear (by simp [Ballot.blank, Ballot.opened]) told)
  · rw [← held_of_some hb default, (told_run hnew hk default).task_eq, toldTask_eq]
  · intro key
    rw [← held_of_some hb default, (told_run hnew hk default).context_eq, get?_toldContext]
  · intro more hmore hperm b b' hb hb'
    rw [hexpected ops hk b hb, hexpected more hmore b' hb']
    exact (hperm.map Mention.participants).foldl_eq 1

/-- An answer opens and closes the ballot before anything is told, and a result comes in between. -/
theorem expectation_joined_belated :
    let now := Instant.ofNanos 0
    let told (owner : String) (participants : Nat) (task value : String) : Op :=
      .expect "t" (some owner) participants task (Dict.empty.insert "k" (.str value)) now
    let ops : List Op :=
      [.respond "t" "a" "1" now, told "" 5 "" "x", .expect "u" (some "z") 9 "other" Dict.empty now,
       told "b" 2 "sum" "y", .adopt "t" "r" now, told "c" 3 "product" "z"]
    let more : List Op := [told "c" 3 "product" "z", told "" 5 "" "x", told "b" 2 "sum" "y"]
    let box := empty transcript Retention.unbounded
    box.get? "t" = none ∧ Keeps "t" box ops ∧
      ∃ b b', (box.run ops).get? "t" = some b ∧ b.isFinal = true ∧ b.expected = 5 ∧
        b.owner = some "b" ∧ b.task = "sum" ∧ b.context.get? "k" = some (.str "z") ∧
        (box.run more).get? "t" = some b' ∧ b'.owner = some "c" ∧ b'.expected = b.expected := by
  intro now told ops more box
  have hk : Keeps "t" box ops := by simp [ops, told, Keeps, Removes]
  have hk' : Keeps "t" box more := by simp [more, told, Keeps, Removes]
  obtain ⟨-, hsum, -, hperm⟩ := expectation_joined rfl hk
  obtain ⟨hsome, hsum', -⟩ := expectation_joined rfl hk'
  have hfinal : ((box.run ops).get? "t").map Ballot.isFinal = some true := by decide
  obtain ⟨b, hb, hf⟩ := Option.map_eq_some_iff.mp hfinal
  obtain ⟨b', hb'⟩ := Option.isSome_iff_exists.mp (hsome.mpr ⟨_, List.mem_cons_self, rfl⟩)
  obtain ⟨hexpected, howner, htask, hcontext⟩ := hsum b hb
  have hmoved : (mentions "t" more).Perm (mentions "t" ops) :=
    (List.perm_append_singleton _ [_, _]).symm
  exact ⟨rfl, hk, b, b', hb, hf, hexpected, howner, htask, hcontext "k", hb', (hsum' b' hb').2.1,
    hperm more hk' hmoved b b' hb hb'⟩

end AgentMesh.BallotBox
