import AgentMesh.Proofs.Node.Ballots

/-!
Owners. Ballot and record both keep the first owner that they are told. The record of a task names the
owner that its ballot names, unless a message that told the result named another one before the ballot
had any (`Node.record_owner_of_ballot_owner`): such an owner is told to the record only
(`Node.owners_differ`).
-/

namespace AgentMesh

namespace Ballot

variable {b : Ballot}

theorem owner_widen (h : b.owner ≠ some "") (owner : Option String) (participants : Nat)
    (task : String) (context : Fields) :
    (b.widen owner participants task context).owner = (b.owner <|> owner) := by
  cases ho : b.owner with
  | none => simp [widen, ho]
  | some o =>
    have hne : o ≠ "" := fun he => h (he ▸ ho)
    simp [widen, ho, hne]

theorem owner_finalize (result : String) (now : Instant) :
    (b.finalize result now).owner = b.owner := by
  unfold finalize
  split <;> rfl

theorem owner_vote (aggregate : Aggregator) (agent response : String) (now : Instant) :
    (b.vote aggregate agent response now).2.owner = b.owner := by
  cases hr : b.result with
  | some result => rw [vote_of_result hr]
  | none =>
    by_cases hlt : (b.responses.insert agent response).size < b.expected
    · rw [vote_of_lt hr hlt]
      rfl
    · rw [vote_of_le hr (Nat.not_lt.mp hlt)]
      rfl

end Ballot

namespace Docket

/-- The record names the owner that the ballot names, or one that it alone was told. -/
structure Attributed (told : String → Prop) (d : Docket) : Prop where
  ballot_ne : d.ballot.owner ≠ some ""
  named : d.record.owner = d.ballot.owner ∨ ∃ x, d.record.owner = some x ∧ told x

variable {told : String → Prop} {d d' : Docket}

theorem attributed_blank (told : String → Prop) (t : String) (now : Instant) :
    Attributed told ⟨Ballot.blank t now, AuditRecord.blank t now⟩ :=
  ⟨nofun, Or.inl rfl⟩

theorem Attributed.mono {told' : String → Prop} (h : d.Attributed told)
    (himp : ∀ x, told x → told' x) : d.Attributed told' :=
  ⟨h.ballot_ne, h.named.imp_right fun ⟨x, hx, htold⟩ => ⟨x, hx, himp x htold⟩⟩

theorem filter_nonempty_ne (owner : Option String) : owner.filter (!·.isEmpty) ≠ some "" := by
  intro h
  have hne := (Option.filter_eq_some_iff.mp h).2
  simp at hne

theorem filter_nonempty_of_ne {owner : Option String} (h : owner ≠ some "") :
    owner.filter (!·.isEmpty) = owner := by
  cases owner with
  | none => rfl
  | some o =>
    have hne : o ≠ "" := fun he => h (he ▸ rfl)
    simp [hne]

theorem orElse_ne {owner owner' : Option String} (h : owner ≠ some "") (h' : owner' ≠ some "") :
    (owner <|> owner') ≠ some "" := by
  cases owner with
  | none => exact h'
  | some o => exact h

theorem Attributed.tell (h : d.Attributed told) {owner : Option String} (hne : owner ≠ some "")
    (hb : d'.ballot.owner = (d.ballot.owner <|> owner))
    (hr : d'.record.owner = (d.record.owner <|> owner)) : d'.Attributed told := by
  refine ⟨?_, ?_⟩
  · rw [hb]
    exact orElse_ne h.ballot_ne hne
  · rcases h.named with hsame | ⟨x, hx, htold⟩
    · left
      rw [hb, hr, hsame]
    · exact Or.inr ⟨x, by rw [hr, hx]; rfl, htold⟩

theorem Attributed.orElse_ballot (h : d.Attributed told) (owner : Option String) :
    (d.record.owner <|> (d.ballot.owner <|> owner)) = (d.record.owner <|> owner) := by
  rcases h.named with hsame | ⟨x, hx, -⟩
  · rw [hsame]
    cases d.ballot.owner <;> rfl
  · rw [hx]
    rfl

variable (aggregate : Aggregator) (participants : Nat) (now : Instant)

theorem Attributed.widen (h : d.Attributed told) (owner : Option String) (task : String)
    (context : Fields) : (d.widen owner participants task context).Attributed told := by
  have hb : (d.widen owner participants task context).ballot.owner =
      (d.ballot.owner <|> owner.filter (!·.isEmpty)) := Ballot.owner_widen h.ballot_ne _ _ _ _
  have hne : (d.ballot.owner <|> owner.filter (!·.isEmpty)) ≠ some "" :=
    orElse_ne h.ballot_ne (filter_nonempty_ne owner)
  refine h.tell (filter_nonempty_ne owner) hb ?_
  calc (d.widen owner participants task context).record.owner
      = (d.record.owner <|>
          (d.widen owner participants task context).ballot.owner.filter (!·.isEmpty)) := rfl
    _ = (d.record.owner <|> (d.ballot.owner <|> owner.filter (!·.isEmpty))) := by
      rw [hb, filter_nonempty_of_ne hne]
    _ = (d.record.owner <|> owner.filter (!·.isEmpty)) := h.orElse_ballot _

theorem Attributed.vote (h : d.Attributed told) (agent response : String)
    (marks : Receipt → Bool) :
    let v := d.vote aggregate agent response now
    (v.2.close (marks v.1) v.1 now).Attributed told := by
  intro v
  have hb : (v.2.close (marks v.1) v.1 now).ballot.owner = d.ballot.owner :=
    Ballot.owner_vote aggregate agent response now
  have hr : (v.2.close (marks v.1) v.1 now).record.owner = d.record.owner := by
    unfold close
    split <;> rfl
  exact ⟨hb ▸ h.ballot_ne, by rw [hb, hr]; exact h.named⟩

theorem Attributed.adopt (h : d.Attributed told) (result : String) (owner : Option String)
    (hnew : ∀ x, owner = some x → d.ballot.owner = none → d.record.owner = none → told x) :
    (d.adopt result owner now).Attributed told := by
  have hb : (d.adopt result owner now).ballot.owner = d.ballot.owner := by
    have hw := Ballot.owner_widen h.ballot_ne none 1 "" Dict.empty
    simp only [Docket.adopt, Ballot.owner_finalize, hw]
    cases d.ballot.owner <;> rfl
  have hr : (d.adopt result owner now).record.owner =
      (d.record.owner <|> (d.ballot.owner <|> owner).filter (!·.isEmpty)) := by
    rw [← hb]
    rfl
  refine ⟨hb ▸ h.ballot_ne, ?_⟩
  rw [hb, hr]
  rcases h.named with hsame | ⟨x, hx, htold⟩
  · rw [hsame]
    cases ho : d.ballot.owner with
    | some o => exact Or.inl rfl
    | none =>
      -- neither names an owner, so the record takes the one that the message names
      cases hf : owner.filter (!·.isEmpty) with
      | none => exact Or.inl hf
      | some x =>
        obtain ⟨hx, -⟩ := Option.filter_eq_some_iff.mp hf
        exact Or.inr ⟨x, hf, hnew x hx ho (hsame.trans ho)⟩
  · exact Or.inr ⟨x, by rw [hx]; rfl, htold⟩

theorem Attributed.learn (h : d.Attributed told) (news : News)
    (hnew : ∀ result x, news = .result result (some x) → d.ballot.owner = none →
      d.record.owner = none → told x) :
    (d.learn aggregate participants now news).2.Attributed told := by
  cases news with
  | task owner task context =>
    exact h.tell (filter_nonempty_ne owner) (Ballot.owner_widen h.ballot_ne _ _ _ _) rfl
  | vote agent response owner task context own =>
    have hw := h.widen participants owner task context
    cases own with
    | false => exact hw.vote aggregate now agent response Receipt.newlyFinal
    | true => exact hw.vote aggregate now agent response Receipt.ready
  | result result owner =>
    exact h.adopt now result owner fun x hx => hnew result x (hx ▸ rfl)

end Docket

namespace Ledger

theorem docket_learn (l : Ledger) (participants : Nat) (u : String) (news : News) (at_ : Instant)
    (t : String) (now : Instant) :
    (l.learn participants u news at_).docket t now =
        (if u = t then ((l.docket u at_).learn l.box.aggregate participants at_ news).2
          else l.docket t now) ∨
      (l.learn participants u news at_).docket t now =
        ⟨Ballot.blank t now, AuditRecord.blank t now⟩ := by
  rw [← docket_commit]
  exact docket_pruneIf _ _ u at_ t now

end Ledger

namespace Node

def ballotOwner? (n : Node) (taskId : String) : Option String :=
  (n.ballot? taskId).bind (·.owner)

def recordOwner? (n : Node) (taskId : String) : Option String :=
  (n.record? taskId).bind (·.owner)

/-- In the course of a run a message told the result of a task, and named an owner of it when neither
its ballot nor its record did. -/
def OwnerByResult (n : Node) (taskId : String) (ops : List Op) (x : String) : Prop :=
  ∃ past m now later, ops = past ++ .handle m now :: later ∧ m.kind = .consensus ∧
    m.taskId = taskId ∧ m.payload.text? "owner" = some x ∧
    (n.run past).ballotOwner? taskId = none ∧ (n.run past).recordOwner? taskId = none

variable {n : Node} {t x : String} {ops : List Op} {op : Op}

theorem docket_owners (n : Node) (t : String) (now : Instant) :
    (n.ledger.docket t now).ballot.owner = n.ballotOwner? t ∧
      (n.ledger.docket t now).record.owner = n.recordOwner? t := by
  unfold Ledger.docket BallotBox.held ballotOwner? recordOwner? ballot? record?
  constructor
  · cases n.ledger.box.get? t <;> rfl
  · cases n.ledger.records.get? t <;> rfl

theorem OwnerByResult.append (h : n.OwnerByResult t ops x) (op : Op) :
    n.OwnerByResult t (ops ++ [op]) x := by
  obtain ⟨past, m, now, later, rfl, h⟩ := h
  exact ⟨past, m, now, later ++ [op], by simp, h⟩

theorem ownerByResult_of_news {result : String} {now : Instant}
    (hnews : n.news? op = some (t, .result result (some x), now))
    (hb : (n.run ops).ballotOwner? t = none) (hr : (n.run ops).recordOwner? t = none) :
    n.OwnerByResult t (ops ++ [op]) x := by
  cases op with
  | handle m at_ =>
    cases hk : m.kind with
    | consensus =>
      simp only [news?, hk, Option.some.injEq, Prod.mk.injEq, News.result.injEq] at hnews
      exact ⟨ops, m, at_, [], rfl, hk, hnews.1, hnews.2.1.2, hb, hr⟩
    | task | result | heartbeat => simp [news?, hk] at hnews
  | execute m at_ => simp [news?] at hnews
  | start | submit | setParticipants | contact | await | leave => simp [news?] at hnews

theorem attributed_run (hs : n.Sound) (hempty : n.ledger.box.ballots = Dict.empty)
    (hrecords : n.ledger.records = Dict.empty) (ops : List Op) (t : String) (now : Instant) :
    ((n.run ops).ledger.docket t now).Attributed (n.OwnerByResult t ops) := by
  -- on the last operation, since who named an owner is read off the whole history
  induction ops using List.reverseRecOn generalizing now with
  | nil =>
    have hb : n.ledger.box.get? t = none := by rw [BallotBox.get?, hempty, Dict.get?_empty]
    have hr : n.ledger.records.get? t = none := by rw [hrecords, Dict.get?_empty]
    rw [run, List.foldl_nil, Ledger.docket_of_none hb hr]
    exact Docket.attributed_blank _ t now
  | append_singleton ops op ih =>
    have hrun : n.run (ops ++ [op]) = (n.run ops).apply op := run_append n ops [op]
    have hkept : ((n.run ops).ledger.docket t now).Attributed
        (n.OwnerByResult t (ops ++ [op])) := (ih now).mono fun x h => h.append op
    rw [hrun, ledger_apply (hs.run ops).participants_pos]
    cases hnews : (n.run ops).news? op with
    | none => exact hkept
    | some news =>
      obtain ⟨u, news, at_⟩ := news
      rcases Ledger.docket_learn (n.run ops).ledger (n.run ops).participants u news at_ t now with
        hd | hd
      · simp only [Option.elim]
        rw [hd]
        by_cases ht : u = t
        · subst u
          rw [if_pos rfl]
          refine ((ih at_).mono fun x h => h.append op).learn _ _ at_ news ?_
          rintro result x rfl hb hr
          obtain ⟨hbo, hro⟩ := docket_owners (n.run ops) t at_
          rw [news?_run] at hnews
          exact ownerByResult_of_news hnews (hbo ▸ hb) (hro ▸ hr)
        · rwa [if_neg ht]
      · simp only [Option.elim]
        rw [hd]
        exact Docket.attributed_blank _ t now

/-- After every run of an agent that began with an empty ledger, a task whose ballot names an owner has
a record that names one too: the same, unless a message that told the result named another before
anything else did. -/
theorem record_owner_of_ballot_owner (id : String) (peers : List Peer) (executor : Option Executor)
    (participants : Option Nat) (aggregate : Aggregator) (retention : Retention)
    (ops : List Op) (t o : String) :
    let n := build id peers executor participants (Ledger.empty aggregate retention)
    (n.run ops).ballotOwner? t = some o →
      (n.run ops).recordOwner? t = some o ∨
        ∃ x, (n.run ops).recordOwner? t = some x ∧ n.OwnerByResult t ops x := by
  intro n ho
  have hs : n.Sound := sound_build id peers executor participants aggregate retention
  have hd := attributed_run hs rfl rfl ops t default
  obtain ⟨hb, hr⟩ := docket_owners (n.run ops) t default
  rcases hd.named with hsame | ⟨x, hx, hnamed⟩
  · exact Or.inl (hr.symm.trans (hsame.trans (hb.trans ho)))
  · exact Or.inr ⟨x, hr.symm.trans hx, hnamed⟩

/-- A message that tells the result of a task names `b` as its owner, and the task is announced later, by
`c`; a second task is announced first. -/
def belated : List Op :=
  [.handle ⟨.consensus, "b", "t", Dict.ofList [("result", .str "r"), ("owner", .str "b")]⟩
      (Instant.ofNanos 0),
   .handle ⟨.task, "c", "t", Dict.ofList [("task", .str "sum"), ("owner", .str "c")]⟩
      (Instant.ofNanos 1),
   .handle ⟨.task, "c", "u", Dict.ofList [("task", .str "sum")]⟩ (Instant.ofNanos 2),
   .handle ⟨.consensus, "b", "u", Dict.ofList [("result", .str "r"), ("owner", .str "b")]⟩
      (Instant.ofNanos 3)]

def listener : Node := build "a" [] none (some 2) (Ledger.empty transcript Retention.unbounded)

theorem record_owner_of_ballot_owner_belated :
    (listener.run belated).ballotOwner? "u" = some "c" ∧
      (listener.run belated).recordOwner? "u" = some "c" ∧
      (listener.run belated).ballotOwner? "t" = some "c" ∧
      ∃ x, (listener.run belated).recordOwner? "t" = some x ∧ x ≠ "c" ∧
        listener.OwnerByResult "t" belated x := by
  have hu : (listener.run belated).ballotOwner? "u" = some "c" := by decide
  have ht : (listener.run belated).ballotOwner? "t" = some "c" := by decide
  have hrt : (listener.run belated).recordOwner? "t" = some "b" := by decide
  have hru : (listener.run belated).recordOwner? "u" = some "c" := by decide
  rcases record_owner_of_ballot_owner "a" [] none (some 2) transcript Retention.unbounded belated
    "t" "c" ht with hsame | ⟨x, hx, hresult⟩
  · exact absurd (hrt.symm.trans hsame) (by decide)
  · obtain rfl : x = "b" := Option.some.inj (hx.symm.trans hrt)
    exact ⟨hu, hru, ht, "b", hrt, by decide, hresult⟩

theorem owners_differ :
    (listener.run (belated.take 2)).ballotOwner? "t" = some "c" ∧
      (listener.run (belated.take 2)).recordOwner? "t" = some "b" := by decide

end Node

end AgentMesh
