import AgentMesh.Proofs.Consensus.Limit
import AgentMesh.Proofs.Node.Answers
import AgentMesh.Proofs.Node.Mirror
import AgentMesh.Proofs.Node.Turnover

/-!
What limits on finished ballots do to an agent. No more final ballots stay than the limit allows, and an
agent with limits differs from one without them by nothing but the tasks it drops, which are finished
(`Node.retention_bounds_finals`).
-/

namespace AgentMesh

namespace Docket

variable (d : Docket) (aggregate : Aggregator) (participants : Nat) (now : Instant) (news : News)

theorem isFinal_learn_of_fixed (h : (d.learn aggregate participants now news).1 = true) :
    (d.learn aggregate participants now news).2.ballot.isFinal = true := by
  cases news with
  | task owner task context => cases h
  | vote agent response owner task context own =>
    obtain ⟨result, hr, -⟩ := Ballot.vote_newlyFinal h
    have hb : (d.learn aggregate participants now
        (.vote agent response owner task context own)).2.ballot.result = some result := hr
    rw [Ballot.isFinal, hb]
    rfl
  | result result owner => exact Ballot.isFinal_finalize _ _ _

theorem isFinal_learn_of_not_fixed (h : (d.learn aggregate participants now news).1 = false) :
    (d.learn aggregate participants now news).2.ballot.isFinal = d.ballot.isFinal := by
  cases news with
  | task owner task context => rfl
  | vote agent response owner task context own =>
    let b := d.ballot.widen (owner.filter (!·.isEmpty)) participants task context
    have hnot : (b.vote aggregate agent response now).1.newlyFinal = false := h
    change (b.vote aggregate agent response now).2.isFinal = b.isFinal
    cases hr : b.result with
    | some result => rw [Ballot.vote_of_result hr]
    | none =>
      by_cases hlt : (b.responses.insert agent response).size < b.expected
      · rw [Ballot.vote_of_lt hr hlt]
        rfl
      · rw [Ballot.vote_of_le hr (Nat.not_lt.mp hlt)] at hnot
        cases hnot
  | result result owner => cases h

end Docket

namespace Ledger

variable {l : Ledger} {t u : String} {participants : Nat} {news : News} {now : Instant}

def unlimited (l : Ledger) : Ledger :=
  { l with box := { l.box with retention := Retention.unbounded } }

theorem Mirrored.valid (h : l.Mirrored) : l.box.Valid := by
  intro t b hb
  have hd := (h.docket t default).valid
  rwa [Ledger.docket, BallotBox.held_of_some hb] at hd

theorem unlimited_learn (l : Ledger) :
    l.unlimited.learn participants t news now =
      (l.commit t ((l.docket t now).learn l.box.aggregate participants now news).2).unlimited :=
  pruneIf_commit rfl _ _ t now

theorem learn_spares (h : l.Mirrored) (participants : Nat) (t : String) (news : News)
    (now : Instant) (u : String) :
    let kept := l.unlimited.learn participants t news now
    let left := l.learn participants t news now
    (left.box.get? u = kept.box.get? u ∧ left.records.get? u = kept.records.get? u) ∨
      ((∃ b, kept.box.get? u = some b ∧ b.isFinal = true) ∧
        (∃ r, kept.records.get? u = some r ∧ r.status = .consensus) ∧
        left.box.get? u = none ∧ left.records.get? u = none) := by
  intro kept left
  let d := (l.docket t now).learn l.box.aggregate participants now news
  have hkept : kept = (l.commit t d.2).unlimited := unlimited_learn l
  have hc : (l.commit t d.2).Mirrored :=
    h.commit ((h.docket t now).learn l.box.aggregate participants now news)
  have hbox : left.box.get? u =
      if d.1 = true ∧ u ∈ (l.commit t d.2).box.evictions (some t) now then none
      else (l.commit t d.2).box.get? u := get?_pruneIf d.1 t
  have hrec : left.records.get? u =
      if d.1 = true ∧ u ∈ (l.commit t d.2).box.evictions (some t) now then none
      else (l.commit t d.2).records.get? u := records_get?_pruneIf d.1 t
  rw [hbox, hrec, hkept]
  by_cases hgone : d.1 = true ∧ u ∈ (l.commit t d.2).box.evictions (some t) now
  · right
    obtain ⟨-, -, b, hb, hf⟩ := BallotBox.mem_evictions hc.valid hgone.2
    obtain ⟨r, hr⟩ := Option.isSome_iff_exists.mp ((hc.isSome_records u).mpr (by simp [hb]))
    have hstatus := (hc.docket u now).status_iff
    rw [show (l.commit t d.2).docket u now = ⟨b, r⟩ by
      simp [docket, BallotBox.held, hb, hr]] at hstatus
    exact ⟨⟨b, hb, hf⟩, ⟨r, hr, hstatus.mpr hf⟩, if_pos hgone, if_pos hgone⟩
  · exact Or.inl ⟨if_neg hgone, if_neg hgone⟩

theorem finals_learn_le (h : l.Mirrored) {m : Nat} (hm : l.box.retention.maxFinalized = some m)
    (hle : l.box.finals ≤ max 1 m) (participants : Nat) (t : String) (news : News)
    (now : Instant) : (l.learn participants t news now).box.finals ≤ max 1 m := by
  let d := (l.docket t now).learn l.box.aggregate participants now news
  have hc : (l.commit t d.2).Mirrored :=
    h.commit ((h.docket t now).learn l.box.aggregate participants now news)
  change ((l.commit t d.2).pruneIf d.1 t now).box.finals ≤ max 1 m
  cases hfixed : d.1 with
  | true => exact BallotBox.finals_prune_le hc.valid hm
  | false =>
    have hsame : d.2.ballot.isFinal = (l.box.held t now).isFinal :=
      Docket.isFinal_learn_of_not_fixed _ _ _ _ _ hfixed
    have hput := l.box.finals_put t d.2.ballot
    change (l.commit t d.2).box.finals ≤ max 1 m
    have hbox : (l.commit t d.2).box = l.box.put t d.2.ballot := rfl
    rw [hbox]
    cases hb : l.box.get? t with
    | none =>
      have hopen : d.2.ballot.isFinal = false := by
        rw [hsame, BallotBox.held, hb]
        rfl
      rw [hb, hopen] at hput
      simp at hput
      omega
    | some b =>
      rw [BallotBox.held_of_some hb] at hsame
      rw [hb, hsame] at hput
      cases hf : b.isFinal <;> simp [hf] at hput <;> omega

end Ledger

namespace Node

def unlimited (n : Node) : Node := { n with ledger := n.ledger.unlimited }

/-- An operation fixes the result of a task, by the last vote, or takes over one that was fixed
elsewhere. -/
def Settles (n : Node) (taskId : String) (op : Op) : Prop :=
  op.about? = some taskId ∧
    ((∃ receipt, n.receipt? op = some receipt ∧ receipt.newlyFinal = true) ∨
      ∃ m now, op = .handle m now ∧ m.kind = .consensus)

variable {n : Node} {op : Op} {t : String}

theorem Settles.news (hp : 1 ≤ n.participants) (h : n.Settles t op) :
    ∃ news now, n.news? op = some (t, news, now) ∧
      ((n.ledger.docket t now).learn n.ledger.box.aggregate n.participants now news).1 = true := by
  obtain ⟨habout, ⟨receipt, hr, hnew⟩ | ⟨m, now, rfl, hk⟩⟩ := h
  · obtain ⟨t', agent, response, owner, task, context, own, now, hnews, rfl⟩ :=
      receipt?_eq_some hp hr
    have ht : t' = t := Option.some.inj ((about?_of_news hnews).symm.trans habout)
    subst t'
    exact ⟨_, now, hnews, hnew⟩
  · have ht : m.taskId = t := Option.some.inj habout
    subst t
    exact ⟨.result _ _, now, by simp only [news?, hk]; rfl, rfl⟩

theorem mirrored_run (id : String) (peers : List Peer) (executor : Option Executor)
    (participants : Option Nat) (aggregate : Aggregator) (retention : Retention) (ops : List Op) :
    ((build id peers executor participants
      (Ledger.empty aggregate retention)).run ops).ledger.Mirrored :=
  ledger_run (fun _ participants taskId news now _ h => h.learn participants taskId news now)
    (Nat.le_max_left 1 _) (Ledger.mirrored_empty aggregate retention) ops

theorem finals_run_le (id : String) (peers : List Peer) (executor : Option Executor)
    (participants : Option Nat) (aggregate : Aggregator) {retention : Retention} {m : Nat}
    (hm : retention.maxFinalized = some m) (ops : List Op) :
    ((build id peers executor participants
      (Ledger.empty aggregate retention)).run ops).ledger.box.finals ≤ max 1 m := by
  let P (l : Ledger) : Prop :=
    l.Mirrored ∧ l.box.retention = retention ∧ l.box.finals ≤ max 1 m
  have hP : P ((build id peers executor participants
      (Ledger.empty aggregate retention)).run ops).ledger := by
    refine ledger_run (P := P) ?_ (Nat.le_max_left 1 _) ?_ ops
    · rintro l participants taskId news now - ⟨hmir, hret, hle⟩
      exact ⟨hmir.learn participants taskId news now, Ledger.learn_box.2.trans hret,
        Ledger.finals_learn_le hmir (hret ▸ hm) hle participants taskId news now⟩
    · exact ⟨Ledger.mirrored_empty aggregate retention, rfl, Nat.zero_le _⟩
  exact hP.2.2

/-- After every run of an agent that began with an empty ledger there are no more final ballots than its
limit allows, and one at least. An operation that fixes a result or takes one over leaves the ballot and
the record of its task final. Beside an agent that did the same from the same state without limits, an
operation leaves every ballot and every record as they are there, except that it may take away both of a
task that is finished. -/
theorem retention_bounds_finals (id : String) (peers : List Peer) (executor : Option Executor)
    (participants : Option Nat) (aggregate : Aggregator) (retention : Retention)
    (ops : List Op) :
    let n := (build id peers executor participants (Ledger.empty aggregate retention)).run ops
    (∀ m, retention.maxFinalized = some m → n.ledger.box.finals ≤ max 1 m) ∧
    ∀ op,
      (∀ t, n.Settles t op → ∃ b r, (n.apply op).ballot? t = some b ∧ b.isFinal = true ∧
        (n.apply op).record? t = some r ∧ r.status = .consensus) ∧
      let kept := n.unlimited.apply op
      ∀ t, ((n.apply op).ballot? t = kept.ballot? t ∧ (n.apply op).record? t = kept.record? t) ∨
        ((∃ b, kept.ballot? t = some b ∧ b.isFinal = true) ∧
          (∃ r, kept.record? t = some r ∧ r.status = .consensus) ∧
          (n.apply op).ballot? t = none ∧ (n.apply op).record? t = none) := by
  intro n
  have hs : n.Sound := (sound_build id peers executor participants aggregate retention).run ops
  have hmir : n.ledger.Mirrored := mirrored_run id peers executor participants aggregate retention ops
  refine ⟨fun m hm => finals_run_le id peers executor participants aggregate hm ops,
    fun op => ⟨fun t hsettles => ?_, fun t => ?_⟩⟩
  · obtain ⟨news, now, hnews, hfixed⟩ := hsettles.news hs.participants_pos
    have hb := ballot_of_news hs hnews
    have hf := Docket.isFinal_learn_of_fixed _ _ _ _ _ hfixed
    rw [Docket.learn_ballot] at hf
    have hafter : (n.apply op).ledger.Mirrored := by
      rw [ledger_apply hs.participants_pos, hnews]
      exact hmir.learn n.participants t news now
    obtain ⟨r, hr⟩ := Option.isSome_iff_exists.mp
      ((hafter.isSome_records t).mpr (Option.isSome_iff_exists.mpr ⟨_, hb⟩))
    have hstatus := (hafter.docket t now).status_iff
    have hd : (n.apply op).ledger.docket t now = ⟨_, r⟩ :=
      congrArg₂ Docket.mk (BallotBox.held_of_some hb now) (by rw [hr]; rfl)
    rw [hd] at hstatus
    exact ⟨_, r, hb, hf, hr, hstatus.mpr hf⟩
  · simp only [ballot?, record?, ledger_apply hs.participants_pos op,
      ledger_apply (n := n.unlimited) hs.participants_pos op]
    have hsame : n.unlimited.news? op = n.news? op := by cases op <;> rfl
    rw [hsame]
    cases n.news? op with
    | none => exact Or.inl ⟨rfl, rfl⟩
    | some x => exact Ledger.learn_spares hmir n.participants x.1 x.2.1 x.2.2 t

def pressing : List Op :=
  let told (sender taskId result : String) (k : Nat) : Op :=
    .handle ⟨.result, sender, taskId, Dict.ofList [("result", .str result)]⟩ (Instant.ofNanos k)
  [told "b" "t" "1" 1, told "c" "t" "2" 2, told "b" "u" "1" 3, told "b" "v" "1" 4]

/-- One result is kept only, and the clock runs backwards: the vote that decides `u` drives out the
result of `t`, though it is the younger one, and leaves alone `v`, which lacks a vote. -/
theorem retention_bounds_finals_backwards :
    let last : Op :=
      .handle ⟨.result, "c", "u", Dict.ofList [("result", .str "2")]⟩ (Instant.ofNanos 0)
    let n := forgetful.run pressing
    n.ledger.box.finals ≤ 1 ∧ n.Settles "u" last ∧
      (∃ b r, (n.apply last).ballot? "u" = some b ∧ b.isFinal = true ∧
        (n.apply last).record? "u" = some r ∧ r.status = .consensus) ∧
      (n.apply last).ballot? "t" = none ∧ (n.apply last).record? "t" = none ∧
      ((n.apply last).ballot? "v").map (·.isFinal) = some false ∧
      (n.apply last).record? "v" = (n.unlimited.apply last).record? "v" := by
  intro last n
  have hmain := retention_bounds_finals "a" [] none (some 2) transcript ⟨some 1, none⟩ pressing
  have hone : n.ledger.box.finals ≤ 1 := le_trans (hmain.1 1 rfl) (by decide)
  have hsettles : n.Settles "u" last := ⟨rfl, Or.inl ⟨_, rfl, by decide⟩⟩
  have hdecided := (hmain.2 last).1 "u" hsettles
  have hpending : ((n.apply last).ballot? "v").map (·.isFinal) = some false := by decide
  have hgone : (n.apply last).ballot? "t" = none ∧ (n.apply last).record? "t" = none := by
    have hafter : ((n.apply last).ballot? "t").isSome = false := by decide
    have hbefore : ((n.unlimited.apply last).ballot? "t").isSome = true := by decide
    rcases (hmain.2 last).2 "t" with ⟨hsame, -⟩ | ⟨-, -, hgone⟩
    · have hkept : ((n.apply last).ballot? "t").isSome = true :=
        (congrArg Option.isSome hsame).trans hbefore
      rw [hafter] at hkept
      cases hkept
    · exact hgone
  have hspared : (n.apply last).record? "v" = (n.unlimited.apply last).record? "v" := by
    rcases (hmain.2 last).2 "v" with ⟨-, hsame⟩ | ⟨-, -, hnone, -⟩
    · exact hsame
    · have hdropped : ((n.apply last).ballot? "v").map (·.isFinal) = none :=
        congrArg (Option.map (·.isFinal)) hnone
      rw [hdropped] at hpending
      cases hpending
  exact ⟨hone, hsettles, hdecided, hgone.1, hgone.2, hpending, hspared⟩

end Node

end AgentMesh
