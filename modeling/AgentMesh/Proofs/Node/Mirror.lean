import AgentMesh.Proofs.Consensus.Finality
import AgentMesh.Proofs.Node.Ballots

/-!
The audit records of an agent mirror its ballots: there is one for each, it tells the same task, and
it is closed with the same result at the same time (`Node.records_mirror_ballots`). Record and ballot
are changed in different orders and by different rules, and votes after the result reach the record
only.
-/

namespace AgentMesh

namespace Docket

/-- The record of a task tells what its ballot holds. -/
structure Mirrored (taskId : String) (d : Docket) : Prop where
  valid : d.ballot.Valid taskId
  task_eq : d.record.task = d.ballot.task
  context_eq : d.record.context = d.ballot.context
  status_iff : d.record.status = .consensus ↔ d.ballot.isFinal = true
  closed : d.ballot.isFinal = true →
    d.record.result = d.ballot.result ∧ d.record.finalizedAt = d.ballot.finalizedAt
  -- till there is a result the votes are the same, later ones are noted in the record alone
  pending : d.ballot.result = none → d.record.responses = d.ballot.responses
  heard : ∀ agent, (d.ballot.responses.get? agent).isSome →
    (d.record.responses.get? agent).isSome

theorem mirrored_blank (taskId : String) (now : Instant) :
    Mirrored taskId ⟨Ballot.blank taskId now, AuditRecord.blank taskId now⟩ :=
  { valid := Ballot.valid_blank taskId now, task_eq := rfl, context_eq := rfl
    status_iff := by simp [AuditRecord.blank, AuditRecord.opened, Ballot.blank, Ballot.opened,
      Ballot.isFinal]
    closed := fun h => by simp [Ballot.blank, Ballot.opened, Ballot.isFinal] at h
    pending := fun _ => rfl, heard := fun _ h => h }

variable {taskId : String} {d : Docket}

theorem Mirrored.widen (h : d.Mirrored taskId) (owner : Option String) (participants : Nat)
    (task : String) (context : Fields) :
    (d.widen owner participants task context).Mirrored taskId :=
  { valid := h.valid.widen _ participants task context
    task_eq := widen_task owner participants task context h.task_eq
    context_eq := widen_context owner participants task context h.context_eq
    status_iff := h.status_iff, closed := h.closed, pending := h.pending, heard := h.heard }

theorem Mirrored.announce (h : d.Mirrored taskId) (owner : Option String) (participants : Nat)
    (task : String) (context : Fields) :
    (d.announce owner participants task context).Mirrored taskId :=
  { valid := h.valid.widen _ participants task context
    task_eq := by simp [Docket.announce, AuditRecord.merge, Ballot.widen, h.task_eq]
    context_eq := by simp [Docket.announce, AuditRecord.merge, Ballot.widen, h.context_eq]
    status_iff := h.status_iff, closed := h.closed, pending := h.pending, heard := h.heard }

theorem Mirrored.markConsensus (h : d.Mirrored taskId) (hf : d.ballot.isFinal = true)
    (now : Instant) :
    Mirrored taskId
      { d with record := d.record.markConsensus d.ballot.result d.ballot.finalizedAt now } := by
  have hat : d.ballot.finalizedAt.isSome := by
    rw [h.valid.isSome_finalizedAt]
    exact hf
  obtain ⟨at_, hat⟩ := Option.isSome_iff_exists.mp hat
  exact
    { valid := h.valid, task_eq := h.task_eq, context_eq := h.context_eq
      status_iff := ⟨fun _ => hf, fun _ => rfl⟩
      closed := fun _ => ⟨rfl, by simp [AuditRecord.markConsensus, hat]⟩
      pending := h.pending, heard := h.heard }

section Vote

variable {aggregate : Aggregator} {agent response : String} {now : Instant}

theorem Mirrored.note (h : d.Mirrored taskId) (hf : d.ballot.isFinal = true)
    (agent response : String) :
    Mirrored taskId { d with record := d.record.noteResponse agent response } := by
  obtain ⟨result, hr⟩ := Option.isSome_iff_exists.mp hf
  refine
    { valid := h.valid, task_eq := h.task_eq, context_eq := h.context_eq
      status_iff := h.status_iff, closed := h.closed
      pending := fun hn => by simp [hr] at hn
      heard := fun k hk => ?_ }
  change ((d.record.responses.insert agent response).get? k).isSome
  rw [Dict.get?_insert]
  split
  · rfl
  · exact h.heard k hk

theorem vote_eq (aggregate : Aggregator) (agent response : String) (now : Instant) :
    d.vote aggregate agent response now =
      ((d.ballot.vote aggregate agent response now).1,
        ⟨(d.ballot.vote aggregate agent response now).2, d.record.noteResponse agent response⟩) :=
  rfl

theorem Mirrored.vote_of_result (h : d.Mirrored taskId) {result : String}
    (hr : d.ballot.result = some result) (marked : Bool) :
    let v := d.vote aggregate agent response now
    (v.2.close marked v.1 now).Mirrored taskId := by
  have hf : d.ballot.isFinal = true := by simp [Ballot.isFinal, hr]
  have hnote := h.note hf agent response
  rw [vote_eq, Ballot.vote_of_result hr]
  cases marked with
  | false => exact hnote
  | true =>
    have hc := hnote.markConsensus hf now
    simp only [hr] at hc
    exact hc

theorem Mirrored.vote_of_lt (h : d.Mirrored taskId) (hr : d.ballot.result = none)
    (hlt : (d.ballot.responses.insert agent response).size < d.ballot.expected) :
    (d.vote aggregate agent response now).2.Mirrored taskId := by
  have hresp := h.pending hr
  have hvalid : (d.ballot.vote aggregate agent response now).2.Valid taskId := h.valid.vote
  rw [Ballot.vote_of_lt hr hlt] at hvalid
  rw [vote_eq, Ballot.vote_of_lt hr hlt]
  exact
    { valid := hvalid, task_eq := h.task_eq, context_eq := h.context_eq
      status_iff := h.status_iff, closed := h.closed
      pending := fun _ => by simp [AuditRecord.noteResponse, Ballot.record, hresp]
      heard := fun k hk => by simpa [AuditRecord.noteResponse, Ballot.record, hresp] using hk }

theorem Mirrored.vote_of_le (h : d.Mirrored taskId) (hr : d.ballot.result = none)
    (hle : d.ballot.expected ≤ (d.ballot.responses.insert agent response).size) :
    let v := d.vote aggregate agent response now
    (v.2.close true v.1 now).Mirrored taskId := by
  have hresp := h.pending hr
  have hvalid : (d.ballot.vote aggregate agent response now).2.Valid taskId := h.valid.vote
  rw [Ballot.vote_of_le hr hle] at hvalid
  rw [vote_eq, Ballot.vote_of_le hr hle]
  exact
    { valid := hvalid, task_eq := h.task_eq, context_eq := h.context_eq
      status_iff := ⟨fun _ => rfl, fun _ => rfl⟩
      closed := fun _ => ⟨rfl, rfl⟩
      pending := fun hn => by simp [close] at hn
      heard := fun k hk => by
        simpa [close, AuditRecord.markConsensus, AuditRecord.noteResponse, Ballot.record,
          hresp] using hk }

/-- A vote keeps ballot and record alike, if the record is closed by the vote that fixes the result,
and at no vote before it. -/
theorem Mirrored.vote (h : d.Mirrored taskId) {marks : Receipt → Bool}
    (hnew : ∀ r, r.newlyFinal = true → marks r = true)
    (hready : ∀ r, marks r = true → r.ready = true) :
    let v := d.vote aggregate agent response now
    (v.2.close (marks v.1) v.1 now).Mirrored taskId := by
  intro v
  cases hr : d.ballot.result with
  | some result => exact h.vote_of_result hr _
  | none =>
    by_cases hlt : (d.ballot.responses.insert agent response).size < d.ballot.expected
    · have hnot : v.1.ready = false := by
        simp only [v, vote_eq, Ballot.vote_of_lt hr hlt]
      have hm : marks v.1 = false :=
        Bool.eq_false_iff.mpr fun hm => Bool.false_ne_true (hnot.symm.trans (hready _ hm))
      rw [hm]
      exact h.vote_of_lt hr hlt
    · have hle := Nat.not_lt.mp hlt
      have hm : marks v.1 = true := by
        apply hnew
        simp only [v, vote_eq, Ballot.vote_of_le hr hle]
        rfl
      rw [hm]
      exact h.vote_of_le hr hle

end Vote

theorem Mirrored.finalize (h : d.Mirrored taskId) (result : String) (now : Instant) :
    let b := d.ballot.finalize result now
    Mirrored taskId ⟨b, d.record.markConsensus b.result b.finalizedAt now⟩ := by
  intro b
  cases hr : d.ballot.result with
  | some x =>
    have hf : d.ballot.isFinal = true := by simp [Ballot.isFinal, hr]
    rw [show b = d.ballot from Ballot.finalize_of_isFinal hf result now]
    exact h.markConsensus hf now
  | none =>
    have hb : b = { d.ballot with
        result := some result, finalizedAt := some now, signal := some result } :=
      Ballot.finalize_of_none hr result now
    have hvalid : b.Valid taskId := h.valid.finalize result now
    rw [hb] at hvalid ⊢
    exact
      { valid := hvalid, task_eq := h.task_eq, context_eq := h.context_eq
        status_iff := ⟨fun _ => rfl, fun _ => rfl⟩
        closed := fun _ => ⟨rfl, rfl⟩
        pending := fun hn => by simp at hn
        heard := h.heard }

theorem Mirrored.adopt (h : d.Mirrored taskId) (result : String) (owner : Option String)
    (now : Instant) : (d.adopt result owner now).Mirrored taskId := by
  let b := d.ballot.finalize result now
  have hb : b.task = d.ballot.task ∧ b.context = d.ballot.context := by
    simp only [b, Ballot.finalize]
    split <;> exact ⟨rfl, rfl⟩
  -- the record is told once more what it says already, so at most its owner changes
  have hm : d.record.merge (b.owner <|> owner) b.task b.context =
      { d.record with
        owner := (d.record.merge (b.owner <|> owner) b.task b.context).owner } := by
    simp [AuditRecord.merge, hb, h.task_eq, h.context_eq]
  have hd : d.adopt result owner now = ⟨b, (d.record.merge (b.owner <|> owner) b.task
      b.context).markConsensus b.result b.finalizedAt now⟩ := by
    simp only [Docket.adopt, Ballot.widen_nothing _ h.valid.expected_pos]
    rfl
  have ho : Mirrored taskId ⟨d.ballot, { d.record with
      owner := (d.record.merge (b.owner <|> owner) b.task b.context).owner }⟩ :=
    { valid := h.valid, task_eq := h.task_eq, context_eq := h.context_eq
      status_iff := h.status_iff, closed := h.closed, pending := h.pending, heard := h.heard }
  rw [hd, hm]
  exact ho.finalize result now

theorem Mirrored.learn (h : d.Mirrored taskId) (aggregate : Aggregator) (participants : Nat)
    (now : Instant) (news : News) :
    (d.learn aggregate participants now news).2.Mirrored taskId := by
  cases news with
  | task owner task context => exact h.announce owner participants task context
  | vote agent response owner task context own =>
    have hw := h.widen owner participants task context
    cases own with
    | false => exact hw.vote (fun _ hr => hr) fun _ => Receipt.ready_of_newlyFinal
    | true => exact hw.vote (fun _ => Receipt.ready_of_newlyFinal) fun _ hr => hr
  | result result owner => exact h.adopt result owner now

end Docket

namespace Ledger

/-- Ballots and records belong together, one by one. -/
structure Mirrored (l : Ledger) : Prop where
  isSome_records : ∀ t, (l.records.get? t).isSome ↔ (l.box.get? t).isSome
  docket : ∀ t now, (l.docket t now).Mirrored t

theorem mirrored_empty (aggregate : Aggregator) (retention : Retention) :
    (empty aggregate retention).Mirrored :=
  { isSome_records := fun _ => Iff.rfl
    docket := fun t now => by
      rw [docket_of_none rfl rfl]
      exact Docket.mirrored_blank t now }

variable {l : Ledger}

theorem Mirrored.commit (h : l.Mirrored) {taskId : String} {d : Docket}
    (hd : d.Mirrored taskId) : (l.commit taskId d).Mirrored := by
  refine { isSome_records := fun t => ?_, docket := fun t now => ?_ }
  · rw [get?_commit, records_get?_commit]
    split
    · simp
    · exact h.isSome_records t
  · rw [docket_commit]
    split
    · next ht => exact ht ▸ hd
    · exact h.docket t now

theorem Mirrored.pruneIf (h : l.Mirrored) (condition : Bool) (keep : String) (at_ : Instant) :
    (l.pruneIf condition keep at_).Mirrored := by
  refine { isSome_records := fun t => ?_, docket := fun t now => ?_ }
  · rw [get?_pruneIf, records_get?_pruneIf]
    split
    · exact Iff.rfl
    · exact h.isSome_records t
  · rcases l.docket_pruneIf condition keep at_ t now with hd | hd
    · rw [hd]
      exact h.docket t now
    · rw [hd]
      exact Docket.mirrored_blank t now

theorem Mirrored.learn (h : l.Mirrored) (participants : Nat) (taskId : String) (news : News)
    (now : Instant) : (l.learn participants taskId news now).Mirrored := by
  have hc := h.commit ((h.docket taskId now).learn l.box.aggregate participants now news)
  exact hc.pruneIf _ taskId now

end Ledger

namespace Node

/-- After every run of an agent that began with an empty ledger, its records are those of the tasks
it has ballots on, and each tells what its ballot holds. -/
theorem records_mirror_ballots (id : String) (peers : List Peer) (executor : Option Executor)
    (participants : Option Nat) (aggregate : Aggregator) (retention : Retention)
    (ops : List Op) :
    let l := ((build id peers executor participants
      (Ledger.empty aggregate retention)).run ops).ledger
    l.records.keys = l.box.ballots.keys ∧
      ∀ taskId b, l.box.get? taskId = some b → ∃ r, l.records.get? taskId = some r ∧
        r.task = b.task ∧ r.context = b.context ∧
        (r.status = .consensus ↔ b.isFinal = true) ∧
        (b.isFinal = true → r.result = b.result ∧ r.finalizedAt = b.finalizedAt ∧
          ∀ agent ∈ b.responses.keys, agent ∈ r.responses.keys) ∧
        (b.isFinal = false → r.responses = b.responses) := by
  intro l
  have hl : l.Mirrored :=
    ledger_run (fun _ participants taskId news now _ h => h.learn participants taskId news now)
      (Nat.le_max_left 1 _) (Ledger.mirrored_empty aggregate retention) ops
  refine ⟨Dict.keys_eq hl.isSome_records, fun taskId b hb => ?_⟩
  obtain ⟨r, hr⟩ := Option.isSome_iff_exists.mp ((hl.isSome_records taskId).mpr (by simp [hb]))
  have hd : l.docket taskId default = ⟨b, r⟩ := by
    simp [Ledger.docket, BallotBox.held, hb, hr]
  have h := hl.docket taskId default
  rw [hd] at h
  refine ⟨r, hr, h.task_eq, h.context_eq, h.status_iff, fun hf => ?_, fun hf => ?_⟩
  · obtain ⟨hres, hat⟩ := h.closed hf
    refine ⟨hres, hat, fun agent ha => ?_⟩
    rw [Dict.mem_keys] at ha ⊢
    exact h.heard agent ha
  · exact h.pending (by simpa [Ballot.isFinal] using hf)

/-- A vote overtakes its task, the result comes from elsewhere, and two more votes come after it; the
box keeps one result only, so that of the first task goes, and a task that lacks a vote stays. -/
theorem records_mirror_ballots_overtaken :
    let at_ (k : Nat) := Instant.ofNanos k
    let told (kind : Kind) (sender t : String) (fields : List (String × Json)) : Message :=
      { kind, sender, taskId := t, payload := Dict.ofList fields }
    let ops : List Op :=
      [.submit "t" "1" none "sum" Dict.empty (at_ 0), .setParticipants 3,
       .handle (told .result "b" "u" [("result", .str "2")]) (at_ 1),
       .handle (told .task "c" "u" [("task", .str "sum"), ("owner", .int 5)]) (at_ 2),
       .handle (told .consensus "c" "u" [("result", .str "x")]) (at_ 3),
       .submit "u" "3" none "" Dict.empty (at_ 4),
       .handle (told .result "c" "u" [("owner", .str "c")]) (at_ 5),
       .handle (told .result "b" "v" [("result", .str "4")]) (at_ 6)]
    let l := ((build "a" [] none (some 1) (Ledger.empty transcript ⟨some 1, none⟩)).run ops).ledger
    l.records.keys = ["u", "v"] ∧
      ∃ b r, l.box.get? "u" = some b ∧ b.isFinal = true ∧ l.records.get? "u" = some r ∧
        r.result = b.result ∧ r.finalizedAt = b.finalizedAt ∧
        b.responses.keys = ["b"] ∧ r.responses.keys = ["a", "b", "c"] := by
  intro at_ told ops l
  have hsome : (l.box.get? "u").map (fun b => (b.isFinal, b.responses.keys)) =
      some (true, ["b"]) := by decide
  obtain ⟨b, hb, he⟩ := Option.map_eq_some_iff.mp hsome
  obtain ⟨hf, hvotes⟩ := Prod.mk.injEq .. ▸ he
  obtain ⟨r, hr, -, -, -, hclosed, -⟩ :=
    (records_mirror_ballots "a" [] none (some 1) transcript ⟨some 1, none⟩ ops).2 "u" b hb
  have hrecord : (l.records.get? "u").map (fun r => r.responses.keys) =
      some ["a", "b", "c"] := by decide
  rw [hr] at hrecord
  exact ⟨by decide, b, r, hb, hf, hr, (hclosed hf).1, (hclosed hf).2.1, hvotes,
    Option.some.inj hrecord⟩

end Node

end AgentMesh
