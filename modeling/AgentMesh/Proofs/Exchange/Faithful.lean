import AgentMesh.Proofs.Exchange.Network

/-!
What an agent of a full mesh may hold of a started task: votes as their agents cast them, the task as
its owner announced it or nothing of it yet, and as the result only the transcript of all votes.
Mentions, votes and adopted results keep that (`Docket.Faithful.widen`, `Docket.Faithful.vote`,
`Docket.Faithful.adopt`).
-/

namespace AgentMesh

theorem Announcement.filter_named (a : Announcement) :
    a.named.filter (!·.isEmpty) = a.named := by
  unfold named
  cases h : (some a.owner).filter (!·.isEmpty) with
  | none => rfl
  | some o => simpa [Option.filter_eq_some_iff] using (Option.filter_eq_some_iff.mp h).2

namespace Docket

/-- What a docket holds of the task itself is what was announced. -/
structure Informed (a : Announcement) (d : Docket) : Prop where
  task_eq : d.ballot.task = a.task
  context_eq : d.ballot.context = a.context
  owner_eq : d.record.owner = a.named

/-- What the agent `id` may hold of the announced task `a`. -/
structure Faithful (agents : Dict Executor) (a : Announcement) (id : String) (d : Docket) :
    Prop where
  expected_pos : 1 ≤ d.ballot.expected
  expected_le : d.ballot.expected ≤ agents.size
  -- a ballot without result lacks a vote, and the record has the votes of the ballot till then
  pending : d.ballot.result = none →
    d.record.responses = d.ballot.responses ∧ d.ballot.responses.size < agents.size
  final : ∀ x, d.ballot.result = some x →
    x = a.decision agents ∧ d.record.status = .consensus ∧ d.record.result = some x
  signal_eq : d.ballot.signal = d.ballot.result
  votes : ∀ k v, d.record.responses.get? k = some v → (a.votes agents).get? k = some v
  recordTask : d.record.task = d.ballot.task
  recordContext : d.record.context = d.ballot.context
  task : d.ballot.task = "" ∨ d.ballot.task = a.task
  context : d.ballot.context = Dict.empty ∨ d.ballot.context = a.context
  owner : d.ballot.owner = none ∨ d.ballot.owner = a.named
  recordOwner : d.record.owner = none ∨ d.record.owner = a.named
  -- an agent votes itself only on a task that it has been told
  informed : (d.record.responses.get? id).isSome → d.Informed a

variable {agents : Dict Executor} {a : Announcement} {id : String} {d : Docket}

theorem faithful_blank (hpos : 1 ≤ agents.size) (l : Ledger) {taskId : String}
    (hb : l.box.get? taskId = none) (hr : l.records.get? taskId = none) (now : Instant) :
    (l.docket taskId now).Faithful agents a id := by
  have hd : l.docket taskId now = ⟨Ballot.blank taskId now, AuditRecord.blank taskId now⟩ := by
    simp [Ledger.docket, BallotBox.held, hb, hr]
  rw [hd]
  exact
    { expected_pos := le_refl 1, expected_le := hpos, pending := fun _ => ⟨rfl, hpos⟩
      final := fun x hx => by simp [Ballot.blank, Ballot.opened] at hx
      signal_eq := rfl
      votes := fun k v hk => by simp [AuditRecord.blank, AuditRecord.opened] at hk
      recordTask := rfl, recordContext := rfl, task := Or.inl rfl, context := Or.inl rfl
      owner := Or.inl rfl, recordOwner := Or.inl rfl
      informed := fun hk => by simp [AuditRecord.blank, AuditRecord.opened] at hk }

section Mention

variable (h : d.Faithful agents a id) {task : String} {context : Fields}

include h

theorem Faithful.widen_owner (participants : Nat) (task : String) (context : Fields) :
    (d.widen (some a.owner) participants task context).ballot.owner = a.named ∧
      (d.widen (some a.owner) participants task context).record.owner = a.named := by
  have hb : (d.widen (some a.owner) participants task context).ballot.owner = a.named := by
    change (if (d.ballot.owner.getD "").isEmpty then a.named <|> d.ballot.owner
      else d.ballot.owner) = a.named
    rcases h.owner with ho | ho
    · simp [ho]
    · cases hn : a.named <;> simp [ho, hn]
  refine ⟨hb, ?_⟩
  change (d.record.owner <|>
    (d.widen (some a.owner) participants task context).ballot.owner.filter (!·.isEmpty)) = a.named
  rw [hb, a.filter_named]
  rcases h.recordOwner with ho | ho
  · simp [ho]
  · cases hn : a.named <;> simp [ho, hn]

theorem Faithful.widen_record (participants : Nat) (task : String) (context : Fields) :
    (d.widen (some a.owner) participants task context).record.task =
        (d.widen (some a.owner) participants task context).ballot.task ∧
      (d.widen (some a.owner) participants task context).record.context =
        (d.widen (some a.owner) participants task context).ballot.context := by
  exact ⟨widen_task _ participants task context h.recordTask,
    widen_context _ participants task context h.recordContext⟩

theorem Faithful.announce_eq (participants : Nat) (task : String) (context : Fields) :
    d.announce (some a.owner) participants task context =
      d.widen (some a.owner) participants task context := by
  have ho := (h.widen_owner participants task context).2
  have hr : (d.record.merge (some a.owner) task context).owner = a.named := by
    change (d.record.owner <|> a.named) = a.named
    rcases h.recordOwner with hn | hn
    · simp [hn]
    · cases hn' : a.named <;> simp [hn, hn']
  have ht : (d.record.merge (some a.owner) task context).task =
      (d.widen (some a.owner) participants task context).record.task := by
    rw [(h.widen_record participants task context).1]
    simp [widen, AuditRecord.merge, Ballot.widen, h.recordTask]
  have hc : (d.record.merge (some a.owner) task context).context =
      (d.widen (some a.owner) participants task context).record.context := by
    rw [(h.widen_record participants task context).2]
    simp [widen, AuditRecord.merge, Ballot.widen, h.recordContext]
  have he : d.record.merge (some a.owner) task context =
      (d.widen (some a.owner) participants task context).record := by
    exact AuditRecord.merge_congr (hr.trans ho.symm) ht hc
  simp only [announce, he]
  rfl

variable (htask : task = "" ∨ task = a.task) (hcontext : context = Dict.empty ∨ context = a.context)

include htask hcontext

theorem Faithful.widen_told :
    let b := (d.widen (some a.owner) agents.size task context).ballot
    (b.task = "" ∨ b.task = a.task) ∧ (b.context = Dict.empty ∨ b.context = a.context) ∧
      ((task = a.task ∨ d.ballot.task = a.task) → b.task = a.task) ∧
      ((context = a.context ∨ d.ballot.context = a.context) → b.context = a.context) := by
  intro b
  have hbt : b.task = if d.ballot.task.isEmpty then task else d.ballot.task := rfl
  have hbc : b.context = d.ballot.context.merge context := rfl
  rw [hbt, hbc]
  refine ⟨?_, ?_, ?_, ?_⟩
  · rcases h.task with ht | ht <;> rcases htask with ht' | ht' <;>
      by_cases he : a.task = "" <;> simp [ht, ht', he]
  · rcases h.context with hc | hc <;> rcases hcontext with hc' | hc' <;> simp [hc, hc']
  · by_cases he : a.task = ""
    · rcases h.task with ht | ht <;> rcases htask with ht' | ht' <;> simp [ht, ht', he]
    · rcases h.task with ht | ht <;> rcases htask with ht' | ht' <;>
        simp [ht, ht', he, Ne.symm he]
  · rcases h.context with hc | hc <;> rcases hcontext with hc' | hc' <;>
      simp +contextual [hc, hc', eq_comm]

theorem Faithful.widen :
    (d.widen (some a.owner) agents.size task context).Faithful agents a id ∧
      (d.widen (some a.owner) agents.size task context).ballot.expected = agents.size := by
  have hle := h.expected_le
  have hpos := h.expected_pos
  have he : (d.widen (some a.owner) agents.size task context).ballot.expected = agents.size :=
    Nat.max_eq_right hle
  obtain ⟨hbo, hro⟩ := h.widen_owner agents.size task context
  obtain ⟨hrt, hrc⟩ := h.widen_record agents.size task context
  obtain ⟨ht, hc, ht', hc'⟩ := h.widen_told htask hcontext
  refine ⟨?_, he⟩
  exact
    { expected_pos := by omega, expected_le := by omega, pending := h.pending, final := h.final
      signal_eq := h.signal_eq, votes := h.votes, recordTask := hrt, recordContext := hrc
      task := ht, context := hc, owner := Or.inr hbo, recordOwner := Or.inr hro
      informed := fun hk =>
        ⟨ht' (Or.inr (h.informed hk).task_eq), hc' (Or.inr (h.informed hk).context_eq), hro⟩ }

end Mention

theorem Faithful.informed_widen (h : d.Faithful agents a id) :
    (d.widen (some a.owner) agents.size a.task a.context).Informed a := by
  obtain ⟨-, -, ht, hc⟩ := h.widen_told (Or.inr rfl) (Or.inr rfl)
  exact ⟨ht (Or.inl rfl), hc (Or.inl rfl), (h.widen_owner agents.size a.task a.context).2⟩

/-- All votes of the others and the agent's own make up the votes of all. -/
theorem Faithful.complete (h : d.Faithful agents a id) (hself : (agents.get? id).isSome)
    {k v : String} (hv : (a.votes agents).get? k = some v) (hk : k = id → d.Informed a)
    (hr : d.ballot.result = none)
    (hle : d.ballot.expected ≤ (d.ballot.responses.insert k v).size)
    (he : d.ballot.expected = agents.size) :
    d.ballot.responses.insert k v = a.votes agents ∧ d.Informed a := by
  have hall : d.ballot.responses.insert k v = a.votes agents := by
    refine Dict.eq_of_get?_imp (fun k' v' hk' => ?_) (by rw [a.size_votes]; omega)
    rw [Dict.get?_insert] at hk'
    split at hk'
    · next hkk =>
      cases hk'
      exact hkk ▸ hv
    · exact h.votes k' v' (by rwa [(h.pending hr).1])
  refine ⟨hall, ?_⟩
  by_cases hid : k = id
  · exact hk hid
  · -- the agent's own vote is among the earlier ones, so the announcement is known
    apply h.informed
    have hown : ((a.votes agents).get? id).isSome := by
      rw [a.votes_get?]
      simpa using hself
    rwa [← hall, Dict.get?_insert_of_ne _ _ hid, ← (h.pending hr).1] at hown

section Vote

variable (h : d.Faithful agents a id) {k v : String} (hv : (a.votes agents).get? k = some v)
  (hk : k = id → d.Informed a)

include h hv in
theorem Faithful.votes_note (k' v' : String)
    (hn : (d.record.noteResponse k v).responses.get? k' = some v') :
    (a.votes agents).get? k' = some v' := by
  change (d.record.responses.insert k v).get? k' = some v' at hn
  rw [Dict.get?_insert] at hn
  split at hn
  · next hkk =>
    cases hn
    exact hkk ▸ hv
  · exact h.votes k' v' hn

include h hk in
theorem Faithful.informed_note (hs : ((d.record.noteResponse k v).responses.get? id).isSome) :
    d.Informed a := by
  by_cases hid : k = id
  · exact hk hid
  · apply h.informed
    change ((d.record.responses.insert k v).get? id).isSome at hs
    rwa [Dict.get?_insert_of_ne _ _ hid] at hs

include h hv hk in
theorem Faithful.note {x : String} (hr : d.ballot.result = some x) :
    Docket.Faithful agents a id { d with record := d.record.noteResponse k v } := by
  refine { h with pending := fun hn => ?_, votes := h.votes_note hv, informed := fun hs => ?_ }
  · simp [hr] at hn
  · obtain ⟨ht, hc, ho⟩ := h.informed_note hk hs
    exact ⟨ht, hc, ho⟩

include h hv hk in
theorem Faithful.record (hr : d.ballot.result = none) (he : d.ballot.expected = agents.size)
    (hlt : (d.ballot.responses.insert k v).size < d.ballot.expected) :
    Docket.Faithful agents a id
      { ballot := d.ballot.record k v, record := d.record.noteResponse k v } := by
  have hresp := (h.pending hr).1
  refine { h with pending := fun _ => ⟨?_, ?_⟩, votes := h.votes_note hv, informed := fun hs => ?_ }
  · change d.record.responses.insert k v = d.ballot.responses.insert k v
    rw [hresp]
  · exact he ▸ hlt
  · obtain ⟨ht, hc, ho⟩ := h.informed_note hk hs
    exact ⟨ht, hc, ho⟩

theorem Faithful.aggregate_record (h : d.Faithful agents a id) (hself : (agents.get? id).isSome)
    (hv : (a.votes agents).get? k = some v) (hk : k = id → d.Informed a)
    (hr : d.ballot.result = none) (he : d.ballot.expected = agents.size)
    (hle : d.ballot.expected ≤ (d.ballot.responses.insert k v).size) :
    transcript (d.ballot.record k v) = a.decision agents := by
  obtain ⟨hall, ht, hc, -⟩ := h.complete hself hv hk hr hle he
  change Transcript.render d.ballot.task d.ballot.context (d.ballot.responses.insert k v) = _
  rw [hall, ht, hc]
  rfl

end Vote

theorem Faithful.close (h : d.Faithful agents a id) {marked : Bool} {receipt : Receipt}
    (hm : marked = true → receipt.result = d.ballot.result) (now : Instant) :
    (d.close marked receipt now).Faithful agents a id := by
  cases marked with
  | false => exact h
  | true =>
    refine { h with final := fun x hx => ⟨(h.final x hx).1, rfl, ?_⟩, informed := fun hs => ?_ }
    · exact (hm rfl).trans hx
    · obtain ⟨ht, hc, ho⟩ := h.informed hs
      exact ⟨ht, hc, ho⟩

/-- A vote as its agent casts it keeps a docket faithful, if the record is closed whenever the vote
fixes the result, and if an agent that votes itself knows the announcement. -/
theorem Faithful.vote (h : d.Faithful agents a id) (hself : (agents.get? id).isSome)
    (he : d.ballot.expected = agents.size) {k v : String}
    (hv : (a.votes agents).get? k = some v) (hk : k = id → d.Informed a) (now : Instant)
    {marks : Receipt → Bool} (hnew : ∀ r, r.newlyFinal = true → marks r = true)
    (hready : ∀ r, marks r = true → r.ready = true) :
    let w := d.vote transcript k v now
    (w.2.close (marks w.1) w.1 now).Faithful agents a id ∧
      (w.1.newlyFinal = true → w.1.result = some (a.decision agents)) := by
  intro w
  have hw : w = ((d.ballot.vote transcript k v now).1,
      ⟨(d.ballot.vote transcript k v now).2, d.record.noteResponse k v⟩) := rfl
  cases hr : d.ballot.result with
  | some x =>
    -- the ballot passes over a vote after the result, the record notes it all the same
    rw [Ballot.vote_of_result hr] at hw
    rw [hw]
    refine ⟨(h.note hv hk hr).close (fun _ => ?_) now, fun hn => ?_⟩
    · exact hr.symm
    · simp [Receipt.newlyFinal] at hn
  | none =>
    by_cases hlt : (d.ballot.responses.insert k v).size < d.ballot.expected
    · rw [Ballot.vote_of_lt hr hlt] at hw
      rw [hw]
      refine ⟨(h.record hv hk hr he hlt).close (fun hm => ?_) now, fun hn => ?_⟩
      · exact absurd (hready _ hm) (by simp)
      · simp [Receipt.newlyFinal] at hn
    · rw [Ballot.vote_of_le hr (Nat.not_lt.mp hlt),
        h.aggregate_record hself hv hk hr he (Nat.not_lt.mp hlt)] at hw
      have hm : marks w.1 = true := by
        rw [hw]
        exact hnew _ rfl
      rw [hm, hw]
      refine ⟨?_, fun _ => rfl⟩
      -- both ballot and record now show the transcript
      exact { h with
        pending := fun hn => by simp [Docket.close] at hn
        final := fun x hx => ⟨(Option.some.inj hx).symm, rfl, hx⟩
        signal_eq := rfl
        votes := h.votes_note hv
        informed := fun hs =>
          have hi := h.informed_note hk hs
          ⟨hi.task_eq, hi.context_eq, hi.owner_eq⟩ }

theorem responses_vote_close (d : Docket) (aggregate : Aggregator) (k v : String) (now : Instant)
    (marked : Bool) (receipt : Receipt) :
    ((d.vote aggregate k v now).2.close marked receipt now).record.responses =
      d.record.responses.insert k v := by
  cases marked <;> rfl

theorem Faithful.merge_adopt (h : d.Faithful agents a id) :
    d.record.merge (d.ballot.owner <|> some a.owner) d.ballot.task d.ballot.context =
      { d.record with
        owner := a.named, task := d.ballot.task, context := d.ballot.context } := by
  have ho : (d.record.owner <|> (d.ballot.owner <|> some a.owner).filter (!·.isEmpty)) =
      a.named := by
    have hb : (d.ballot.owner <|> some a.owner).filter (!·.isEmpty) = a.named := by
      rcases h.owner with hn | hn
      · rw [hn]
        rfl
      · cases hn' : a.named with
        | none =>
          rw [hn, hn']
          exact hn'
        | some o =>
          rw [hn, hn', ← hn']
          simpa [hn'] using a.filter_named
    rw [hb]
    rcases h.recordOwner with hn | hn
    · simp [hn]
    · cases hn' : a.named <;> simp [hn, hn']
  simp only [AuditRecord.merge, ho, h.recordTask, h.recordContext, Dict.merge_self, ite_self]

theorem Faithful.adopt (h : d.Faithful agents a id) (now : Instant) :
    (d.adopt (a.decision agents) (some a.owner) now).Faithful agents a id := by
  have hd : d.adopt (a.decision agents) (some a.owner) now =
      ⟨d.ballot.finalize (a.decision agents) now,
       (d.record.merge ((d.ballot.finalize (a.decision agents) now).owner <|> some a.owner)
         (d.ballot.finalize (a.decision agents) now).task
         (d.ballot.finalize (a.decision agents) now).context).markConsensus
         (d.ballot.finalize (a.decision agents) now).result
         (d.ballot.finalize (a.decision agents) now).finalizedAt now⟩ := by
    simp only [Docket.adopt, Ballot.widen_nothing _ h.expected_pos]
  cases hr : d.ballot.result with
  | some x =>
    rw [Ballot.finalize_of_isFinal (by simp [Ballot.isFinal, hr]), h.merge_adopt] at hd
    rw [hd]
    exact { h with
      pending := fun hn => by simp [hr] at hn
      final := fun y hy => ⟨(h.final y hy).1, rfl, hy⟩
      recordTask := rfl, recordContext := rfl, recordOwner := Or.inr rfl
      informed := fun hs => ⟨(h.informed hs).task_eq, (h.informed hs).context_eq, rfl⟩ }
  | none =>
    rw [Ballot.finalize_of_none hr, h.merge_adopt] at hd
    rw [hd]
    exact { h with
      pending := fun hn => by simp at hn
      final := fun y hy => ⟨(Option.some.inj hy).symm, rfl, hy⟩
      signal_eq := rfl, recordTask := rfl, recordContext := rfl, recordOwner := Or.inr rfl
      informed := fun hs => ⟨(h.informed hs).task_eq, (h.informed hs).context_eq, rfl⟩ }

theorem responses_adopt (d : Docket) (result : String) (owner : Option String) (now : Instant) :
    (d.adopt result owner now).record.responses = d.record.responses := rfl

end Docket

end AgentMesh
