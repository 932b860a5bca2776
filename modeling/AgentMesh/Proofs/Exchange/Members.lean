import AgentMesh.Proofs.Exchange.Faithful

/-!
The agents of a full mesh. Each step of an agent on a genuine message leaves it faithful, notes at most
one more vote and sends genuine messages only (`Node.Faithful.handle`, `Node.Faithful.execute`).
-/

namespace AgentMesh

/-- The messages that agents of a full mesh send about tasks that were started. -/
inductive Message.Genuine (agents : Dict Executor) (started : Dict Announcement) : Message → Prop
  | task {a : Announcement} {taskId : String} (ha : started.get? taskId = some a) :
      Genuine agents started (a.message taskId)
  | result {a : Announcement} {taskId sender v : String} (ha : started.get? taskId = some a)
      (hv : (a.votes agents).get? sender = some v) :
      Genuine agents started ⟨.result, sender, taskId, Node.resultPayload v (some a.owner)⟩
  | consensus {a : Announcement} {taskId sender : String} (ha : started.get? taskId = some a) :
      Genuine agents started
        ⟨.consensus, sender, taskId, Node.resultPayload (a.decision agents) (some a.owner)⟩

/-- What holds of the agent `id` after any steps of the mesh. -/
structure Node.Faithful (agents : Dict Executor) (started : Dict Announcement) (id : String)
    (n : Node) : Prop extends n.Member agents id where
  unknown : ∀ t, started.get? t = none →
    n.ledger.box.get? t = none ∧ n.ledger.records.get? t = none
  docket : ∀ t a, started.get? t = some a → ∀ now, (n.ledger.docket t now).Faithful agents a id
  awaited : ∀ t x, n.awaited.get? t = some x → x = (n.ledger.box.get? t).bind (·.signal)

namespace Node

variable {agents : Dict Executor} {started : Dict Announcement} {id : String} {n : Node}
  {t : String} {a : Announcement}

theorem Member.isUnbounded (h : n.Member agents id) :
    n.ledger.box.retention.isUnbounded = true := by
  rw [h.retention_eq]
  rfl

theorem Member.participants_pos (h : n.Member agents id) (hself : (agents.get? id).isSome) :
    1 ≤ n.participants := by
  rw [h.participants_eq]
  exact Dict.size_pos_of_get? hself

/-- The agent after a step that leaves the docket `d` of a task, before anybody is told. -/
theorem Faithful.commit (h : n.Faithful agents started id) (ha : started.get? t = some a)
    {d : Docket} (hd : d.Faithful agents a id)
    (hsignal : ∀ x, n.awaited.get? t = some x → x = d.ballot.signal) :
    Faithful agents started id { n with ledger := n.ledger.commit t d } := by
  refine { h with unknown := fun t' ht' => ?_, docket := fun t' a' ha' now => ?_,
                  awaited := fun t' x hx => ?_ }
  · have hne : t ≠ t' := fun he => by rw [← he, ha] at ht'; cases ht'
    simpa [Ledger.get?_commit, Ledger.records_get?_commit, hne] using h.unknown t' ht'
  · rw [Ledger.docket_commit]
    split
    · next he =>
      subst he
      rw [ha] at ha'
      exact Option.some.inj ha' ▸ hd
    · exact h.docket t' a' ha' now
  · rw [Ledger.get?_commit]
    split
    · next he =>
      subst he
      exact hsignal x hx
    · exact h.awaited t' x hx

theorem Faithful.settle (h : n.Faithful agents started id) (ha : started.get? t = some a)
    {d : Docket} (hd : d.Faithful agents a id)
    (hkeep : ∀ b x, n.ledger.box.get? t = some b → b.signal = some x → d.ballot.signal = some x) :
    (n.settle t (n.ledger.commit t d) d.ballot).Faithful agents started id := by
  have hc := ({ h with awaited := fun _ _ hx => by simp at hx } :
    Faithful agents started id { n with awaited := Dict.empty }).commit ha hd
      (fun x hx => by simp at hx)
  have hl : (n.settle t (n.ledger.commit t d) d.ballot).ledger = n.ledger.commit t d :=
    tell_ledger _ t _
  refine
    { id_eq := (tell_id _ t _).trans h.id_eq
      executor_eq := (tell_executor _ t _).trans h.executor_eq
      participants_eq := (tell_participants _ t _).trans h.participants_eq
      isSome_peers := fun k => by
        rw [Node.settle, tell_peers]
        exact h.isSome_peers k
      aggregate_eq := by rw [hl]; exact h.aggregate_eq
      retention_eq := by rw [hl]; exact h.retention_eq
      unknown := fun t' ht' => by rw [hl]; exact hc.unknown t' ht'
      docket := fun t' a' ha' now => by rw [hl]; exact hc.docket t' a' ha' now
      awaited := fun t' x hx => ?_ }
  rw [Node.settle, awaited_tell] at hx
  rw [hl, Ledger.get?_commit]
  split at hx
  · next he =>
    subst he
    rw [if_pos rfl]
    obtain ⟨shown, hshown, rfl⟩ := Option.map_eq_some_iff.mp hx
    cases hs : shown with
    | none => rfl
    | some y =>
      have hold := h.awaited t shown hshown
      rw [hs] at hold
      obtain ⟨b, hb, hy⟩ := Option.bind_eq_some_iff.mp hold.symm
      exact (hkeep b y hb hy).symm
  · next he =>
    rw [if_neg he]
    exact h.awaited t' x hx

theorem Faithful.insert_started (h : n.Faithful agents started id)
    (hself : (agents.get? id).isSome) (hnew : started.get? t = none) (a : Announcement) :
    n.Faithful agents (started.insert t a) id := by
  refine { h with unknown := fun t' ht' => ?_, docket := fun t' a' ha' now => ?_ }
  · rw [Dict.get?_insert] at ht'
    split at ht'
    · cases ht'
    · exact h.unknown t' ht'
  · rw [Dict.get?_insert] at ha'
    split at ha'
    · next he =>
      subst he
      obtain ⟨hb, hr⟩ := h.unknown t hnew
      exact Docket.faithful_blank (Dict.size_pos_of_get? hself) n.ledger hb hr now
    · exact h.docket t' a' ha' now

end Node

namespace Ledger

variable {l : Ledger} {t k v : String} {d : Docket} {now : Instant}

def Heard (l : Ledger) (t k : String) : Prop :=
  ∃ r, l.records.get? t = some r ∧ (r.responses.get? k).isSome

theorem heard_iff (l : Ledger) (t k : String) (now : Instant) :
    l.Heard t k ↔ ((l.docket t now).record.responses.get? k).isSome := by
  unfold Heard docket
  cases h : l.records.get? t with
  | none => simp [AuditRecord.blank, AuditRecord.opened]
  | some r => simp

theorem heard_commit (l : Ledger) (t : String) (d : Docket) (t' k : String) :
    (l.commit t d).Heard t' k ↔
      if t = t' then (d.record.responses.get? k).isSome = true else l.Heard t' k := by
  unfold Heard
  rw [records_get?_commit]
  split <;> simp

theorem heard_commit_of_eq (now : Instant)
    (hd : d.record.responses = (l.docket t now).record.responses) (t' k' : String) :
    (l.commit t d).Heard t' k' ↔ l.Heard t' k' := by
  rw [heard_commit]
  split
  · next he => rw [← he, l.heard_iff t k' now, hd]
  · rfl

theorem heard_commit_of_insert
    (hd : d.record.responses = (l.docket t now).record.responses.insert k v) (t' k' : String) :
    (l.commit t d).Heard t' k' ↔ (t' = t ∧ k' = k) ∨ l.Heard t' k' := by
  rw [heard_commit]
  by_cases ht : t = t'
  · subst ht
    rw [if_pos rfl, hd, Dict.get?_insert, l.heard_iff t k' now]
    by_cases hk : k = k'
    · simp [hk]
    · simp [hk, Ne.symm hk]
  · simp [ht, Ne.symm ht]

theorem docket_signal (l : Ledger) (t : String) (now : Instant) :
    (l.docket t now).ballot.signal = (l.box.get? t).bind (·.signal) := by
  unfold docket BallotBox.held
  cases l.box.get? t <;> rfl

end Ledger

namespace Node

variable {agents : Dict Executor} {started : Dict Announcement} {id : String} {n : Node}
  {t : String} {a : Announcement}

theorem signal_vote {b : Ballot} (hb : b.signal = b.result) {x : String} (hx : b.signal = some x)
    (aggregate : Aggregator) (k v : String) (now : Instant) :
    (b.vote aggregate k v now).2.signal = some x := by
  rw [Ballot.vote_of_result (hb ▸ hx)]
  exact hx

theorem signal_finalize {b : Ballot} (hb : b.signal = b.result) {x : String}
    (hx : b.signal = some x) (result : String) (now : Instant) :
    (b.finalize result now).signal = some x := by
  have hf : b.isFinal = true := by simp [Ballot.isFinal, ← hb, hx]
  rw [Ballot.finalize_of_isFinal hf]
  exact hx

section Steps

variable (h : n.Faithful agents started id) (hself : (agents.get? id).isSome)
  (ha : started.get? t = some a) (now : Instant)

include h ha in
theorem Faithful.announce :
    let d := (n.ledger.docket t now).announce (some a.owner) n.participants a.task a.context
    let n' := { n with ledger := n.ledger.commit t d }
    Faithful agents started id n' ∧ ∀ t' k, n'.ledger.Heard t' k ↔ n.ledger.Heard t' k := by
  intro d n'
  have hf := h.docket t a ha now
  have hd : d = (n.ledger.docket t now).widen (some a.owner) agents.size a.task a.context := by
    simp only [d, h.participants_eq]
    exact hf.announce_eq agents.size a.task a.context
  have hw := (hf.widen (Or.inr rfl) (Or.inr rfl)).1
  refine ⟨h.commit ha (hd ▸ hw) fun x hx => ?_, ?_⟩
  · rw [h.awaited t x hx, ← n.ledger.docket_signal t now]
    rfl
  · exact Ledger.heard_commit_of_eq now rfl

include h hself ha in
theorem Faithful.cast {k v : String} (hv : (a.votes agents).get? k = some v) {task : String}
    {context : Fields} (htask : task = "" ∨ task = a.task)
    (hcontext : context = Dict.empty ∨ context = a.context)
    (hk : k = id → task = a.task ∧ context = a.context) {marks : Receipt → Bool}
    (hnew : ∀ r, r.newlyFinal = true → marks r = true)
    (hready : ∀ r, marks r = true → r.ready = true) :
    let d := (n.ledger.docket t now).widen (some a.owner) n.participants task context
    let w := d.vote n.ledger.box.aggregate k v now
    let d' := w.2.close (marks w.1) w.1 now
    let n' := n.settle t (n.ledger.commit t d') d'.ballot
    Faithful agents started id n' ∧
      (∀ t' k', n'.ledger.Heard t' k' ↔ (t' = t ∧ k' = k) ∨ n.ledger.Heard t' k') ∧
      (w.1.newlyFinal = true → w.1.result = some (a.decision agents)) := by
  intro d w d' n'
  have hf := h.docket t a ha now
  obtain ⟨hd, he⟩ := hf.widen htask hcontext
  rw [← h.participants_eq] at hd he
  have hinf : k = id → d.Informed a := by
    intro hid
    obtain ⟨rfl, rfl⟩ := hk hid
    have := hf.informed_widen
    rwa [← h.participants_eq] at this
  have hw : w = d.vote transcript k v now := by rw [← h.aggregate_eq]
  obtain ⟨hd', hresult⟩ := hd.vote hself (he.trans h.participants_eq) hv hinf now hnew hready
  rw [← hw] at hd' hresult
  refine ⟨h.settle ha hd' fun b x hb hx => ?_, ?_, hresult⟩
  · have hs : d.ballot.signal = some x := by
      change (n.ledger.docket t now).ballot.signal = some x
      rw [Ledger.docket_signal, hb]
      exact hx
    exact signal_vote hd.signal_eq hs _ k v now
  · intro t' k'
    rw [show n'.ledger = n.ledger.commit t d' from tell_ledger _ t _]
    exact Ledger.heard_commit_of_insert (Docket.responses_vote_close d _ k v now _ _) t' k'

include h ha in
theorem Faithful.adopt :
    let d := (n.ledger.docket t now).adopt (a.decision agents) (some a.owner) now
    let n' := n.settle t (n.ledger.commit t d) d.ballot
    Faithful agents started id n' ∧ ∀ t' k, n'.ledger.Heard t' k ↔ n.ledger.Heard t' k := by
  intro d n'
  have hf := h.docket t a ha now
  refine ⟨h.settle ha (hf.adopt now) fun b x hb hx => ?_, fun t' k => ?_⟩
  · have hs : (n.ledger.docket t now).ballot.signal = some x := by
      rw [Ledger.docket_signal, hb]
      exact hx
    change (((n.ledger.docket t now).ballot.widen none 1 "" Dict.empty).finalize _ now).signal = _
    rw [Ballot.widen_nothing _ hf.expected_pos]
    exact signal_finalize hf.signal_eq hs _ now
  · rw [show n'.ledger = n.ledger.commit t d from tell_ledger _ t _]
    exact Ledger.heard_commit_of_eq now (Docket.responses_adopt _ _ _ now) t' k

theorem mem_consensusMessages {n : Node} {receipt : Receipt} {t : String} {owner : Option String}
    {m : Message} (hm : m ∈ n.consensusMessages receipt t owner) :
    receipt.newlyFinal = true ∧ ∃ result, receipt.result = some result ∧
      m = ⟨.consensus, n.id, t, resultPayload result owner⟩ := by
  unfold consensusMessages at hm
  split at hm
  · next result hnew hres =>
    refine ⟨hnew, result, hres, ?_⟩
    split at hm
    · simp at hm
    · exact List.mem_singleton.mp hm
  · simp at hm

include h ha in
theorem Faithful.genuine_consensus {receipt : Receipt}
    (hr : receipt.newlyFinal = true → receipt.result = some (a.decision agents)) {m : Message}
    (hm : m ∈ n.consensusMessages receipt t (some a.owner)) :
    m.sender = id ∧ m.kind = .consensus ∧ m.Genuine agents started := by
  obtain ⟨hnew, result, hres, rfl⟩ := mem_consensusMessages hm
  have he : result = a.decision agents := Option.some.inj (hres.symm.trans (hr hnew))
  subst he
  exact ⟨h.id_eq, rfl, .consensus ha⟩

include h ha in
theorem Faithful.onTask :
    let r := n.handle (a.message t) now
    r.node.Faithful agents started id ∧
      (∀ t' k, r.node.ledger.Heard t' k ↔ n.ledger.Heard t' k) ∧ r.sends = [] ∧
      r.runs = [a.message t] := by
  intro r
  have hr : r = n.onTask (a.message t) now := rfl
  rw [n.onTask_eq] at hr
  simp only [a.text?_owner, a.text?_task, a.object_context, Option.getD_some] at hr
  rw [hr]
  obtain ⟨hf, hh⟩ := h.announce ha now
  exact ⟨hf, hh, rfl, rfl⟩

include h hself ha in
theorem Faithful.onResult {k v : String} (hv : (a.votes agents).get? k = some v) (hk : k ≠ id) :
    let r := n.handle ⟨.result, k, t, resultPayload v (some a.owner)⟩ now
    r.node.Faithful agents started id ∧
      (∀ t' k', r.node.ledger.Heard t' k' ↔ (t' = t ∧ k' = k) ∨ n.ledger.Heard t' k') ∧
      (∀ m ∈ r.sends, m.sender = id ∧ m.kind = .consensus ∧ m.Genuine agents started) ∧
      r.runs = [] := by
  intro r
  have hr : r = n.onResult ⟨.result, k, t, resultPayload v (some a.owner)⟩ now := rfl
  rw [onResult_eq (h.participants_pos hself)] at hr
  simp only [text?_resultPayload, Option.getD_some, Ledger.pruneIf_commit h.isUnbounded] at hr
  rw [hr]
  obtain ⟨hf, hh, hres⟩ := h.cast hself ha now hv (Or.inl rfl) (Or.inl rfl)
    (fun hid => absurd hid hk) (fun _ hr => hr) fun _ => Receipt.ready_of_newlyFinal
  exact ⟨hf, hh, fun m hm => h.genuine_consensus ha hres hm, rfl⟩

include h ha in
theorem Faithful.onConsensus (k : String) :
    let r := n.handle ⟨.consensus, k, t, resultPayload (a.decision agents) (some a.owner)⟩ now
    r.node.Faithful agents started id ∧
      (∀ t' k', r.node.ledger.Heard t' k' ↔ n.ledger.Heard t' k') ∧ r.sends = [] ∧ r.runs = [] := by
  intro r
  have hr : r = n.onConsensus
    ⟨.consensus, k, t, resultPayload (a.decision agents) (some a.owner)⟩ now := rfl
  rw [n.onConsensus_eq] at hr
  simp only [text?_resultPayload, Option.getD_some, Ledger.prune_commit h.isUnbounded] at hr
  rw [hr]
  obtain ⟨hf, hh⟩ := h.adopt ha now
  exact ⟨hf, hh, rfl, rfl⟩

/-- What the agent `id` makes of a message, seen from outside. -/
structure Handled (agents : Dict Executor) (started : Dict Announcement) (id : String) (n : Node)
    (m : Message) (r : Reaction) : Prop where
  faithful : r.node.Faithful agents started id
  heard : ∀ t k, r.node.ledger.Heard t k ↔
    (m.kind = .result ∧ t = m.taskId ∧ k = m.sender) ∨ n.ledger.Heard t k
  sends : ∀ m' ∈ r.sends, m.kind = .result ∧ m'.sender = id ∧ m'.kind = .consensus ∧
    m'.Genuine agents started
  runs : r.runs = if m.kind = .task then [m] else []

include h hself in
omit ha in
theorem Faithful.handle {m : Message} (hg : m.Genuine agents started) (hne : m.sender ≠ id) :
    Handled agents started id n m (n.handle m now) := by
  cases hg with
  | task ha =>
    obtain ⟨hf, hh, hs, hr⟩ := h.onTask ha now
    refine { faithful := hf, heard := fun t k => ?_, sends := fun m' hm' => ?_, runs := hr }
    · rw [or_iff_right (fun hk => by cases hk.1)]
      exact hh t k
    · exact absurd (hs ▸ hm') List.not_mem_nil
  | result ha hv =>
    obtain ⟨hf, hh, hs, hr⟩ := h.onResult hself ha now hv hne
    refine { faithful := hf, heard := fun t k => ?_, sends := fun m' hm' => ?_, runs := hr }
    · rw [and_iff_right rfl]
      exact hh t k
    · exact ⟨rfl, hs m' hm'⟩
  | @consensus _ _ sender ha =>
    obtain ⟨hf, hh, hs, hr⟩ := h.onConsensus ha now sender
    refine { faithful := hf, heard := fun t k => ?_, sends := fun m' hm' => ?_, runs := hr }
    · rw [or_iff_right (fun hk => by cases hk.1)]
      exact hh t k
    · exact absurd (hs ▸ hm') List.not_mem_nil

include h hself ha in
theorem Faithful.execute :
    let n' := (n.execute (a.message t) now).1
    let sends := (n.execute (a.message t) now).2
    n'.Faithful agents started id ∧
      (∀ t' k, n'.ledger.Heard t' k ↔ (t' = t ∧ k = id) ∨ n.ledger.Heard t' k) ∧
      (∃ v, (a.votes agents).get? id = some v ∧
        n.resultMessage t v (some a.owner) ∈ sends) ∧
      ∀ m ∈ sends, m.sender = id ∧ m.kind ≠ .task ∧ m.Genuine agents started := by
  obtain ⟨executor, hex⟩ := Option.isSome_iff_exists.mp hself
  have hv : (a.votes agents).get? id = some (executor a.task a.context).vote := by
    rw [a.votes_get?, hex]
    rfl
  have he : n.execute (a.message t) now =
      ((n.submit t (executor a.task a.context).vote (some a.owner) a.task a.context now).1,
       (n.submit t (executor a.task a.context).vote (some a.owner) a.task a.context now).2.2) := by
    unfold Node.execute
    rw [h.executor_eq, hex]
    simp only [a.text?_owner, a.text?_task, a.object_context, Option.getD_some]
    rfl
  simp only [submit_eq t (h.participants_pos hself), Ledger.pruneIf_commit h.isUnbounded,
    h.id_eq] at he
  intro n' sends
  have hn : n' = _ := congrArg Prod.fst he
  have hsends : sends = _ := congrArg Prod.snd he
  rw [hn, hsends]
  obtain ⟨hf, hh, hres⟩ := h.cast hself ha now hv (Or.inr rfl) (Or.inr rfl)
    (fun _ => ⟨rfl, rfl⟩) (fun _ => Receipt.ready_of_newlyFinal) (fun _ hr => hr)
  refine ⟨hf, hh, ⟨_, hv, List.mem_cons_self⟩, fun m hm => ?_⟩
  rcases List.mem_cons.mp hm with rfl | hm
  · refine ⟨h.id_eq, by simp [resultMessage], ?_⟩
    rw [resultMessage, h.id_eq]
    exact .result ha hv
  · obtain ⟨hs, hkind, hg⟩ := h.genuine_consensus ha hres hm
    exact ⟨hs, by simp [hkind], hg⟩

include h hself in
theorem Faithful.start (hnew : started.get? t = none) (task : String) (context : Fields) :
    let a : Announcement := ⟨id, task, context⟩
    let n' := (n.start t task context now).1
    n'.Faithful agents (started.insert t a) id ∧
      (∀ t' k, n'.ledger.Heard t' k ↔ n.ledger.Heard t' k) ∧
      (n.start t task context now).2 = a.message t := by
  intro a n'
  have hd : (n.ledger.docket t now).announce (some n.id) n.participants task context =
      (n.ledger.docket t now).announce (some a.owner) n.participants a.task a.context := by
    rw [h.id_eq]
  have hm : n.taskMessage t task context = a.message t := by
    rw [← show (⟨n.id, task, context⟩ : Announcement) = a by rw [h.id_eq]]
    rfl
  have hs := n.start_eq t task context now
  rw [hd, hm] at hs
  have hn : n' = _ := congrArg Prod.fst hs
  rw [hn, hs]
  obtain ⟨hf, hh⟩ :=
    (h.insert_started hself hnew a).announce (Dict.get?_insert_self started t a) now
  exact ⟨hf, hh, rfl⟩

end Steps

theorem Faithful.noteContacts (h : n.Faithful agents started id) (failure : String → Option String)
    (now : Instant) : (n.noteContacts failure now).Faithful agents started id := by
  refine { h with isSome_peers := fun k => ?_ }
  change ((n.peers.mapValues _).get? k).isSome ↔ _
  rw [Dict.get?_mapValues, Option.isSome_map]
  exact h.isSome_peers k

theorem Faithful.await (h : n.Faithful agents started id) (t : String) :
    (n.await t).Faithful agents started id := by
  refine { h with awaited := fun t' x hx => ?_ }
  change (n.awaited.insert t _).get? t' = some x at hx
  rw [Dict.get?_insert] at hx
  split at hx
  · next he => exact he ▸ (Option.some.inj hx).symm
  · exact h.awaited t' x hx

theorem Faithful.stopWaiting (h : n.Faithful agents started id) (t : String) :
    (n.stopWaiting t).Faithful agents started id := by
  refine { h with awaited := fun t' x hx => ?_ }
  change (n.awaited.erase t).get? t' = some x at hx
  rw [Dict.get?_erase] at hx
  split at hx
  · cases hx
  · exact h.awaited t' x hx

end Node

end AgentMesh
