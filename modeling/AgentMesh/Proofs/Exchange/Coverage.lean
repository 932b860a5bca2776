import AgentMesh.Proofs.Exchange.Runs

/-!
Where no envelope is lost no vote is: an agent that has not voted yet is still to be asked, and a vote
that an agent has cast is noted by another one or on its way there (`Network.Covered.steps`). So once
nothing is in flight and no execution waits, all agents have all votes (`Network.Faithful.settled`).
-/

namespace AgentMesh

theorem Docket.Faithful.settled {agents : Dict Executor} {a : Announcement} {id : String}
    {d : Docket} (h : d.Faithful agents a id) (hself : (agents.get? id).isSome)
    (hall : ∀ k, (agents.get? k).isSome → (d.record.responses.get? k).isSome) :
    d.record.responses = a.votes agents ∧ d.ballot.result = some (a.decision agents) ∧
      d.Informed a := by
  have hvotes : d.record.responses = a.votes agents := by
    refine Dict.ext_get? fun k => ?_
    cases hk : d.record.responses.get? k with
    | some v => exact (h.votes k v hk).symm
    | none =>
      have hno : ¬(agents.get? k).isSome := fun hs => by simpa [hk] using hall k hs
      simp [a.votes_get?, Option.not_isSome_iff_eq_none.mp hno]
  refine ⟨hvotes, ?_, h.informed (hall id hself)⟩
  cases hr : d.ballot.result with
  | some x => rw [(h.final x hr).1]
  | none =>
    obtain ⟨hresp, hlt⟩ := h.pending hr
    have hsize := a.size_votes agents
    rw [← hvotes, hresp] at hsize
    omega

namespace Network

variable {agents : Dict Executor} {net net' : Network} {id t k : String} {n n' : Node}
  {a : Announcement}

/-- Whether the record of a task at an agent has an answer of another agent or its own. -/
def Heard (net : Network) (id t k : String) : Prop :=
  ∃ n, net.nodes.get? id = some n ∧ n.ledger.Heard t k

/-- No vote has been lost. -/
structure Covered (agents : Dict Executor) (net : Network) : Prop where
  asked : ∀ t a, net.started.get? t = some a → ∀ k, (agents.get? k).isSome →
    net.Heard k t k ∨ (k, a.message t) ∈ net.queue ∨ (k, a.message t) ∈ net.flight
  told : ∀ t k, net.Heard k t k → ∀ j, (agents.get? j).isSome → j ≠ k →
    net.Heard j t k ∨ ∃ m, (j, m) ∈ net.flight ∧ m.kind = .result ∧ m.sender = k ∧ m.taskId = t

/-- No vote is lost on the way from `net` to `net'`: whoever votes then tells all others, and what is
not in flight or waits any longer has come to an effect. -/
structure Conserves (agents : Dict Executor) (net net' : Network) : Prop where
  heard : ∀ id t k, net.Heard id t k → net'.Heard id t k
  cast : ∀ t k, net'.Heard k t k → net.Heard k t k ∨ ∀ j, (agents.get? j).isSome → j ≠ k →
    ∃ m, (j, m) ∈ net'.flight ∧ m.kind = .result ∧ m.sender = k ∧ m.taskId = t
  started : ∀ t a, net'.started.get? t = some a → net.started.get? t = some a ∨
    ∀ k, (agents.get? k).isSome → (k, a.message t) ∈ net'.queue ∨ (k, a.message t) ∈ net'.flight
  queue : ∀ e ∈ net.queue, e ∈ net'.queue ∨ net'.Heard e.1 e.2.taskId e.1
  flight : ∀ e ∈ net.flight, e ∈ net'.flight ∨
    (e.2.kind = .task → e ∈ net'.queue) ∧
      (e.2.kind = .result → net'.Heard e.1 e.2.taskId e.2.sender)

theorem Covered.of_conserves (h : net.Covered agents) (hc : Conserves agents net net') :
    net'.Covered agents := by
  constructor
  · -- an agent still to be asked stays so until its execution has run and left its vote
    intro t a ha k hk
    rcases hc.started t a ha with ha | hnew
    · rcases h.asked t a ha k hk with hh | hq | hf
      · exact Or.inl (hc.heard k t k hh)
      · rcases hc.queue _ hq with hq | hh
        · exact Or.inr (Or.inl hq)
        · exact Or.inl hh
      · rcases hc.flight _ hf with hf | ⟨hq, -⟩
        · exact Or.inr (Or.inr hf)
        · exact Or.inr (Or.inl (hq rfl))
    · exact Or.inr (hnew k hk)
  · -- a vote is in flight to another agent until it is delivered and noted there
    intro t k hh j hj hne
    rcases hc.cast t k hh with hold | hnew
    · rcases h.told t k hold j hj hne with hheard | ⟨m, hm, hkind, hs, ht⟩
      · exact Or.inl (hc.heard j t k hheard)
      · rcases hc.flight _ hm with hf | ⟨-, hheard⟩
        · exact Or.inr ⟨m, hf, hkind, hs, ht⟩
        · have hj := hheard hkind
          rw [hs, ht] at hj
          exact Or.inl hj
    · exact Or.inr (hnew j hj hne)

theorem heard_post (hn : net.nodes.get? id = some n) (noted : String → String → Prop)
    (hh : ∀ t k, n'.ledger.Heard t k ↔ noted t k ∨ n.ledger.Heard t k) (sends : List Message)
    (j t k : String) :
    (net.post id n' sends).Heard j t k ↔ (j = id ∧ noted t k) ∨ net.Heard j t k := by
  unfold Heard post
  rw [Dict.get?_insert]
  by_cases hj : id = j
  · subst hj
    simp [hn, hh]
  · simp [hj, Ne.symm hj]

theorem heard_post_of_iff (hn : net.nodes.get? id = some n)
    (hh : ∀ t k, n'.ledger.Heard t k ↔ n.ledger.Heard t k) (sends : List Message)
    (j t k : String) : (net.post id n' sends).Heard j t k ↔ net.Heard j t k := by
  rw [heard_post hn (fun _ _ => False) (fun t k => by simp [hh t k]) sends j t k]
  simp

theorem Conserves.of_subset (hh : ∀ j t k, net'.Heard j t k ↔ net.Heard j t k)
    (hs : net'.started = net.started) (hq : ∀ e ∈ net.queue, e ∈ net'.queue)
    (hf : ∀ e ∈ net.flight, e ∈ net'.flight) : Conserves agents net net' where
  heard j t k := (hh j t k).mpr
  cast t k hk := Or.inl ((hh k t k).mp hk)
  started _ _ ha := Or.inl (hs ▸ ha)
  queue e he := Or.inl (hq e he)
  flight e he := Or.inl (hf e he)

theorem Conserves.put (hn : net.nodes.get? id = some n) (hl : n'.ledger = n.ledger) :
    Conserves agents net { net with nodes := net.nodes.insert id n' } := by
  have hh := heard_post_of_iff hn (fun t k => by rw [hl]) []
  exact .of_subset hh rfl (fun e he => he) (fun e he => he)

theorem Faithful.conserves_start (h : net.Faithful agents) (hn : net.nodes.get? id = some n)
    (hnew : net.started.get? t = none) (task : String) (context : Fields) (now : Instant) :
    Conserves agents net
      { net.post id (n.start t task context now).1 [(n.start t task context now).2] with
        queue := (id, (n.start t task context now).2) ::ₘ net.queue
        started := net.started.insert t ⟨n.id, task, context⟩ } := by
  have hself := h.isSome_agents hn
  obtain ⟨-, hh, -⟩ := (h.node id n hn).start hself now hnew task context
  have hheard := heard_post_of_iff hn hh []
  refine
    { heard := fun j t' k hk => (hheard j t' k).mpr hk
      cast := fun t' k hk => Or.inl ((hheard k t' k).mp hk)
      started := fun t' a ha => ?_
      queue := fun e he => Or.inl (Multiset.mem_cons_of_mem he)
      flight := fun e he => Or.inl (Multiset.mem_add.mpr (Or.inl he)) }
  · change (net.started.insert t _).get? t' = some a at ha
    rw [Dict.get?_insert] at ha
    split at ha
    · next he =>
      cases ha
      subst he
      refine Or.inr fun k hk => ?_
      by_cases hid : k = id
      · exact Or.inl (Multiset.mem_cons.mpr (Or.inl (by rw [hid]; rfl)))
      · refine Or.inr (Multiset.mem_add.mpr (Or.inr (Node.mem_envelopes.mpr ⟨?_, ?_⟩)))
        · exact List.mem_singleton.mpr rfl
        · exact ((h.node id n hn).isSome_peers k).mpr ⟨hid, hk⟩
    · exact Or.inl ha

theorem Faithful.conserves_execute (h : net.Faithful agents) (hn : net.nodes.get? id = some n)
    {m : Message} {rest : Multiset (String × Message)} (hq : net.queue = (id, m) ::ₘ rest)
    (now : Instant) :
    Conserves agents net
      ({ net with queue := rest }.post id (n.execute m now).1 (n.execute m now).2) := by
  have hself := h.isSome_agents hn
  obtain ⟨-, a, t, ha, rfl⟩ := h.queue (id, m) (by simp [hq])
  obtain ⟨hf', hh, ⟨v, -, hv⟩, -⟩ := (h.node id n hn).execute hself ha now
  have hheard := heard_post hn (fun t' k => t' = t ∧ k = id) hh []
  refine
    { heard := fun j t' k hk => (hheard j t' k).mpr (Or.inr hk)
      cast := fun t' k hk => ?_
      started := fun t' a' ha' => Or.inl ha'
      queue := fun e he => ?_
      flight := fun e he => Or.inl (Multiset.mem_add.mpr (Or.inl he)) }
  · rcases (hheard k t' k).mp hk with ⟨rfl, rfl, -⟩ | hold
    · refine Or.inr fun j hj hne =>
      ⟨n.resultMessage t' v (some a.owner), ?_, rfl, (h.node k n hn).id_eq, rfl⟩
      refine Multiset.mem_add.mpr (Or.inr (Node.mem_envelopes.mpr ⟨hv, ?_⟩))
      exact (hf'.isSome_peers j).mpr ⟨hne, hj⟩
    · exact Or.inl hold
  · rw [hq] at he
    rcases Multiset.mem_cons.mp he with rfl | he
    · exact Or.inr ((hheard id t id).mpr (Or.inl ⟨rfl, rfl, rfl⟩))
    · exact Or.inl he

theorem Faithful.conserves_deliver (h : net.Faithful agents) (hn : net.nodes.get? id = some n)
    {m : Message} {rest : Multiset (String × Message)} (hf : net.flight = (id, m) ::ₘ rest)
    (now : Instant) :
    Conserves agents net
      { { net with flight := rest }.post id (n.handle m now).node (n.handle m now).sends with
        queue := net.queue + ((n.handle m now).runs : Multiset Message).map fun m => (id, m) } := by
  have hm : (id, m) ∈ net.flight := by simp [hf]
  have hne := (h.flight _ hm).2.1
  have hd := h.handle hn hm now
  have hheard := heard_post hn _ hd.heard []
  refine
    { heard := fun j t k hk => (hheard j t k).mpr (Or.inr hk)
      cast := fun t k hk => ?_
      started := fun t a ha => Or.inl ha
      queue := fun e he => Or.inl (Multiset.mem_add.mpr (Or.inl he))
      flight := fun e he => ?_ }
  · rcases (hheard k t k).mp hk with ⟨rfl, -, -, hs⟩ | hold
    · exact absurd hs.symm hne
    · exact Or.inl hold
  · rw [hf] at he
    rcases Multiset.mem_cons.mp he with rfl | he
    · refine Or.inr ⟨fun hkind => ?_, fun hkind => ?_⟩
      · refine Multiset.mem_add.mpr (Or.inr (Multiset.mem_map.mpr ⟨m, ?_, rfl⟩))
        rw [hd.runs, if_pos hkind]
        exact List.mem_singleton.mpr rfl
      · exact (hheard id m.taskId m.sender).mpr (Or.inl ⟨rfl, hkind, rfl, rfl⟩)
    · exact Or.inl (Multiset.mem_add.mpr (Or.inl he))

theorem Faithful.conserves (h : net.Faithful agents) (hs : Step false net net') :
    Conserves agents net net' := by
  cases hs with
  | start taskId task context now hn hnew => exact h.conserves_start hn hnew task context now
  | execute now hn hq => exact h.conserves_execute hn hq now
  | deliver now hn hf => exact h.conserves_deliver hn hf now
  | duplicate hf =>
    exact .of_subset (fun _ _ _ => Iff.rfl) rfl (fun e he => he)
      (fun e he => Multiset.mem_cons_of_mem he)
  | lose hl => cases hl
  | contact failure now hn => exact .put hn rfl
  | await taskId hn => exact .put hn rfl
  | leave taskId hn => exact .put hn rfl

theorem Fresh.covered (h : net.Fresh agents) : net.Covered agents := by
  constructor
  · intro t a ha
    rw [h.started_eq, Dict.get?_empty] at ha
    cases ha
  · rintro t k ⟨n, hn, r, hr, -⟩
    rw [h.mesh.records_eq k n hn, Dict.get?_empty] at hr
    cases hr

theorem Covered.steps (h : net.Covered agents) (hf : net.Faithful agents)
    (hs : Steps false net net') : net'.Covered agents := by
  induction hs with
  | refl => exact h
  | tail hprev hs ih => exact ih.of_conserves ((hf.steps hprev).conserves hs)

theorem Covered.heard_all (h : net.Covered agents) (hflight : net.flight = 0)
    (hqueue : net.queue = 0) (ha : net.started.get? t = some a) {j k : String}
    (hj : (agents.get? j).isSome) (hk : (agents.get? k).isSome) : net.Heard j t k := by
  have hown : net.Heard k t k := by simpa [hflight, hqueue] using h.asked t a ha k hk
  by_cases hjk : j = k
  · exact hjk ▸ hown
  · simpa [hflight] using h.told t k hown j hj hjk

/-- With nothing in flight and no execution waiting, all agents hold the same result of a started
task, and their records tell the task and all votes. -/
theorem Faithful.settled (h : net.Faithful agents) (hc : net.Covered agents)
    (hflight : net.flight = 0) (hqueue : net.queue = 0) (ha : net.started.get? t = some a)
    (hn : net.nodes.get? id = some n) :
    ∃ b r, n.ledger.box.get? t = some b ∧ n.ledger.records.get? t = some r ∧
      b.result = some (a.decision agents) ∧ b.signal = some (a.decision agents) ∧
      r.status = .consensus ∧ r.result = some (a.decision agents) ∧ r.owner = a.named ∧
      r.task = a.task ∧ r.context = a.context ∧ r.responses = a.votes agents := by
  have hself := h.isSome_agents hn
  have hd := (h.node id n hn).docket t a ha default
  have hall : ∀ k, (agents.get? k).isSome →
      ((n.ledger.docket t default).record.responses.get? k).isSome := by
    intro k hk
    obtain ⟨n', hn', hh⟩ := hc.heard_all hflight hqueue ha hself hk
    cases hn.symm.trans hn'
    exact (n.ledger.heard_iff t k default).mp hh
  obtain ⟨hvotes, hresult, hinf⟩ := hd.settled hself hall
  obtain ⟨-, hstatus, hrec⟩ := hd.final _ hresult
  have hb : ∃ b, n.ledger.box.get? t = some b := by
    cases hb : n.ledger.box.get? t with
    | some b => exact ⟨b, rfl⟩
    | none => simp [Ledger.docket, BallotBox.held, hb, Ballot.blank, Ballot.opened] at hresult
  obtain ⟨b, hb⟩ := hb
  obtain ⟨n', hn', r, hr, -⟩ := hc.heard_all hflight hqueue ha hself hself
  cases hn.symm.trans hn'
  have hdocket : n.ledger.docket t default = ⟨b, r⟩ := by
    simp [Ledger.docket, BallotBox.held_of_some hb, hr]
  have hsignal := hd.signal_eq
  have htask := hd.recordTask.trans hinf.task_eq
  have hcontext := hd.recordContext.trans hinf.context_eq
  have howner := hinf.owner_eq
  rw [hresult] at hsignal
  rw [hdocket] at hvotes hresult hstatus hrec hsignal htask hcontext howner
  exact ⟨b, r, hb, hr, hresult, hsignal, hstatus, hrec, howner, htask, hcontext, hvotes⟩

end Network

end AgentMesh
