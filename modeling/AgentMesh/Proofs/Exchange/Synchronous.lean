import AgentMesh.Mesh
import AgentMesh.Proofs.Exchange.Coverage
import AgentMesh.Proofs.Node.Neighbours

/-!
A mesh in which sends hand their messages over at once runs as a network does: a broadcast, with all
that its receivers broadcast in turn, is a row of deliveries of envelopes in flight (`Mesh.Leads`). No
envelope is lost on the way, since broadcasts within broadcasts go no deeper than the mesh follows
them.
-/

namespace AgentMesh

/-- The addresses of the neighbours of an agent and those who wait for a result stay. -/
structure Node.Stays (n n' : Node) : Prop where
  urls : ∀ k p', n'.peers.get? k = some p' →
    ∃ p, n.peers.get? k = some p ∧ p'.exchangeUrl = p.exchangeUrl
  waits : ∀ t, (n.awaited.get? t).isSome → (n'.awaited.get? t).isSome

namespace Node

variable {n : Node}

theorem Stays.of_address {n' : Node}
    (hp : n'.peers.mapValues Peer.address = n.peers.mapValues Peer.address)
    (hw : ∀ t, (n.awaited.get? t).isSome → (n'.awaited.get? t).isSome) : n.Stays n' where
  urls k p' hp' := by
    have hk := congrArg (fun d => d.get? k) hp
    simp only [Dict.get?_mapValues, hp', Option.map_some] at hk
    obtain ⟨p, hself, ha⟩ := Option.map_eq_some_iff.mp hk.symm
    have hendpoint : p.endpoint = p'.endpoint := congrArg Prod.snd ha
    exact ⟨p, hself, by rw [Peer.exchangeUrl, Peer.exchangeUrl, hendpoint]⟩
  waits := hw

theorem Stays.of_eq {n' : Node} (hp : n'.peers = n.peers) (ha : n'.awaited = n.awaited) :
    n.Stays n' :=
  .of_address (by rw [hp]) fun _ ht => ha ▸ ht

theorem stays_tell (ledger : Ledger) (t : String) (b : Option Ballot) :
    n.Stays (({ n with ledger } : Node).tell t b) := by
  refine .of_address (by rw [tell_peers]) fun t' ht => ?_
  unfold tell
  split
  · exact ht
  · change ((n.awaited.modify t _).get? t').isSome
    rw [Dict.get?_modify]
    split <;> simpa using ht

theorem stays_handle (m : Message) (now : Instant) : n.Stays (n.handle m now).node := by
  refine .of_address (n.address_apply (.handle m now)) fun t ht => ?_
  unfold handle
  cases m.kind with
  | task | heartbeat => exact ht
  | result | consensus => exact (stays_tell _ _ _).waits t ht

theorem stays_execute (m : Message) (now : Instant) : n.Stays (n.execute m now).1 := by
  unfold execute
  split
  · exact .of_eq rfl rfl
  · exact stays_tell _ _ _

theorem stays_noteContacts (failure : String → Option String) (now : Instant) :
    n.Stays (n.noteContacts failure now) :=
  .of_address (n.address_apply (.contact failure now)) fun _ ht => ht

end Node

namespace Mesh

def route? (mesh : Mesh) (url : String) : Option String :=
  match mesh.failure url with
  | none => mesh.addresses.get? url
  | some _ => none

def replace (mesh : Mesh) (id : String) (n : Node) : Mesh :=
  { mesh with nodes := mesh.nodes.insert id n }

theorem put_eq {n : Node} {id : String} (h : n.id = id) (mesh : Mesh) :
    mesh.put n = mesh.replace id n := by
  rw [put, h, replace]

theorem start_eq {mesh : Mesh} {id : String} {n : Node} (hn : mesh.nodes.get? id = some n)
    (hid : n.id = id) (now : Instant) (t task : String) (context : Fields) (waiting : Bool) :
    mesh.start now id t task context waiting =
      let m := n.taskMessage t task context
      let started := (n.start t task context now).1
      let opened := if waiting then started.await t else started
      ((mesh.replace id opened).broadcast now id m).execute now id m := by
  simp only [start, hn]
  rw [put_eq (by cases waiting <;> exact hid)]
  rfl

theorem update_eq {mesh : Mesh} {id : String} {n : Node} (hn : mesh.nodes.get? id = some n)
    (f : Node → Node) : mesh.update id f = mesh.replace id (f n) := by
  rw [update, Dict.modify_of_some hn, replace]

/-- All neighbours are reached under their addresses, and the agents of `waiting` wait. -/
structure Wired (route : String → Option String) (waiting : String → String → Prop)
    (mesh : Mesh) : Prop where
  route_eq : ∀ url, mesh.route? url = route url
  peers : ∀ id n k p, mesh.nodes.get? id = some n → n.peers.get? k = some p →
    route p.exchangeUrl = some k
  waits : ∀ id n t, mesh.nodes.get? id = some n → waiting id t → (n.awaited.get? t).isSome

variable {route : String → Option String} {waiting : String → String → Prop} {mesh : Mesh}
  {id : String} {n n' : Node}

theorem Wired.peers_replace (hw : mesh.Wired route waiting) (hn : mesh.nodes.get? id = some n)
    (hs : n.Stays n') {j k : String} {m : Node} {p : Peer}
    (hm : (mesh.replace id n').nodes.get? j = some m) (hp : m.peers.get? k = some p) :
    route p.exchangeUrl = some k := by
  rw [Mesh.replace, Dict.get?_insert] at hm
  split at hm
  · cases hm
    obtain ⟨q, hq, he⟩ := hs.urls k p hp
    rw [he]
    exact hw.peers id n k q hn hq
  · exact hw.peers j m k p hm hp

theorem Wired.replace (hw : mesh.Wired route waiting) (hn : mesh.nodes.get? id = some n)
    (hs : n.Stays n') : (mesh.replace id n').Wired route waiting := by
  refine
    { route_eq := hw.route_eq, peers := fun j m k p => hw.peers_replace hn hs
      waits := fun j m t hm ht => ?_ }
  rw [Mesh.replace, Dict.get?_insert] at hm
  split at hm
  · next he =>
    cases hm
    exact hs.waits t (hw.waits id n t hn (he ▸ ht))
  · exact hw.waits j m t hm ht

theorem Wired.await (hw : mesh.Wired route waiting) (hn : mesh.nodes.get? id = some n)
    (hs : n.Stays n') (t : String) :
    (mesh.replace id (n'.await t)).Wired route fun j t' => j = id ∧ t' = t := by
  have hstays : n.Stays (n'.await t) := by
    refine { urls := hs.urls, waits := fun t' ht => ?_ }
    change ((n'.awaited.insert t _).get? t').isSome
    rw [Dict.get?_insert]
    split
    · rfl
    · exact hs.waits t' ht
  refine
    { route_eq := hw.route_eq, peers := fun j m k p => hw.peers_replace hn hstays
      waits := fun j m t' hm ht => ?_ }
  obtain ⟨rfl, rfl⟩ := ht
  have he : n'.await t' = m := by simpa [Mesh.replace] using hm
  simp [← he, Node.await]

def network (mesh : Mesh) (flight queue : Multiset (String × Message))
    (started : Dict Announcement) : Network :=
  { nodes := mesh.nodes, flight, queue := (mesh.queue : Multiset (String × Message)) + queue,
    started }

def mail (agents : Dict Executor) (id : String) (ms : List Message) : List (String × Message) :=
  ms.flatMap fun m => (agents.erase id).keys.map fun k => (k, m)

end Mesh

theorem Node.Member.keys_peers {agents : Dict Executor} {id : String} {n : Node}
    (h : n.Member agents id) : n.peers.keys = (agents.erase id).keys := by
  refine Dict.keys_eq fun k => ?_
  rw [h.isSome_peers k, Dict.get?_erase]
  by_cases hk : id = k <;> simp [hk, Ne.symm]

theorem Mesh.post_network {agents : Dict Executor} {id : String} {n : Node}
    (h : n.Member agents id) (mesh : Mesh) (flight queue : Multiset (String × Message))
    (started : Dict Announcement) (ms : List Message) :
    (mesh.network flight queue started).post id n ms =
      (mesh.replace id n).network (mail agents id ms + flight) queue started := by
  rw [Network.post, Node.envelopes, h.keys_peers, network, network, mail, Multiset.add_comm flight]
  rfl

namespace Mesh

variable {agents : Dict Executor} {route : String → Option String}
  {waiting : String → String → Prop}

/-- What comes of a part of a run of the mesh that hands over the envelopes `sent`. -/
def Leads (agents : Dict Executor) (route : String → Option String)
    (waiting : String → String → Prop) (sent : List (String × Message)) (mesh mesh' : Mesh) : Prop :=
  ∀ flight queue started, mesh.Wired route waiting →
    (mesh.network (sent + flight) queue started).Faithful agents →
    mesh'.Wired route waiting ∧
      Network.Steps false (mesh.network (sent + flight) queue started)
        (mesh'.network flight queue started) ∧
      ((∀ e ∈ sent, e.2.kind ≠ .task) → mesh'.queue = mesh.queue)

theorem Leads.refl (mesh : Mesh) : Leads agents route waiting [] mesh mesh := by
  intro flight queue started hw _
  refine ⟨hw, ?_, fun _ => rfl⟩
  rw [Multiset.coe_nil, Multiset.zero_add]

theorem Leads.trans {mesh mesh₁ mesh₂ : Mesh} {sent sent₁ : List (String × Message)}
    (h : Leads agents route waiting sent mesh mesh₁)
    (h₁ : Leads agents route waiting sent₁ mesh₁ mesh₂) :
    Leads agents route waiting (sent ++ sent₁) mesh mesh₂ := by
  intro flight queue started hw hf
  rw [← Multiset.coe_add, Multiset.add_assoc] at hf ⊢
  obtain ⟨hw₁, hs, hq⟩ := h (sent₁ + flight) queue started hw hf
  obtain ⟨hw₂, hs₁, hq₁⟩ := h₁ flight queue started hw₁ (hf.steps hs)
  refine ⟨hw₂, hs.trans hs₁, fun hkind => ?_⟩
  rw [hq₁ fun e he => hkind e (List.mem_append_right sent he),
    hq fun e he => hkind e (List.mem_append_left sent₁ he)]

theorem Leads.foldl {α : Type} {f : Mesh → α → Mesh} {sent : α → List (String × Message)}
    {l : List α} (h : ∀ x ∈ l, ∀ mesh, Leads agents route waiting (sent x) mesh (f mesh x))
    (mesh : Mesh) : Leads agents route waiting (l.flatMap sent) mesh (l.foldl f mesh) := by
  induction l generalizing mesh with
  | nil => exact Leads.refl mesh
  | cons x r ih =>
    have hx := h x List.mem_cons_self mesh
    exact hx.trans (ih (fun y hy => h y (List.mem_cons_of_mem x hy)) (f mesh x))

theorem route?_eq_some {mesh : Mesh} {url id : String} (h : mesh.route? url = some id) :
    mesh.failure url = none ∧ mesh.addresses.get? url = some id := by
  unfold route? at h
  split at h
  · next hf => exact ⟨hf, h⟩
  · cases h

theorem mail_eq_flatMap (agents : Dict Executor) (id : String) (ms : List Message) :
    mail agents id ms = ms.flatMap fun m => mail agents id [m] := by
  simp [mail]

theorem mem_mail {id : String} {ms : List Message} {e : String × Message} :
    e ∈ mail agents id ms ↔ ∃ m ∈ ms, ∃ k ∈ (agents.erase id).keys, (k, m) = e := by
  simp [mail]

theorem exists_node {mesh : Mesh} {flight queue : Multiset (String × Message)}
    {started : Dict Announcement} {id : String}
    (hf : (mesh.network flight queue started).Faithful agents) (hself : (agents.get? id).isSome) :
    ∃ n, mesh.nodes.get? id = some n :=
  Option.isSome_iff_exists.mp ((hf.isSome_nodes id).mpr hself)

def react (mesh : Mesh) (id : String) (r : Reaction) : Mesh :=
  { mesh.replace id r.node with queue := mesh.queue ++ r.runs.map fun m => (id, m) }

theorem receive_eq {mesh : Mesh} {id : String} {n : Node} (hn : mesh.nodes.get? id = some n)
    {m : Message} {now : Instant} (hid : (n.handle m now).node.id = id)
    (forward : Mesh → String → Message → Mesh) :
    (receive forward mesh id m now).1 =
      (n.handle m now).sends.foldl (fun mesh m => forward mesh id m)
        (mesh.react id (n.handle m now)) := by
  simp only [receive, hn, put_eq hid]
  rfl

theorem deliver_step {mesh : Mesh} {id : String} {n : Node} (hn : mesh.nodes.get? id = some n)
    {m : Message} {now : Instant} (hm : (n.handle m now).node.Member agents id)
    (flight queue : Multiset (String × Message)) (started : Dict Announcement) :
    Network.Step false (mesh.network ([(id, m)] + flight) queue started)
      ((mesh.react id (n.handle m now)).network
        (mail agents id (n.handle m now).sends + flight) queue started) := by
  have hs : Network.Step false (mesh.network ([(id, m)] + flight) queue started)
      { (mesh.network flight queue started).post id (n.handle m now).node (n.handle m now).sends with
        queue := mesh.queue + queue +
          ((n.handle m now).runs : Multiset Message).map fun m => (id, m) } :=
    .deliver now hn (Multiset.singleton_add (id, m) flight)
  rw [post_network hm, Multiset.map_coe, Multiset.add_assoc, Multiset.add_comm queue,
    ← Multiset.add_assoc, Multiset.coe_add] at hs
  exact hs

/-- Handing an envelope over at once is delivering it, if what its receiver broadcasts in turn is
handed over as well. -/
theorem leads_receive {forward : Mesh → String → Message → Mesh} {id : String} {m : Message}
    {now : Instant}
    (hforward : ∀ mesh m', m.kind = .result → m'.kind = .consensus →
      Leads agents route waiting (mail agents id [m']) mesh (forward mesh id m'))
    (hself : (agents.get? id).isSome) (mesh : Mesh) :
    Leads agents route waiting [(id, m)] mesh (receive forward mesh id m now).1 := by
  intro flight queue started hw hf
  obtain ⟨n, hn⟩ := exists_node hf hself
  have hm : (id, m) ∈ (mesh.network ([(id, m)] + flight) queue started).flight := by simp [network]
  have hd := hf.handle hn hm now
  have hw₁ : (mesh.react id (n.handle m now)).Wired route waiting := by
    have hi := hw.replace hn (n.stays_handle m now)
    exact ⟨hi.route_eq, hi.peers, hi.waits⟩
  have hstep := deliver_step hn hd.faithful.toMember flight queue started
  -- what the receiver broadcasts in turn is in flight by now, and `forward` hands it over
  have hsend : ∀ m' ∈ (n.handle m now).sends, ∀ mesh,
      Leads agents route waiting (mail agents id [m']) mesh (forward mesh id m') := by
    intro m' hm' mesh
    obtain ⟨hkind, -, hcons, -⟩ := hd.sends m' hm'
    exact hforward mesh m' hkind hcons
  have hfold := Leads.foldl hsend (mesh.react id (n.handle m now))
  rw [← mail_eq_flatMap] at hfold
  obtain ⟨hw', hs, hq⟩ := hfold flight queue started hw₁ (hf.step hstep)
  rw [receive_eq hn hd.faithful.id_eq]
  refine ⟨hw', .head hstep hs, fun hkind => ?_⟩
  have htask : m.kind ≠ .task := hkind (id, m) (List.mem_singleton.mpr rfl)
  have hruns : (n.handle m now).runs = [] := by rw [hd.runs, if_neg htask]
  rw [hq fun e he => ?_]
  · simp [react, hruns]
  · obtain ⟨m', hm', k, -, rfl⟩ := mem_mail.mp he
    rw [(hd.sends m' hm').2.2.1]
    simp

theorem leads_contacts {id : String} (hself : (agents.get? id).isSome) (now : Instant)
    (mesh : Mesh) :
    Leads agents route waiting [] mesh
      (mesh.update id fun n => n.noteContacts mesh.failure now) := by
  intro flight queue started hw hf
  obtain ⟨n, hn⟩ := exists_node hf hself
  rw [update_eq hn, Multiset.coe_nil, Multiset.zero_add]
  exact ⟨hw.replace hn (n.stays_noteContacts mesh.failure now),
    .single (.contact mesh.failure now hn), fun _ => rfl⟩

def hand (depth : Nat) (now : Instant) (m : Message) (mesh : Mesh) (p : Peer) : Mesh :=
  match mesh.failure p.exchangeUrl, mesh.addresses.get? p.exchangeUrl with
  | none, some receiver =>
    (receive (broadcastWithin depth now)
      { mesh with log := mesh.log ++ [⟨p.exchangeUrl, m, now⟩] } receiver m now).1
  | _, _ => { mesh with log := mesh.log ++ [⟨p.exchangeUrl, m, now⟩] }

theorem broadcastWithin_succ {mesh : Mesh} {id : String} {n : Node}
    (hn : mesh.nodes.get? id = some n) (depth : Nat) (now : Instant) (m : Message) :
    broadcastWithin (depth + 1) now mesh id m =
      let mesh := n.peers.values.foldl (hand depth now m) mesh
      mesh.update id fun n => n.noteContacts mesh.failure now := by
  rw [broadcastWithin, hn]
  rfl

theorem hand_of_route {mesh : Mesh} {p : Peer} {id : String}
    (h : mesh.route? p.exchangeUrl = some id) (depth : Nat) (now : Instant) (m : Message) :
    hand depth now m mesh p =
      (receive (broadcastWithin depth now)
        { mesh with log := mesh.log ++ [⟨p.exchangeUrl, m, now⟩] } id m now).1 := by
  obtain ⟨hf, ha⟩ := route?_eq_some h
  simp only [hand, hf, ha]

/-- A broadcast delivers the message to all others, at a depth that leaves room for what comes of it:
only an answer may make its receiver broadcast in turn, and nothing comes of that. -/
theorem leads_broadcastWithin (now : Instant) {depth : Nat} {id : String} {m : Message}
    (hself : (agents.get? id).isSome) (hdepth : 1 ≤ depth) (hresult : m.kind = .result → 2 ≤ depth)
    (mesh : Mesh) :
    Leads agents route waiting (mail agents id [m]) mesh
      (broadcastWithin depth now mesh id m) := by
  induction depth generalizing id m mesh with
  | zero => omega
  | succ depth ih =>
    intro flight queue started hw hf
    obtain ⟨n, hn⟩ := exists_node hf hself
    have hmember := (hf.node id n hn).toMember
    have hhand : ∀ e ∈ n.peers.entries, ∀ mesh,
        Leads agents route waiting [(e.1, m)] mesh (hand depth now m mesh e.2) := by
      -- the addresses are those from before the broadcast: no step changes them
      intro e he mesh₁ flight queue started hw₁ hf₁
      have hp : n.peers.get? e.1 = some e.2 := Dict.get?_eq_some_iff.mpr he
      have hroute := (hw₁.route_eq _).trans (hw.peers id n e.1 e.2 hn hp)
      have hk := ((hmember.isSome_peers e.1).mp (by simp [hp])).2
      rw [hand_of_route hroute]
      refine leads_receive (fun mesh m' hm hm' => ?_) hk _ flight queue started
        ⟨hw₁.route_eq, hw₁.peers, hw₁.waits⟩ hf₁
      have htwo := hresult hm
      exact ih hk (by omega) (fun hr => by simp [hm'] at hr) mesh
    have hmail : mail agents id [m] = n.peers.entries.flatMap fun e => [(e.1, m)] := by
      rw [← List.map_eq_flatMap, mail, List.flatMap_singleton, ← hmember.keys_peers, Dict.keys,
        List.map_map]
      rfl
    have hfold := Leads.foldl hhand mesh
    rw [← hmail] at hfold
    have hleads := hfold.trans (leads_contacts hself now _)
    rw [List.append_nil] at hleads
    rw [broadcastWithin_succ hn, Dict.values, List.foldl_map]
    exact hleads flight queue started hw hf

theorem leads_broadcast (now : Instant) {id : String} (hself : (agents.get? id).isSome)
    (m : Message) (mesh : Mesh) :
    Leads agents route waiting (mail agents id [m]) mesh (mesh.broadcast now id m) :=
  leads_broadcastWithin now hself (Nat.le_succ 1) (fun _ => le_refl 2) mesh

theorem leads_broadcastAll (now : Instant) {id : String} (hself : (agents.get? id).isSome)
    (ms : List Message) (mesh : Mesh) :
    Leads agents route waiting (mail agents id ms) mesh (mesh.broadcastAll now id ms) := by
  rw [mail_eq_flatMap]
  exact Leads.foldl (fun m _ mesh => leads_broadcast now hself m mesh) mesh

variable {flight queue : Multiset (String × Message)} {started : Dict Announcement} {mesh : Mesh}

/-- A waiting execution runs, and its vote is told to all others at once. -/
theorem execute_steps (hw : mesh.Wired route waiting) {run : String × Message}
    (hf : (mesh.network flight (run ::ₘ queue) started).Faithful agents) (now : Instant) :
    (mesh.execute now run.1 run.2).Wired route waiting ∧
      Network.Steps false (mesh.network flight (run ::ₘ queue) started)
        ((mesh.execute now run.1 run.2).network flight queue started) ∧
      (mesh.execute now run.1 run.2).queue = mesh.queue := by
  obtain ⟨id, m⟩ := run
  obtain ⟨hself, a, t, ha, hm⟩ := hf.queue (id, m) (by simp [network])
  obtain rfl : m = a.message t := hm
  obtain ⟨n, hn⟩ := exists_node hf hself
  obtain ⟨hf', -, -, hsends⟩ := (hf.node id n hn).execute hself ha now
  let n' := (n.execute (a.message t) now).1
  let ms := (n.execute (a.message t) now).2
  have hexecute : mesh.execute now id (a.message t) =
      (mesh.replace id n').broadcastAll now id ms := by
    simp only [execute, hn, put_eq hf'.id_eq, n', ms]
  have hstep : Network.Step false (mesh.network flight ((id, a.message t) ::ₘ queue) started)
      ((mesh.replace id n').network (mail agents id ms + flight) queue started) := by
    rw [← post_network hf'.toMember]
    exact .execute now hn (Multiset.add_cons (id, a.message t) mesh.queue queue)
  have hw' := hw.replace hn (n.stays_execute (a.message t) now)
  obtain ⟨hw₁, hs, hq⟩ :=
    leads_broadcastAll now hself ms _ flight queue started hw' (hf.step hstep)
  rw [hexecute]
  refine ⟨hw₁, .head hstep hs, hq fun e he => ?_⟩
  obtain ⟨m, hm, k, -, rfl⟩ := mem_mail.mp he
  exact (hsends m hm).2.1

theorem executions_steps (hw : mesh.Wired route waiting) (runs : List (String × Message))
    (hf : (mesh.network flight (runs + queue) started).Faithful agents) (now : Instant) :
    let mesh' := runs.foldl (fun mesh run => mesh.execute now run.1 run.2) mesh
    mesh'.Wired route waiting ∧
      Network.Steps false (mesh.network flight (runs + queue) started)
        (mesh'.network flight queue started) ∧ mesh'.queue = mesh.queue := by
  intro mesh'
  induction runs generalizing mesh with
  | nil =>
    refine ⟨hw, ?_, rfl⟩
    rw [Multiset.coe_nil, Multiset.zero_add]
    exact .refl
  | cons run runs ih =>
    rw [← Multiset.cons_coe, Multiset.cons_add] at hf ⊢
    obtain ⟨hw₁, hs, hq⟩ := execute_steps hw hf now
    obtain ⟨hw₂, hs₁, hq₁⟩ := ih hw₁ (hf.steps hs)
    exact ⟨hw₂, hs.trans hs₁, hq₁.trans hq⟩

theorem drain_steps (hw : mesh.Wired route waiting)
    (hf : (mesh.network flight 0 started).Faithful agents) (now : Instant) :
    (mesh.drain now).Wired route waiting ∧
      Network.Steps false (mesh.network flight 0 started) ((mesh.drain now).network flight 0 started) ∧
      (mesh.drain now).queue = [] := by
  have hnetwork : mesh.network flight 0 started =
      network { mesh with queue := [] } flight (mesh.queue + 0) started := by
    simp [network]
  have hw' : Wired route waiting { mesh with queue := [] } := ⟨hw.route_eq, hw.peers, hw.waits⟩
  rw [hnetwork] at hf ⊢
  exact executions_steps hw' mesh.queue hf now

theorem announce_steps (hf : (mesh.network flight queue started).Faithful agents) {id t : String}
    {n : Node} (hn : mesh.nodes.get? id = some n) (hnew : started.get? t = none) (task : String)
    (context : Fields) (now : Instant) :
    let a : Announcement := ⟨id, task, context⟩
    Network.Steps false (mesh.network flight queue started)
      ((mesh.replace id ((n.start t task context now).1.await t)).network
        (mail agents id [a.message t] + flight) ((id, a.message t) ::ₘ queue)
        (started.insert t a)) := by
  intro a
  have hnode := hf.node id n hn
  obtain ⟨hf', -, hm⟩ := hnode.start (hf.isSome_agents hn) now hnew task context
  let n' := (n.start t task context now).1
  have hstart : Network.Step false (mesh.network flight queue started)
      ((mesh.replace id n').network (mail agents id [a.message t] + flight)
        ((id, a.message t) ::ₘ queue) (started.insert t a)) := by
    have hs : Network.Step false (mesh.network flight queue started) _ :=
      .start t task context now hn hnew
    rw [hm, hnode.id_eq, post_network hf'.toMember] at hs
    simp only [network, Multiset.add_cons] at hs ⊢
    exact hs
  have hawait : ∀ flight queue started,
      Network.Step false ((mesh.replace id n').network flight queue started)
        ((mesh.replace id (n'.await t)).network flight queue started) := by
    intro flight queue started
    have hs : Network.Step false ((mesh.replace id n').network flight queue started) _ :=
      .await t (Dict.get?_insert_self mesh.nodes id n')
    simp only [network, replace, Dict.insert_insert] at hs
    exact hs
  exact (Relation.ReflTransGen.single hstart).tail (hawait _ _ _)

theorem start_steps (hw : mesh.Wired route waiting)
    (hf : (mesh.network flight queue started).Faithful agents) {id t : String} {n : Node}
    (hn : mesh.nodes.get? id = some n) (hnew : started.get? t = none) (task : String)
    (context : Fields) (now : Instant) :
    let mesh' := mesh.start now id t task context true
    mesh'.Wired route (fun j t' => j = id ∧ t' = t) ∧
      Network.Steps false (mesh.network flight queue started)
        (mesh'.network flight queue (started.insert t ⟨id, task, context⟩)) := by
  intro mesh'
  have hself := hf.isSome_agents hn
  obtain ⟨-, -, hm⟩ := (hf.node id n hn).start hself now hnew task context
  let a : Announcement := ⟨id, task, context⟩
  let n' := (n.start t task context now).1
  have hstart : mesh' =
      ((mesh.replace id (n'.await t)).broadcast now id (a.message t)).execute now id
        (a.message t) := by
    have hm' : n.taskMessage t task context = a.message t := hm
    rw [← hm']
    exact start_eq hn (hf.node id n hn).id_eq now t task context true
  have hs₁ := announce_steps hf hn hnew task context now
  have hw₁ : (mesh.replace id (n'.await t)).Wired route fun j t' => j = id ∧ t' = t := by
    have hstays : n.Stays n' := .of_eq rfl rfl
    exact hw.await hn hstays t
  obtain ⟨hw₂, hs₂, -⟩ :=
    leads_broadcast now hself (a.message t) _ flight _ _ hw₁ (hf.steps hs₁)
  obtain ⟨hw₃, hs₃, -⟩ := execute_steps hw₂ (hf.steps (hs₁.trans hs₂)) now
  rw [hstart]
  exact ⟨hw₃, (hs₁.trans hs₂).trans hs₃⟩

end Mesh

end AgentMesh
