import AgentMesh.Proofs.Node.Runs

/-!
The neighbours of an agent and their health. An agent touches its table of neighbours in two ways only
(`Node.peers_apply`), so the neighbours and their endpoints are those that it was built with after every
run, and each is healthy exactly if it has been in contact and no error is noted (`Node.Knows.run`). What
contacts leave behind depends on the configured table and on how the sends went, whatever was noted before
(`Node.Knows.noteContacts`).
-/

namespace AgentMesh

namespace Peer

/-- A peer as an agent gets it: from a name and an endpoint, or from a list. -/
inductive Made : Peer → Prop
  | single (id endpoint : String) : Made (ofEndpoint id endpoint)
  | listed {p : Peer} {raw : String} (h : p ∈ parseList raw) : Made p

def address (p : Peer) : String × String := (p.id, p.endpoint)

/-- A peer is healthy exactly if it has been in contact and no error is noted. -/
def Honest (p : Peer) : Prop := p.healthy = true ↔ p.lastSeen.isSome = true ∧ p.lastError = none

/-- The peer after a contact that went as `failure` tells, which gives the error of an address. -/
def contacted (failure : String → Option String) (now : Instant) (p : Peer) : Peer :=
  { p with
    healthy := (failure p.exchangeUrl).isNone
    lastSeen := some now
    lastError := failure p.exchangeUrl }

theorem ofEndpoint_of_ofFragment? {fragment : List Char} {p : Peer}
    (h : ofFragment? fragment = some p) : p = ofEndpoint p.id p.endpoint := by
  unfold ofFragment? at h
  split at h
  split at h
  · cases h
  · cases h
    rfl

theorem Made.eq_ofEndpoint {p : Peer} (h : p.Made) : p = ofEndpoint p.id p.endpoint := by
  cases h with
  | single => rfl
  | listed h =>
    obtain ⟨piece, -, hp⟩ := List.mem_filterMap.mp h
    exact ofEndpoint_of_ofFragment? hp

theorem Made.honest {p : Peer} (h : p.Made) : p.Honest := by
  rw [h.eq_ofEndpoint]
  simp [Honest, ofEndpoint]

theorem honest_succeeded (p : Peer) (now : Instant) : (p.succeeded now).Honest := by
  simp [Honest, succeeded]

theorem honest_contacted (failure : String → Option String) (now : Instant) (p : Peer) :
    (p.contacted failure now).Honest := by
  simp [Honest, contacted]

theorem mapValues_address {α : Type} (f : String × String → α) {d e : Dict Peer}
    (h : d.mapValues address = e.mapValues address) :
    d.mapValues (f ∘ address) = e.mapValues (f ∘ address) := by
  rw [← Dict.mapValues_mapValues, h, Dict.mapValues_mapValues]

theorem mapValues_contacted {d e : Dict Peer} (h : d.mapValues address = e.mapValues address)
    (failure : String → Option String) (now : Instant) :
    d.mapValues (contacted failure now) = e.mapValues (contacted failure now) :=
  mapValues_address (fun a => (ofEndpoint a.1 a.2).contacted failure now) h

theorem exchangeUrls_eq {d e : Dict Peer} (h : d.mapValues address = e.mapValues address) :
    d.values.map exchangeUrl = e.values.map exchangeUrl := by
  have hvalues : ∀ d : Dict Peer, d.values.map exchangeUrl = (d.mapValues exchangeUrl).values :=
    fun d => by simp [Dict.values, Dict.mapValues]
  have hsame : d.mapValues exchangeUrl = e.mapValues exchangeUrl :=
    mapValues_address (fun a => (ofEndpoint a.1 a.2).exchangeUrl) h
  rw [hvalues, hvalues, hsame]

end Peer

namespace Node

/-- The peers that an agent is configured with, by name: of two with the same name the later one. -/
def configured (peers : List Peer) : Dict Peer := Dict.ofList (peers.map fun p => (p.id, p))

theorem configured_get? {peers : List Peer} {k : String} {p : Peer}
    (h : (configured peers).get? k = some p) : p ∈ peers ∧ p.id = k := by
  obtain ⟨q, hq, he⟩ := List.mem_map.mp (Dict.mem_of_get?_ofList h)
  cases he
  exact ⟨hq, rfl⟩

theorem pairwise_configured (peers : List Peer) :
    ((configured peers).values.map Peer.id).Pairwise (· < ·) := by
  have hkeys : (configured peers).values.map Peer.id = (configured peers).keys := by
    rw [Dict.values, Dict.keys, List.map_map]
    refine List.map_congr_left fun e he => ?_
    exact (configured_get? (Dict.get?_eq_some_iff.mpr he)).2
  exact hkeys ▸ (configured peers).pairwise_keys

theorem noteContacts_peers (n : Node) (failure : String → Option String) (now : Instant) :
    (n.noteContacts failure now).peers = n.peers.mapValues (Peer.contacted failure now) := by
  refine Dict.ext_get? fun k => ?_
  rw [noteContacts, Dict.get?_mapValues, Dict.get?_mapValues]
  refine Option.map_congr fun p _ => ?_
  cases hf : failure p.exchangeUrl <;> simp [Peer.contacted, Peer.succeeded, Peer.failed, hf]

theorem peers_apply (n : Node) (op : Op) :
    (n.apply op).peers = n.peers ∨
      (∃ k now, (n.apply op).peers = n.peers.modify k fun p => p.succeeded now) ∨
      ∃ failure now, (n.apply op).peers = n.peers.mapValues (Peer.contacted failure now) := by
  have htell : ∀ ledger t b, (({ n with ledger } : Node).tell t b).peers = n.peers :=
    fun _ t b => tell_peers _ t b
  cases op with
  | submit => exact Or.inl (htell _ _ _)
  | execute m now =>
    left
    simp only [apply, execute]
    split
    · rfl
    · exact htell _ _ _
  | handle m now =>
    simp only [apply, handle]
    cases m.kind with
    | task => exact Or.inl rfl
    | result | consensus => exact Or.inl (htell _ _ _)
    | heartbeat => exact Or.inr (Or.inl ⟨m.sender, now, rfl⟩)
  | contact failure now => exact Or.inr (Or.inr ⟨failure, now, n.noteContacts_peers failure now⟩)
  | start | setParticipants | await | leave => exact Or.inl rfl

theorem address_apply (n : Node) (op : Op) :
    (n.apply op).peers.mapValues Peer.address = n.peers.mapValues Peer.address := by
  obtain h | ⟨k, now, h⟩ | ⟨failure, now, h⟩ := n.peers_apply op
  · rw [h]
  · rw [h]
    refine Dict.ext_get? fun k' => ?_
    rw [Dict.get?_mapValues, Dict.get?_mapValues, Dict.get?_modify]
    split
    · rw [Option.map_map]
      rfl
    · rfl
  · rw [h, Dict.mapValues_mapValues]
    rfl

/-- The neighbours of an agent are those of a table, at the same endpoints, and their health is what the
last contact showed. -/
structure Knows (table : Dict Peer) (n : Node) : Prop where
  address_eq : n.peers.mapValues Peer.address = table.mapValues Peer.address
  honest : ∀ p ∈ n.peers.values, p.Honest

variable {table : Dict Peer} {n : Node}

theorem knows_build (id : String) {peers : List Peer} (hmade : ∀ p ∈ peers, p.Made)
    (executor : Option Executor) (participants : Option Nat) (ledger : Ledger) :
    (build id peers executor participants ledger).Knows (configured peers) := by
  refine ⟨rfl, fun p hp => ?_⟩
  obtain ⟨k, hk⟩ := Dict.mem_values.mp hp
  exact (hmade p (configured_get? hk).1).honest

theorem Knows.apply (h : n.Knows table) (op : Op) : (n.apply op).Knows table := by
  refine ⟨(n.address_apply op).trans h.address_eq, fun p hp => ?_⟩
  obtain ⟨k, hk⟩ := Dict.mem_values.mp hp
  obtain he | ⟨k', now, he⟩ | ⟨failure, now, he⟩ := n.peers_apply op
  · exact h.honest p (he ▸ hp)
  · rw [he, Dict.get?_modify] at hk
    split at hk
    · obtain ⟨q, -, rfl⟩ := Option.map_eq_some_iff.mp hk
      exact q.honest_succeeded now
    · exact h.honest p (Dict.mem_values.mpr ⟨k, hk⟩)
  · rw [he, Dict.get?_mapValues] at hk
    obtain ⟨q, -, rfl⟩ := Option.map_eq_some_iff.mp hk
    exact q.honest_contacted failure now

theorem Knows.run (h : n.Knows table) (ops : List Op) : (n.run ops).Knows table := by
  induction ops generalizing n with
  | nil => exact h
  | cons op rest ih => exact ih (h.apply op)

/-- After its contacts an agent has noted of each neighbour how its own send went, and nothing of what
was noted before is left. -/
theorem Knows.noteContacts (h : n.Knows table) (failure : String → Option String) (now : Instant) :
    (n.noteContacts failure now).peers = table.mapValues (Peer.contacted failure now) := by
  rw [noteContacts_peers, Peer.mapValues_contacted h.address_eq]

end Node

end AgentMesh
