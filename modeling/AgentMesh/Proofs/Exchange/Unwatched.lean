import AgentMesh.Proofs.Exchange.Synchronous
import AgentMesh.Proofs.Node.Sends

/-!
Waiting leaves no trace. Whether or not someone waits, the agents exchange the same messages and come to
hold the same ledgers; so a wait, however it ends, comes to no more than running the executions that
wait (`Mesh.awaitResult_unwatched`).
-/

namespace AgentMesh

namespace Node

variable (n : Node)

def unwatched : Node := { n with awaited := Dict.empty }

theorem unwatched_tell (t : String) (b : Option Ballot) : (n.tell t b).unwatched = n.unwatched := by
  unfold tell
  split <;> rfl

theorem tell_unwatched (t : String) (b : Option Ballot) : n.unwatched.tell t b = n.unwatched := by
  unfold tell
  split <;> rfl

theorem settle_unwatched (ledger : Ledger) (t : String) (b : Option Ballot) :
    ({ n.unwatched with ledger } : Node).tell t b =
      (({ n with ledger } : Node).tell t b).unwatched := by
  rw [unwatched_tell]
  exact tell_unwatched { n with ledger } t b

theorem submit_unwatched (t result : String) (owner : Option String) (task : String)
    (context : Fields) (now : Instant) :
    n.unwatched.submit t result owner task context now =
      ((n.submit t result owner task context now).1.unwatched,
        (n.submit t result owner task context now).2) :=
  Prod.ext (n.settle_unwatched _ t _) rfl

theorem execute_unwatched (m : Message) (now : Instant) :
    n.unwatched.execute m now = ((n.execute m now).1.unwatched, (n.execute m now).2) := by
  cases he : n.executor with
  | none => simp only [execute, unwatched, he]
  | some executor =>
    have he' : n.unwatched.executor = some executor := he
    simp only [execute, he, he', submit_unwatched]

theorem handle_unwatched (m : Message) (now : Instant) :
    n.unwatched.handle m now =
      { n.handle m now with node := (n.handle m now).node.unwatched } := by
  unfold handle
  cases m.kind with
  | task => rfl
  | result =>
    simp only [onResult]
    rw [← settle_unwatched]
    rfl
  | consensus =>
    simp only [onConsensus]
    rw [← settle_unwatched]
    rfl
  | heartbeat => rfl

end Node

namespace Mesh

/-- The mesh without those who wait. -/
def unwatched (mesh : Mesh) : Mesh := { mesh with nodes := mesh.nodes.mapValues Node.unwatched }

variable (mesh : Mesh) (now : Instant) (id : String)

theorem unwatched_nodes_get? :
    mesh.unwatched.nodes.get? id = (mesh.nodes.get? id).map Node.unwatched :=
  Dict.get?_mapValues Node.unwatched mesh.nodes id

theorem put_unwatched (n : Node) : (mesh.put n).unwatched = mesh.unwatched.put n.unwatched := by
  simp only [put, unwatched, Dict.mapValues_insert]
  rfl

theorem update_unwatched {f g : Node → Node} (h : ∀ n, (f n).unwatched = g n.unwatched) :
    (mesh.update id f).unwatched = mesh.unwatched.update id g := by
  simp only [update, unwatched, Dict.mapValues_modify Node.unwatched h]

theorem foldl_unwatched {α : Type} {f : Mesh → α → Mesh}
    (h : ∀ mesh x, (f mesh x).unwatched = f mesh.unwatched x) (l : List α) :
    (l.foldl f mesh).unwatched = l.foldl f mesh.unwatched :=
  (List.foldl_hom unwatched fun mesh x => (h mesh x).symm).symm

theorem receive_unwatched {forward : Mesh → String → Message → Mesh}
    (h : ∀ mesh id m, (forward mesh id m).unwatched = forward mesh.unwatched id m) (m : Message) :
    (receive forward mesh id m now).1.unwatched = (receive forward mesh.unwatched id m now).1 := by
  have hnode := mesh.unwatched_nodes_get? id
  cases hn : mesh.nodes.get? id with
  | none =>
    rw [hn, Option.map_none] at hnode
    simp only [receive, hn, hnode]
  | some n =>
    rw [hn, Option.map_some] at hnode
    have hput := mesh.put_unwatched (n.handle m now).node
    simp only [receive, hn, hnode, Node.handle_unwatched, ← hput]
    exact foldl_unwatched _ (fun mesh m => h mesh id m) _

theorem hand_unwatched {depth : Nat} {m : Message}
    (h : ∀ mesh id m, (broadcastWithin depth now mesh id m).unwatched =
      broadcastWithin depth now mesh.unwatched id m) (p : Peer) :
    (hand depth now m mesh p).unwatched = hand depth now m mesh.unwatched p := by
  have hf : mesh.unwatched.failure = mesh.failure := rfl
  have ha : mesh.unwatched.addresses = mesh.addresses := rfl
  unfold hand
  rw [hf, ha]
  cases mesh.failure p.exchangeUrl with
  | some error => rfl
  | none =>
    cases mesh.addresses.get? p.exchangeUrl with
    | none => rfl
    | some receiver =>
      exact receive_unwatched { mesh with log := mesh.log ++ [⟨p.exchangeUrl, m, now⟩] } now
        receiver h m

theorem broadcastWithin_unwatched (depth : Nat) (m : Message) :
    (broadcastWithin depth now mesh id m).unwatched =
      broadcastWithin depth now mesh.unwatched id m := by
  induction depth generalizing mesh id m with
  | zero => rfl
  | succ depth ih =>
    have hnode := mesh.unwatched_nodes_get? id
    cases hn : mesh.nodes.get? id with
    | none =>
      rw [hn, Option.map_none] at hnode
      simp only [broadcastWithin, hn, hnode]
    | some n =>
      rw [hn, Option.map_some] at hnode
      let handed := n.peers.values.foldl (hand depth now m) mesh
      have hhanded : handed.unwatched = n.peers.values.foldl (hand depth now m) mesh.unwatched :=
        foldl_unwatched mesh (fun mesh p => hand_unwatched mesh now ih p) n.peers.values
      have hcontacts : (handed.update id fun n => n.noteContacts handed.failure now).unwatched =
          handed.unwatched.update id fun n => n.noteContacts handed.unwatched.failure now :=
        handed.update_unwatched id fun n => rfl
      rw [hhanded] at hcontacts
      rw [broadcastWithin_succ hn, broadcastWithin_succ hnode]
      exact hcontacts

theorem broadcast_unwatched (m : Message) :
    (mesh.broadcast now id m).unwatched = mesh.unwatched.broadcast now id m :=
  mesh.broadcastWithin_unwatched now id broadcastDepth m

theorem execute_unwatched (m : Message) :
    (mesh.execute now id m).unwatched = mesh.unwatched.execute now id m := by
  have hnode := mesh.unwatched_nodes_get? id
  cases hn : mesh.nodes.get? id with
  | none =>
    rw [hn, Option.map_none] at hnode
    simp only [execute, hn, hnode]
  | some n =>
    rw [hn, Option.map_some] at hnode
    simp only [execute, hn, hnode, Node.execute_unwatched, ← put_unwatched]
    exact foldl_unwatched _ (fun mesh m => mesh.broadcast_unwatched now id m) _

theorem drain_unwatched : (mesh.drain now).unwatched = mesh.unwatched.drain now :=
  foldl_unwatched { mesh with queue := [] }
    (fun mesh run => mesh.execute_unwatched now run.1 run.2) mesh.queue

theorem start_unwatched (t task : String) (context : Fields) (waiting : Bool) :
    (mesh.start now id t task context waiting).unwatched =
      mesh.unwatched.start now id t task context false := by
  have hnode := mesh.unwatched_nodes_get? id
  cases hn : mesh.nodes.get? id with
  | none =>
    rw [hn, Option.map_none] at hnode
    simp only [start, hn, hnode]
  | some n =>
    rw [hn, Option.map_some] at hnode
    have hopened : (if waiting then (n.start t task context now).1.await t
        else (n.start t task context now).1).unwatched =
          (n.unwatched.start t task context now).1 := by
      cases waiting <;> rfl
    simp only [start, hn, hnode, execute_unwatched, broadcast_unwatched, put_unwatched, hopened]
    rfl

variable {mesh now id}

theorem foldl_queue {α : Type} {f : Mesh → α → Mesh} {l : List α}
    (h : ∀ x ∈ l, ∀ mesh, (f mesh x).queue = mesh.queue) (mesh : Mesh) :
    (l.foldl f mesh).queue = mesh.queue := by
  induction l generalizing mesh with
  | nil => rfl
  | cons x rest ih =>
    have hrest := ih (fun y hy => h y (List.mem_cons_of_mem x hy)) (f mesh x)
    exact hrest.trans (h x List.mem_cons_self mesh)

theorem handle_of_not_task (n : Node) (now : Instant) {m : Message} (hm : m.kind ≠ .task) :
    (n.handle m now).runs = [] ∧ ∀ m' ∈ (n.handle m now).sends, m'.kind ≠ .task := by
  refine ⟨?_, fun m' hm' => ?_⟩
  · unfold Node.handle
    cases hk : m.kind with
    | task => exact absurd hk hm
    | result | consensus | heartbeat => rfl
  · obtain ⟨c, hc, hs⟩ := n.handle_sends m now
    rw [hs] at hm'
    simp [(hc m' (Option.mem_toList.mp hm')).2]

theorem receive_queue {forward : Mesh → String → Message → Mesh} {m : Message}
    (h : ∀ mesh id m, m.kind ≠ .task → (forward mesh id m).queue = mesh.queue)
    (hm : m.kind ≠ .task) (mesh : Mesh) (id : String) :
    (receive forward mesh id m now).1.queue = mesh.queue := by
  cases hn : mesh.nodes.get? id with
  | none => simp only [receive, hn]
  | some n =>
    obtain ⟨hruns, hsends⟩ := handle_of_not_task n now hm
    simp only [receive, hn]
    refine (foldl_queue (fun m' hm' mesh => h mesh id m' (hsends m' hm')) _).trans ?_
    simp [put, hruns]

theorem broadcastWithin_queue (depth : Nat) {m : Message} (hm : m.kind ≠ .task) (mesh : Mesh)
    (id : String) : (broadcastWithin depth now mesh id m).queue = mesh.queue := by
  induction depth generalizing mesh id m with
  | zero => rfl
  | succ depth ih =>
    have hhand : ∀ (p : Peer) (mesh : Mesh), (hand depth now m mesh p).queue = mesh.queue := by
      intro p mesh
      unfold hand
      cases mesh.failure p.exchangeUrl with
      | some error => rfl
      | none =>
        cases mesh.addresses.get? p.exchangeUrl with
        | none => rfl
        | some receiver => exact receive_queue (fun mesh id m hm => ih hm mesh id) hm _ receiver
    cases hn : mesh.nodes.get? id with
    | none => simp only [broadcastWithin, hn]
    | some n =>
      rw [broadcastWithin_succ hn]
      exact foldl_queue (fun p _ => hhand p) mesh

theorem execute_queue (mesh : Mesh) (id : String) (m : Message) :
    (mesh.execute now id m).queue = mesh.queue := by
  cases hn : mesh.nodes.get? id with
  | none => simp only [execute, hn]
  | some n =>
    simp only [execute, hn]
    exact foldl_queue (fun m' hm' mesh =>
      broadcastWithin_queue broadcastDepth (n.execute_sends_no_task m now hm') mesh id) _

theorem drain_queue (mesh : Mesh) (now : Instant) : (mesh.drain now).queue = [] :=
  foldl_queue (fun run _ mesh => execute_queue mesh run.1 run.2) { mesh with queue := [] }

theorem drain_of_idle (h : mesh.queue = []) (now : Instant) : mesh.drain now = mesh := by
  rw [drain, h, List.foldl_nil, ← h]

theorem stopWaiting_unwatched (mesh : Mesh) (id t : String) :
    (mesh.update id (·.stopWaiting t)).unwatched = mesh.unwatched := by
  have hstop : (mesh.update id (·.stopWaiting t)).unwatched = mesh.unwatched.update id fun n => n :=
    mesh.update_unwatched id fun n => rfl
  have hid : mesh.unwatched.nodes.modify id (fun n => n) = mesh.unwatched.nodes := by
    refine Dict.ext_get? fun k => ?_
    rw [Dict.get?_modify]
    split
    · exact Option.map_id'
    · rfl
  rw [hstop, update, hid]

/-- A wait, whether it ends with a result or without, comes to no more than running the executions that
wait. -/
theorem awaitResult_unwatched (mesh : Mesh) (now : Instant) (id t : String) :
    (mesh.awaitResult now id t).1.unwatched = (mesh.drain now).unwatched := by
  simp only [awaitResult]
  rw [drain_unwatched, stopWaiting_unwatched]
  split
  · rw [drain_unwatched]
  · rw [← drain_unwatched, drain_of_idle (drain_queue mesh now)]

end Mesh

end AgentMesh
