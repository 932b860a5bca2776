import AgentMesh.Proofs.Exchange.Synchronous
import AgentMesh.Proofs.Node.Waiting

/-!
What the agents of a mesh do while messages are handed over and executions run: a row of operations of
single agents, deed by deed, with all that happens within a broadcast in its place. The agents after it
are those that the deeds leave (`Mesh.Acts`). Whatever is done to a mesh from outside comes to such a row
(`Mesh.moves_apply`), so all its agents stay sound (`Mesh.Sound.run`).
-/

namespace AgentMesh

abbrev Deed := String × Node.Op

def opsOf (id : String) (deeds : List Deed) : List Node.Op :=
  deeds.filterMap fun d => if d.1 = id then some d.2 else none

def perform (nodes : Dict Node) (deeds : List Deed) : Dict Node :=
  deeds.foldl (fun nodes d => nodes.modify d.1 fun n => n.apply d.2) nodes

theorem opsOf_append (id : String) (deeds more : List Deed) :
    opsOf id (deeds ++ more) = opsOf id deeds ++ opsOf id more := List.filterMap_append

theorem mem_opsOf {id : String} {deeds : List Deed} {op : Node.Op} :
    op ∈ opsOf id deeds ↔ (id, op) ∈ deeds := by
  simp only [opsOf, List.mem_filterMap]
  constructor
  · rintro ⟨d, hd, he⟩
    split at he
    · next hid =>
      obtain rfl := Option.some.inj he
      exact hid ▸ hd
    · cases he
  · intro h
    exact ⟨(id, op), h, if_pos rfl⟩

theorem get?_perform (nodes : Dict Node) (deeds : List Deed) (id : String) :
    (perform nodes deeds).get? id = (nodes.get? id).map fun n => n.run (opsOf id deeds) := by
  induction deeds generalizing nodes with
  | nil =>
    change nodes.get? id = (nodes.get? id).map fun n => n
    rw [Option.map_id']
  | cons d rest ih =>
    have hrest := ih (nodes.modify d.1 fun n => n.apply d.2)
    rw [Dict.get?_modify] at hrest
    rw [perform, List.foldl_cons, ← perform, hrest]
    by_cases hid : d.1 = id
    · have hops : opsOf id (d :: rest) = d.2 :: opsOf id rest := by simp [opsOf, hid]
      rw [if_pos hid, Option.map_map, hops]
      rfl
    · have hops : opsOf id (d :: rest) = opsOf id rest := by simp [opsOf, hid]
      rw [if_neg hid, hops]

namespace Mesh

def Sound (mesh : Mesh) : Prop := ∀ id n, mesh.nodes.get? id = some n → n.id = id ∧ n.Sound

/-- What the agents have done between two states of a mesh, and that none of it begins or ends a
wait. -/
structure Acts (mesh : Mesh) (deeds : List Deed) (mesh' : Mesh) : Prop where
  nodes_eq : mesh'.nodes = perform mesh.nodes deeds
  quiet : ∀ d ∈ deeds, ∀ t, ¬d.2.Minds t

variable {mesh mesh₁ mesh₂ : Mesh} {deeds more : List Deed} {id : String} {n : Node}

theorem Sound.perform (h : mesh.Sound) (hnodes : mesh₁.nodes = perform mesh.nodes deeds) :
    mesh₁.Sound := by
  intro id n' hn'
  rw [hnodes, get?_perform] at hn'
  obtain ⟨n, hn, rfl⟩ := Option.map_eq_some_iff.mp hn'
  obtain ⟨hid, hs⟩ := h id n hn
  exact ⟨(n.run_identity _).1.trans hid, hs.run _⟩

theorem Sound.apply_id (h : mesh.Sound) (hn : mesh.nodes.get? id = some n) (op : Node.Op) :
    (n.apply op).id = id := (n.apply_settings op).1.trans (h id n hn).1

theorem Sound.replace (h : mesh.Sound) (hid : n.id = id) (hs : n.Sound) :
    (mesh.replace id n).Sound := by
  intro k m hm
  rw [Mesh.replace, Dict.get?_insert] at hm
  split at hm
  · next hk =>
    obtain rfl := Option.some.inj hm
    exact ⟨hid.trans hk, hs⟩
  · exact h k m hm

theorem Acts.sound (ha : Acts mesh deeds mesh₁) (h : mesh.Sound) : mesh₁.Sound :=
  h.perform ha.nodes_eq

theorem Acts.none (h : mesh₁.nodes = mesh.nodes) : Acts mesh [] mesh₁ :=
  ⟨h, fun _ hd => absurd hd List.not_mem_nil⟩

theorem Acts.trans (h : Acts mesh deeds mesh₁) (h' : Acts mesh₁ more mesh₂) :
    Acts mesh (deeds ++ more) mesh₂ := by
  refine ⟨?_, fun d hd => ?_⟩
  · rw [h'.nodes_eq, h.nodes_eq, perform, perform, perform, List.foldl_append]
  · rcases List.mem_append.mp hd with hd | hd
    · exact h.quiet d hd
    · exact h'.quiet d hd

theorem Acts.update {op : Node.Op} (hquiet : ∀ t, ¬op.Minds t)
    (hnodes : mesh₁.nodes = mesh.nodes.modify id fun n => n.apply op) :
    Acts mesh [(id, op)] mesh₁ := by
  refine ⟨hnodes, fun d hd => ?_⟩
  rw [List.mem_singleton.mp hd]
  exact hquiet

theorem Acts.replace (hn : mesh.nodes.get? id = some n) {op : Node.Op}
    (hquiet : ∀ t, ¬op.Minds t) (hnodes : mesh₁.nodes = mesh.nodes.insert id (n.apply op)) :
    Acts mesh [(id, op)] mesh₁ :=
  .update hquiet (hnodes.trans (Dict.modify_of_some hn fun n => n.apply op).symm)

def along {α : Type} (f : Mesh → α → Mesh) (deeds : Mesh → α → List Deed) : Mesh → List α → List Deed
  | _, [] => []
  | mesh, x :: rest => deeds mesh x ++ along f deeds (f mesh x) rest

theorem Acts.along {α : Type} {f : Mesh → α → Mesh} {deeds : Mesh → α → List Deed}
    (h : ∀ mesh x, mesh.Sound → Acts mesh (deeds mesh x) (f mesh x)) (hs : mesh.Sound)
    (l : List α) : Acts mesh (along f deeds mesh l) (l.foldl f mesh) := by
  induction l generalizing mesh with
  | nil => exact .none rfl
  | cons x rest ih =>
    have hx := h mesh x hs
    exact hx.trans (ih (hx.sound hs))

def receiveDeeds (forward : Mesh → String → Message → Mesh)
    (deeds : Mesh → String → Message → List Deed) (mesh : Mesh) (id : String) (m : Message)
    (now : Instant) : List Deed :=
  match mesh.nodes.get? id with
  | none => []
  | some n =>
    (id, .handle m now) ::
      along (fun mesh m => forward mesh id m) (fun mesh m => deeds mesh id m)
        (mesh.react id (n.handle m now)) (n.handle m now).sends

def handDeeds (deeds : Mesh → String → Message → List Deed) (depth : Nat) (now : Instant)
    (m : Message) (mesh : Mesh) (p : Peer) : List Deed :=
  match mesh.failure p.exchangeUrl, mesh.addresses.get? p.exchangeUrl with
  | none, some receiver =>
    receiveDeeds (broadcastWithin depth now) deeds
      { mesh with log := mesh.log ++ [⟨p.exchangeUrl, m, now⟩] } receiver m now
  | _, _ => []

def broadcastDeeds : Nat → Instant → Mesh → String → Message → List Deed
  | 0, _, _, _, _ => []
  | depth + 1, now, mesh, id, m =>
    match mesh.nodes.get? id with
    | none => []
    | some n =>
      along (hand depth now m) (handDeeds (broadcastDeeds depth now) depth now m) mesh
          n.peers.values ++
        [(id, .contact (n.peers.values.foldl (hand depth now m) mesh).failure now)]

def executeDeeds (now : Instant) (mesh : Mesh) (id : String) (m : Message) : List Deed :=
  match mesh.nodes.get? id with
  | none => []
  | some n =>
    (id, .execute m now) ::
      along (fun mesh m => mesh.broadcast now id m)
        (fun mesh m => broadcastDeeds broadcastDepth now mesh id m)
        (mesh.replace id (n.execute m now).1) (n.execute m now).2

def drainDeeds (now : Instant) (mesh : Mesh) : List Deed :=
  along (fun mesh run => mesh.execute now run.1 run.2)
    (fun mesh run => executeDeeds now mesh run.1 run.2) { mesh with queue := [] } mesh.queue

theorem acts_receive {forward : Mesh → String → Message → Mesh}
    {deeds : Mesh → String → Message → List Deed}
    (h : ∀ mesh id m, mesh.Sound → Acts mesh (deeds mesh id m) (forward mesh id m))
    (hs : mesh.Sound) (id : String) (m : Message) (now : Instant) :
    Acts mesh (receiveDeeds forward deeds mesh id m now) (receive forward mesh id m now).1 := by
  cases hn : mesh.nodes.get? id with
  | none =>
    simp only [receiveDeeds, receive, hn]
    exact .none rfl
  | some n =>
    have hself : Acts mesh [(id, .handle m now)] (mesh.react id (n.handle m now)) :=
      .replace hn (fun _ hm => hm) rfl
    have hsends := Acts.along (fun mesh m hs => h mesh id m hs) (hself.sound hs)
      (n.handle m now).sends
    rw [receive_eq hn (hs.apply_id hn (.handle m now)), receiveDeeds, hn]
    exact hself.trans hsends

theorem acts_broadcastWithin (depth : Nat) (now : Instant) (hs : mesh.Sound) (id : String)
    (m : Message) :
    Acts mesh (broadcastDeeds depth now mesh id m) (broadcastWithin depth now mesh id m) := by
  -- what a receiver broadcasts in turn is one level down
  induction depth generalizing mesh id m with
  | zero => exact .none rfl
  | succ depth ih =>
    have hhand : ∀ (mesh : Mesh) (p : Peer), mesh.Sound →
        Acts mesh (handDeeds (broadcastDeeds depth now) depth now m mesh p)
          (hand depth now m mesh p) := by
      intro mesh p hs
      cases hf : mesh.failure p.exchangeUrl with
      | some error =>
        simp only [handDeeds, hand, hf]
        exact .none rfl
      | none =>
        cases ha : mesh.addresses.get? p.exchangeUrl with
        | none =>
          simp only [handDeeds, hand, hf, ha]
          exact .none rfl
        | some receiver =>
          have hlogged : Sound { mesh with log := mesh.log ++ [⟨p.exchangeUrl, m, now⟩] } := hs
          have hreceive := acts_receive (fun mesh id m hs => ih hs id m) hlogged receiver m now
          simp only [handDeeds, hand, hf, ha]
          exact ⟨hreceive.nodes_eq, hreceive.quiet⟩
    cases hn : mesh.nodes.get? id with
    | none =>
      simp only [broadcastDeeds, broadcastWithin, hn]
      exact .none rfl
    | some n =>
      have hhanded := Acts.along hhand hs n.peers.values
      rw [broadcastWithin_succ hn, broadcastDeeds, hn]
      exact hhanded.trans (.update (fun _ hm => hm) rfl)

theorem acts_broadcast (now : Instant) (hs : mesh.Sound) (id : String) (m : Message) :
    Acts mesh (broadcastDeeds broadcastDepth now mesh id m) (mesh.broadcast now id m) :=
  acts_broadcastWithin broadcastDepth now hs id m

theorem acts_broadcastAll (now : Instant) (hs : mesh.Sound) (id : String) (ms : List Message) :
    Acts mesh
      (along (fun mesh m => mesh.broadcast now id m)
        (fun mesh m => broadcastDeeds broadcastDepth now mesh id m) mesh ms)
      (mesh.broadcastAll now id ms) :=
  .along (fun _ m hs => acts_broadcast now hs id m) hs ms

theorem acts_execute (now : Instant) (hs : mesh.Sound) (id : String) (m : Message) :
    Acts mesh (executeDeeds now mesh id m) (mesh.execute now id m) := by
  cases hn : mesh.nodes.get? id with
  | none =>
    simp only [executeDeeds, execute, hn]
    exact .none rfl
  | some n =>
    have hid : (n.execute m now).1.id = id := hs.apply_id hn (.execute m now)
    have hself : Acts mesh [(id, .execute m now)] (mesh.replace id (n.execute m now).1) :=
      .replace hn (fun _ hm => hm) rfl
    have hsends := acts_broadcastAll now (hself.sound hs) id (n.execute m now).2
    simp only [executeDeeds, execute, hn, put_eq hid]
    exact hself.trans hsends

theorem acts_drain (now : Instant) (hs : mesh.Sound) :
    Acts mesh (drainDeeds now mesh) (mesh.drain now) := by
  have hidle : Sound { mesh with queue := [] } := hs
  have hruns := Acts.along (fun mesh (run : String × Message) hs =>
    acts_execute now hs run.1 run.2) hidle mesh.queue
  exact ⟨hruns.nodes_eq, hruns.quiet⟩

inductive Op
  | exchange (id : String) (m : Message) (now : Instant)
  | start (id taskId task : String) (context : Fields) (now : Instant)
  | dispatch (id taskId task : String) (context : Fields) (timeout : Nat) (now : Instant)
  | wait (id taskId : String) (now : Instant)
  | submit (id taskId result : String) (owner : Option String) (task : String) (context : Fields)
      (now : Instant)
  | heartbeats (id : String) (now : Instant)
  | drain (now : Instant)
  | setParticipants (id : String) (value : Nat)
  | route (failure : String → Option String)

def apply (mesh : Mesh) : Op → Mesh
  | .exchange id m now => (mesh.exchange now id m).1
  | .start id taskId task context now => mesh.start now id taskId task context false
  | .dispatch id taskId task context timeout now =>
    (mesh.dispatch now id taskId task context timeout).1
  | .wait id taskId now => (mesh.wait now id taskId).1
  | .submit id taskId result owner task context now =>
    (mesh.submit now id taskId result owner task context).1
  | .heartbeats id now => mesh.heartbeats now id
  | .drain now => mesh.drain now
  | .setParticipants id value => mesh.update id (·.setParticipants value)
  | .route failure => { mesh with failure }

def run (mesh : Mesh) (ops : List Op) : Mesh := ops.foldl apply mesh

/-- All agents of a mesh have just been built, each with limits of its own on what it keeps. -/
def Built (mesh : Mesh) : Prop :=
  ∀ id n, mesh.nodes.get? id = some n → ∃ peers executor participants aggregate retention,
    n = Node.build id peers executor participants (Ledger.empty aggregate retention)

theorem Built.sound (h : mesh.Built) : mesh.Sound := by
  intro id n hn
  obtain ⟨peers, executor, participants, aggregate, retention, rfl⟩ := h id n hn
  exact ⟨rfl, Node.sound_build id peers executor participants aggregate retention⟩

def Moves (mesh mesh' : Mesh) : Prop := ∃ deeds, mesh'.nodes = perform mesh.nodes deeds

theorem Acts.moves (h : Acts mesh deeds mesh₁) : mesh.Moves mesh₁ := ⟨deeds, h.nodes_eq⟩

theorem Moves.of_eq (h : mesh₁.nodes = mesh.nodes) : mesh.Moves mesh₁ := ⟨[], h⟩

theorem Moves.trans (h : mesh.Moves mesh₁) (h' : mesh₁.Moves mesh₂) : mesh.Moves mesh₂ := by
  obtain ⟨deeds, h⟩ := h
  obtain ⟨more, h'⟩ := h'
  refine ⟨deeds ++ more, ?_⟩
  rw [h', h, perform, perform, perform, List.foldl_append]

theorem Moves.sound (h : mesh.Moves mesh₁) (hs : mesh.Sound) : mesh₁.Sound := by
  obtain ⟨deeds, hnodes⟩ := h
  exact hs.perform hnodes

theorem moves_update (mesh : Mesh) (id : String) (op : Node.Op) :
    mesh.Moves (mesh.update id fun n => n.apply op) := ⟨[(id, op)], rfl⟩

theorem moves_replace (hn : mesh.nodes.get? id = some n) (op : Node.Op) :
    mesh.Moves (mesh.replace id (n.apply op)) :=
  ⟨[(id, op)], (Dict.modify_of_some hn fun n => n.apply op).symm⟩

theorem moves_start (h : mesh.Sound) (now : Instant) (id t task : String) (context : Fields)
    (waiting : Bool) : mesh.Moves (mesh.start now id t task context waiting) := by
  cases hn : mesh.nodes.get? id with
  | none =>
    simp only [Mesh.start, hn]
    exact .of_eq rfl
  | some n =>
    let started := n.apply (.start t task context now)
    let opened := if waiting then started.await t else started
    have hopened : mesh.Moves (mesh.replace id opened) := by
      have hstarted := moves_replace hn (.start t task context now)
      cases waiting with
      | false => exact hstarted
      | true =>
        have hself : (mesh.replace id started).nodes.get? id = some started :=
          Dict.get?_insert_self _ _ _
        have hawait := moves_replace hself (.await t)
        simp only [Mesh.replace, Dict.insert_insert] at hawait
        exact hstarted.trans hawait
    let m := n.taskMessage t task context
    have hbroadcast := hopened.trans (acts_broadcast now (hopened.sound h) id m).moves
    rw [start_eq hn (h id n hn).1]
    exact hbroadcast.trans (acts_execute now (hbroadcast.sound h) id m).moves

theorem moves_drain (h : mesh.Sound) (now : Instant) : mesh.Moves (mesh.drain now) :=
  (acts_drain now h).moves

theorem moves_awaitResult (h : mesh.Sound) (now : Instant) (id t : String) :
    mesh.Moves (mesh.awaitResult now id t).1 := by
  have hclose : ∀ mesh : Mesh, mesh.Sound →
      mesh.Moves ((mesh.update id (·.stopWaiting t)).drain now) := by
    intro mesh h
    have hleave := moves_update mesh id (.leave t)
    exact hleave.trans (moves_drain (hleave.sound h) now)
  simp only [Mesh.awaitResult]
  split
  · exact hclose mesh h
  · have hdrain := moves_drain h now
    exact hdrain.trans (hclose _ (hdrain.sound h))

theorem moves_apply (h : mesh.Sound) (op : Op) : mesh.Moves (mesh.apply op) := by
  cases op with
  | exchange id m now =>
    exact (acts_receive (fun mesh id m hs => acts_broadcast now hs id m) h id m now).moves
  | start id t task context now => exact moves_start h now id t task context false
  | dispatch id t task context timeout now =>
    have hstart := moves_start h now id t task context true
    exact hstart.trans (moves_awaitResult (hstart.sound h) now id t)
  | wait id t now =>
    simp only [Mesh.apply, Mesh.wait]
    split
    · exact moves_drain h now
    · have hawait := moves_update mesh id (.await t)
      exact hawait.trans (moves_awaitResult (hawait.sound h) now id t)
  | submit id t result owner task context now =>
    cases hn : mesh.nodes.get? id with
    | none =>
      simp only [Mesh.apply, Mesh.submit, hn]
      exact .of_eq rfl
    | some n =>
      let op : Node.Op := .submit t result owner task context now
      have hself := moves_replace hn op
      simp only [Mesh.apply, Mesh.submit, hn]
      rw [show (n.submit t result owner task context now).1 = n.apply op from rfl,
        put_eq (h.apply_id hn op)]
      exact hself.trans (acts_broadcastAll now (hself.sound h) id _).moves
  | heartbeats id now =>
    cases hn : mesh.nodes.get? id with
    | none =>
      simp only [Mesh.apply, Mesh.heartbeats, hn]
      exact .of_eq rfl
    | some n =>
      simp only [Mesh.apply, Mesh.heartbeats, hn]
      exact (acts_broadcast now h id n.heartbeatMessage).moves
  | drain now => exact moves_drain h now
  | setParticipants id value => exact moves_update mesh id (.setParticipants value)
  | route failure => exact .of_eq rfl

theorem Sound.start (h : mesh.Sound) (now : Instant) (id t task : String) (context : Fields)
    (waiting : Bool) : (mesh.start now id t task context waiting).Sound :=
  (moves_start h now id t task context waiting).sound h

theorem Sound.apply (h : mesh.Sound) (op : Op) : (mesh.apply op).Sound := (moves_apply h op).sound h

theorem Sound.run (h : mesh.Sound) (ops : List Op) : (mesh.run ops).Sound := by
  induction ops generalizing mesh with
  | nil => exact h
  | cons op rest ih => exact ih (h.apply op)

end Mesh

end AgentMesh
