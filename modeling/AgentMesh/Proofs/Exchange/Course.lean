import AgentMesh.Proofs.Exchange.Deeds
import AgentMesh.Proofs.Node.Sends

/-!
The course of what is done in a mesh, with nested deliveries followed as far as they go: an inductive
relation that knows of no depth (`Mesh.Course`). What is done ends in one way at most
(`Mesh.Course.unique`), and the log shows what was sent (`Mesh.Course.log_eq`).
-/

namespace AgentMesh

namespace Mesh

def Named (mesh : Mesh) : Prop := ∀ id n, mesh.nodes.get? id = some n → n.id = id

def urls (mesh : Mesh) (id : String) : List String := ((mesh.nodes.get? id).map Node.urls).getD []

theorem urls_of_none {mesh : Mesh} {id : String} (hn : mesh.nodes.get? id = none) :
    mesh.urls id = [] := by
  rw [urls, hn]
  rfl

theorem urls_of_some {mesh : Mesh} {id : String} {n : Node} (hn : mesh.nodes.get? id = some n) :
    mesh.urls id = n.urls := by
  rw [urls, hn]
  rfl

inductive Activity
  | receive (id : String) (m : Message)
  | send (url : String) (m : Message)
  | sendEach (m : Message) (urls : List String)
  | broadcast (id : String) (ms : List Message)
  | execute (id : String) (m : Message)
  | executeEach (runs : List (String × Message))
  | drain
  | submit (id taskId result : String) (owner : Option String) (task : String) (context : Fields)
  | await (id taskId : String)
  | dispatch (id taskId task : String) (context : Fields)

/-- What comes of it. The sends that a step makes itself are of its own level, those that are made while
an envelope is handed over are one level further down. -/
inductive Event
  | sent (level : Nat) (url : String) (m : Message)
  | ran (id : String) (m : Message)

def logged (mesh : Mesh) (url : String) (m : Message) (now : Instant) : Mesh :=
  { mesh with log := mesh.log ++ [⟨url, m, now⟩] }

def handled (mesh : Mesh) (id : String) (n : Node) (m : Message) (now : Instant) : Mesh :=
  { mesh.put (n.handle m now).node with
    queue := mesh.queue ++ (n.handle m now).runs.map fun m => (id, m) }

/-- What is done in a mesh at a level, the events of it, and the mesh at its end. An envelope is handled
within its send, with all that its receiver broadcasts in turn, and so on. -/
inductive Course (now : Instant) : Nat → Activity → Mesh → List Event → Mesh → Prop
  | receive_unknown {l id m mesh} (hn : mesh.nodes.get? id = none) :
      Course now l (.receive id m) mesh [] mesh
  | receive {l id m mesh n τ mesh'} (hn : mesh.nodes.get? id = some n)
      (h : Course now l (.broadcast id (n.handle m now).sends) (mesh.handled id n m now) τ mesh') :
      Course now l (.receive id m) mesh τ mesh'
  | send_lost {l url m mesh} (hr : mesh.route? url = none) :
      Course now l (.send url m) mesh [.sent l url m] (mesh.logged url m now)
  | send {l url id m mesh τ mesh'} (hr : mesh.route? url = some id)
      (h : Course now (l + 1) (.receive id m) (mesh.logged url m now) τ mesh') :
      Course now l (.send url m) mesh (.sent l url m :: τ) mesh'
  | sendEach_nil {l m mesh} : Course now l (.sendEach m []) mesh [] mesh
  | sendEach_cons {l m url urls mesh τ mesh₁ τ' mesh₂}
      (h : Course now l (.send url m) mesh τ mesh₁)
      (h' : Course now l (.sendEach m urls) mesh₁ τ' mesh₂) :
      Course now l (.sendEach m (url :: urls)) mesh (τ ++ τ') mesh₂
  | broadcast_nil {l id mesh} : Course now l (.broadcast id []) mesh [] mesh
  | broadcast_unknown {l id ms mesh} (hn : mesh.nodes.get? id = none) :
      Course now l (.broadcast id ms) mesh [] mesh
  | broadcast_cons {l id m ms mesh n τ mesh₁ τ' mesh₂} (hn : mesh.nodes.get? id = some n)
      (h : Course now l (.sendEach m n.urls) mesh τ mesh₁)
      (h' : Course now l (.broadcast id ms)
        (mesh₁.update id fun n => n.noteContacts mesh₁.failure now) τ' mesh₂) :
      Course now l (.broadcast id (m :: ms)) mesh (τ ++ τ') mesh₂
  | execute_unknown {l id m mesh} (hn : mesh.nodes.get? id = none) :
      Course now l (.execute id m) mesh [.ran id m] mesh
  | execute {l id m mesh n τ mesh'} (hn : mesh.nodes.get? id = some n)
      (h : Course now l (.broadcast id (n.execute m now).2) (mesh.put (n.execute m now).1) τ mesh') :
      Course now l (.execute id m) mesh (.ran id m :: τ) mesh'
  | executeEach_nil {l mesh} : Course now l (.executeEach []) mesh [] mesh
  | executeEach_cons {l id m runs mesh τ mesh₁ τ' mesh₂}
      (h : Course now l (.execute id m) mesh τ mesh₁)
      (h' : Course now l (.executeEach runs) mesh₁ τ' mesh₂) :
      Course now l (.executeEach ((id, m) :: runs)) mesh (τ ++ τ') mesh₂
  | drain_done {l mesh} (hq : mesh.queue = []) : Course now l .drain mesh [] mesh
  | drain_more {l mesh τ mesh₁ τ' mesh₂} (hq : mesh.queue ≠ [])
      (h : Course now l (.executeEach mesh.queue) { mesh with queue := [] } τ mesh₁)
      (h' : Course now l .drain mesh₁ τ' mesh₂) : Course now l .drain mesh (τ ++ τ') mesh₂
  | submit {l id taskId result owner task context mesh n τ mesh'} (hn : mesh.nodes.get? id = some n)
      (h : Course now l (.broadcast id (n.submit taskId result owner task context now).2.2)
        (mesh.put (n.submit taskId result owner task context now).1) τ mesh') :
      Course now l (.submit id taskId result owner task context) mesh τ mesh'
  | await_told {l id taskId mesh τ mesh'} (hr : (mesh.awaitedResult? id taskId).isSome)
      (h : Course now l .drain (mesh.update id (·.stopWaiting taskId)) τ mesh') :
      Course now l (.await id taskId) mesh τ mesh'
  | await_more {l id taskId mesh τ mesh₁ τ' mesh₂} (hr : mesh.awaitedResult? id taskId = none)
      (h : Course now l .drain mesh τ mesh₁)
      (h' : Course now l .drain (mesh₁.update id (·.stopWaiting taskId)) τ' mesh₂) :
      Course now l (.await id taskId) mesh (τ ++ τ') mesh₂
  | dispatch {l id taskId task context mesh n τ mesh₁ τ₁ mesh₂ τ₂ mesh₃}
      (hn : mesh.nodes.get? id = some n)
      (h : Course now l (.broadcast id [n.taskMessage taskId task context])
        (mesh.put ((n.start taskId task context now).1.await taskId)) τ mesh₁)
      (h₁ : Course now l (.execute id (n.taskMessage taskId task context)) mesh₁ τ₁ mesh₂)
      (h₂ : Course now l (.await id taskId) mesh₂ τ₂ mesh₃) :
      Course now l (.dispatch id taskId task context) mesh (τ ++ (τ₁ ++ τ₂)) mesh₃

variable {now : Instant} {l : Nat} {act : Activity} {mesh mesh' mesh₂ : Mesh} {τ τ₂ : List Event}

theorem Course.unique (h : Course now l act mesh τ mesh') (h₂ : Course now l act mesh τ₂ mesh₂) :
    τ₂ = τ ∧ mesh₂ = mesh' := by
  -- on the first course: the rules exclude each other, so the second one takes the same rule
  induction h generalizing τ₂ mesh₂ with
  | receive_unknown hn =>
    cases h₂ with
    | receive_unknown => exact ⟨rfl, rfl⟩
    | receive hn' => simp [hn] at hn'
  | receive hn h ih =>
    cases h₂ with
    | receive_unknown hn' => simp [hn] at hn'
    | receive hn' h' =>
      obtain rfl := Option.some.inj (hn.symm.trans hn')
      exact ih h'
  | send_lost hr =>
    cases h₂ with
    | send_lost => exact ⟨rfl, rfl⟩
    | send hr' => simp [hr] at hr'
  | send hr h ih =>
    cases h₂ with
    | send_lost hr' => simp [hr] at hr'
    | send hr' h' =>
      obtain rfl := Option.some.inj (hr.symm.trans hr')
      obtain ⟨rfl, rfl⟩ := ih h'
      exact ⟨rfl, rfl⟩
  | sendEach_nil =>
    cases h₂
    exact ⟨rfl, rfl⟩
  | sendEach_cons h h' ih ih' =>
    cases h₂ with
    | sendEach_cons g g' =>
      obtain ⟨rfl, rfl⟩ := ih g
      obtain ⟨rfl, rfl⟩ := ih' g'
      exact ⟨rfl, rfl⟩
  | broadcast_nil =>
    cases h₂ <;> exact ⟨rfl, rfl⟩
  | broadcast_unknown hn =>
    cases h₂ with
    | broadcast_nil => exact ⟨rfl, rfl⟩
    | broadcast_unknown => exact ⟨rfl, rfl⟩
    | broadcast_cons hn' => simp [hn] at hn'
  | broadcast_cons hn h h' ih ih' =>
    cases h₂ with
    | broadcast_unknown hn' => simp [hn] at hn'
    | broadcast_cons hn' g g' =>
      obtain rfl := Option.some.inj (hn.symm.trans hn')
      obtain ⟨rfl, rfl⟩ := ih g
      obtain ⟨rfl, rfl⟩ := ih' g'
      exact ⟨rfl, rfl⟩
  | execute_unknown hn =>
    cases h₂ with
    | execute_unknown => exact ⟨rfl, rfl⟩
    | execute hn' => simp [hn] at hn'
  | execute hn h ih =>
    cases h₂ with
    | execute_unknown hn' => simp [hn] at hn'
    | execute hn' h' =>
      obtain rfl := Option.some.inj (hn.symm.trans hn')
      obtain ⟨rfl, rfl⟩ := ih h'
      exact ⟨rfl, rfl⟩
  | executeEach_nil =>
    cases h₂
    exact ⟨rfl, rfl⟩
  | executeEach_cons h h' ih ih' =>
    cases h₂ with
    | executeEach_cons g g' =>
      obtain ⟨rfl, rfl⟩ := ih g
      obtain ⟨rfl, rfl⟩ := ih' g'
      exact ⟨rfl, rfl⟩
  | drain_done hq =>
    cases h₂ with
    | drain_done => exact ⟨rfl, rfl⟩
    | drain_more hq' => exact absurd hq hq'
  | drain_more hq h h' ih ih' =>
    cases h₂ with
    | drain_done hq' => exact absurd hq' hq
    | drain_more _ g g' =>
      obtain ⟨rfl, rfl⟩ := ih g
      obtain ⟨rfl, rfl⟩ := ih' g'
      exact ⟨rfl, rfl⟩
  | submit hn h ih =>
    cases h₂ with
    | submit hn' h' =>
      obtain rfl := Option.some.inj (hn.symm.trans hn')
      exact ih h'
  | await_told hr h ih =>
    cases h₂ with
    | await_told _ h' => exact ih h'
    | await_more hr' => simp [hr'] at hr
  | await_more hr h h' ih ih' =>
    cases h₂ with
    | await_told hr' => simp [hr] at hr'
    | await_more _ g g' =>
      obtain ⟨rfl, rfl⟩ := ih g
      obtain ⟨rfl, rfl⟩ := ih' g'
      exact ⟨rfl, rfl⟩
  | dispatch hn h h₁ h₂' ih ih₁ ih₂ =>
    cases h₂ with
    | dispatch hn' g g₁ g₂ =>
      obtain rfl := Option.some.inj (hn.symm.trans hn')
      obtain ⟨rfl, rfl⟩ := ih g
      obtain ⟨rfl, rfl⟩ := ih₁ g₁
      obtain ⟨rfl, rfl⟩ := ih₂ g₂
      exact ⟨rfl, rfl⟩

def Event.sent? (now : Instant) : Event → Option Sent
  | .sent _ url m => some ⟨url, m, now⟩
  | .ran _ _ => none

theorem Course.log_eq (h : Course now l act mesh τ mesh') :
    mesh'.log = mesh.log ++ τ.filterMap (Event.sent? now) := by
  induction h with
  | receive_unknown | sendEach_nil | broadcast_nil | broadcast_unknown | execute_unknown
  | executeEach_nil | drain_done => exact (List.append_nil _).symm
  | send_lost => rfl
  | receive _ _ ih | submit _ _ ih | await_told _ _ ih => exact ih
  | execute _ _ ih => exact ih
  | send _ _ ih => rw [ih, logged, List.append_assoc]; rfl
  | sendEach_cons _ _ ih ih' | broadcast_cons _ _ _ ih ih' | executeEach_cons _ _ ih ih'
  | drain_more _ _ _ ih ih' | await_more _ _ _ ih ih' =>
    rw [ih', List.filterMap_append, ← List.append_assoc]
    exact congrArg (· ++ _) ih
  | dispatch _ _ _ _ ih ih₁ ih₂ =>
    simp only [ih₂, ih₁, ih, List.filterMap_append, List.append_assoc]
    rfl

theorem Course.failure_eq (h : Course now l act mesh τ mesh') : mesh'.failure = mesh.failure := by
  induction h with
  | receive_unknown | send_lost | sendEach_nil | broadcast_nil | broadcast_unknown
  | execute_unknown | executeEach_nil | drain_done => rfl
  | receive _ _ ih | send _ _ ih | execute _ _ ih | submit _ _ ih | await_told _ _ ih => exact ih
  | sendEach_cons _ _ ih ih' | broadcast_cons _ _ _ ih ih' | executeEach_cons _ _ ih ih'
  | drain_more _ _ _ ih ih' | await_more _ _ _ ih ih' => exact ih'.trans ih
  | dispatch _ _ _ _ ih ih₁ ih₂ => exact ih₂.trans (ih₁.trans ih)

/-- Each agent stands under its identifier still, and has the neighbours that it had. -/
structure Steady (mesh mesh' : Mesh) : Prop where
  named : mesh.Named → mesh'.Named
  urls_eq : mesh.Named → ∀ id,
    (mesh'.nodes.get? id).map Node.urls = (mesh.nodes.get? id).map Node.urls

theorem Steady.of_eq (h : mesh'.nodes = mesh.nodes) : mesh.Steady mesh' where
  named hm := fun id n hn => hm id n (h ▸ hn)
  urls_eq _ _ := by rw [h]

theorem Steady.trans (h : mesh.Steady mesh') (h' : mesh'.Steady mesh₂) : mesh.Steady mesh₂ where
  named hm := h'.named (h.named hm)
  urls_eq hm id := (h'.urls_eq (h.named hm) id).trans (h.urls_eq hm id)

theorem Steady.put {id : String} {n n' : Node} (hn : mesh.nodes.get? id = some n)
    (hid : n'.id = n.id) (hurls : n'.urls = n.urls) : mesh.Steady (mesh.put n') where
  named hm k m hk := by
    rw [Mesh.put, Dict.get?_insert] at hk
    split at hk
    · next he => exact Option.some.inj hk ▸ he
    · exact hm k m hk
  urls_eq hm k := by
    rw [Mesh.put, Dict.get?_insert]
    split
    · next he =>
      rw [← he, hid, hm id n hn, hn, Option.map_some, Option.map_some, hurls]
    · rfl

theorem Steady.update (mesh : Mesh) (id : String) (op : Node.Op) :
    mesh.Steady (mesh.update id fun n => n.apply op) where
  named hm k m hk := by
    rw [Mesh.update, Dict.get?_modify] at hk
    split at hk
    · obtain ⟨n, hn, rfl⟩ := Option.map_eq_some_iff.mp hk
      exact (n.apply_settings op).1.trans (hm k n hn)
    · exact hm k m hk
  urls_eq _ k := by
    rw [Mesh.update, Dict.get?_modify]
    split
    · rw [Option.map_map]
      exact congrFun (congrArg Option.map (funext fun n => n.urls_apply op)) _
    · rfl

theorem Steady.apply {id : String} {n : Node} (hn : mesh.nodes.get? id = some n) (op : Node.Op) :
    mesh.Steady (mesh.put (n.apply op)) := .put hn (n.apply_settings op).1 (n.urls_apply op)

theorem Steady.handled {id : String} {n : Node} (hn : mesh.nodes.get? id = some n) (m : Message)
    (now : Instant) : mesh.Steady (mesh.handled id n m now) where
  named := (Steady.apply hn (.handle m now)).named
  urls_eq := (Steady.apply hn (.handle m now)).urls_eq

theorem Course.steady (h : Course now l act mesh τ mesh') : mesh.Steady mesh' := by
  induction h with
  | receive_unknown | send_lost | sendEach_nil | broadcast_nil | broadcast_unknown
  | execute_unknown | executeEach_nil | drain_done => exact .of_eq rfl
  | receive hn _ ih => exact (Steady.handled hn _ now).trans ih
  | send _ _ ih => exact ⟨ih.named, ih.urls_eq⟩
  | sendEach_cons _ _ ih ih' | executeEach_cons _ _ ih ih' => exact ih.trans ih'
  | @broadcast_cons _ id _ _ _ _ _ mesh₁ _ _ _ _ _ ih ih' =>
    exact ih.trans ((Steady.update mesh₁ id (.contact mesh₁.failure now)).trans ih')
  | @execute _ _ m _ _ _ _ hn _ ih => exact (Steady.apply hn (.execute m now)).trans ih
  | drain_more _ _ _ ih ih' => exact Steady.trans ⟨ih.named, ih.urls_eq⟩ ih'
  | submit hn _ ih => exact (Steady.apply hn (.submit _ _ _ _ _ now)).trans ih
  | @await_told _ id taskId mesh _ _ _ _ ih => exact (Steady.update mesh id (.leave taskId)).trans ih
  | @await_more _ id taskId _ _ mesh₁ _ _ _ _ _ ih ih' =>
    exact ih.trans ((Steady.update mesh₁ id (.leave taskId)).trans ih')
  | @dispatch _ _ taskId task context _ n _ _ _ _ _ _ hn _ _ _ ih ih₁ ih₂ =>
    have hself : (((n.start taskId task context now).1.await taskId).id = n.id) ∧
        ((n.start taskId task context now).1.await taskId).urls = n.urls := ⟨rfl, rfl⟩
    exact (Steady.put hn hself.1 hself.2).trans (ih.trans (ih₁.trans ih₂))

end Mesh

end AgentMesh
