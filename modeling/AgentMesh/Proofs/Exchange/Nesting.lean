import AgentMesh.Proofs.Exchange.Course
import AgentMesh.Proofs.Node.Sends

/-!
What is sent in the course of things, and how deep sends nest. A vote that is told may make its receiver
tell a result, and nothing comes of that, so nothing is sent more than one level down, whoever neighbours
whom (`Mesh.Course.within`).
-/

namespace AgentMesh

namespace Mesh

variable {now : Instant} {l : Nat} {act : Activity} {mesh mesh' : Mesh} {τ : List Event}
  {id url : String} {m : Message}

theorem Steady.urls_of_named (h : mesh.Steady mesh') (hm : mesh.Named) (id : String) :
    mesh'.urls id = mesh.urls id := by
  rw [urls, urls, h.urls_eq hm]

def told (l : Nat) (τ : List Event) : List (String × Message) :=
  τ.filterMap fun
    | .sent k url m => if k = l then some (url, m) else none
    | .ran _ _ => none

/-- The executions that run. -/
def ran (τ : List Event) : List (String × Message) :=
  τ.filterMap fun
    | .sent _ _ _ => none
    | .ran id m => some (id, m)

/-- An event is no send, or one of the level itself, or that of a result one level down. -/
def Event.Within (l : Nat) : Event → Prop
  | .sent k _ m => k = l ∨ k = l + 1 ∧ m.kind = .consensus
  | .ran _ _ => True

theorem told_append (l : Nat) (τ τ' : List Event) : told l (τ ++ τ') = told l τ ++ told l τ' :=
  List.filterMap_append

theorem ran_append (τ τ' : List Event) : ran (τ ++ τ') = ran τ ++ ran τ' := List.filterMap_append

theorem mem_told {e : String × Message} : e ∈ told l τ ↔ .sent l e.1 e.2 ∈ τ := by
  simp only [told, List.mem_filterMap]
  constructor
  · rintro ⟨x, hx, he⟩
    cases x with
    | ran => cases he
    | sent k url m =>
      obtain ⟨rfl, rfl⟩ : k = l ∧ (url, m) = e := by simpa using he
      exact hx
  · exact fun h => ⟨_, h, if_pos rfl⟩

/-- Nothing comes of a message that is no vote. -/
theorem Course.receive_quiet (h : Course now l (.receive id m) mesh τ mesh')
    (hm : m.kind ≠ .result) : τ = [] := by
  cases h with
  | receive_unknown => rfl
  | @receive _ _ _ _ n _ _ hn h =>
    obtain ⟨c, hc, hs⟩ := n.handle_sends m now
    cases c with
    | none =>
      rw [hs] at h
      cases h <;> rfl
    | some c => exact absurd (hc c rfl).1 hm

theorem Course.sendEach_quiet {urls : List String} (h : Course now l (.sendEach m urls) mesh τ mesh')
    (hm : m.kind ≠ .result) : τ = urls.map fun url => .sent l url m := by
  induction urls generalizing mesh τ with
  | nil =>
    cases h
    rfl
  | cons url rest ih =>
    cases h with
    | sendEach_cons h h' =>
      rw [ih h']
      cases h with
      | send_lost => rfl
      | send hr h => rw [h.receive_quiet hm]; rfl

theorem Course.broadcast_quiet (h : Course now l (.broadcast id [m]) mesh τ mesh')
    (hm : m.kind ≠ .result) : τ = (mesh.urls id).map fun url => .sent l url m := by
  cases h with
  | broadcast_unknown hn => rw [urls_of_none hn, List.map_nil]
  | broadcast_cons hn h h' =>
    rw [h.sendEach_quiet hm, urls_of_some hn]
    cases h' <;> exact List.append_nil _

theorem Course.receive_told (h : Course now l (.receive id m) mesh τ mesh') :
    ∃ (c : Option Message) (urls : List String),
      (∀ c' ∈ c, m.kind = .result ∧ c'.kind = .consensus) ∧ (mesh.Named → urls = mesh.urls id) ∧
        τ = (spread urls c.toList).map fun e => .sent l e.1 e.2 := by
  cases h with
  | receive_unknown =>
    exact ⟨none, mesh.urls id, fun _ hc => (Option.not_mem_none _ hc).elim, fun _ => rfl, rfl⟩
  | @receive _ _ _ _ n _ _ hn h =>
    obtain ⟨c, hc, hs⟩ := n.handle_sends m now
    rw [hs] at h
    refine ⟨c, (mesh.handled id n m now).urls id, hc,
      fun hm => (Steady.handled hn m now).urls_of_named hm id, ?_⟩
    cases c with
    | none => cases h <;> rfl
    | some c =>
      have hquiet : c.kind ≠ .result := by simp [(hc c rfl).2]
      rw [h.broadcast_quiet hquiet]
      simp [spread]

theorem Course.send_told (h : Course now l (.send url m) mesh τ mesh') :
    ∃ τ', τ = .sent l url m :: τ' ∧
      ∀ e ∈ τ', ∃ url c, e = .sent (l + 1) url c ∧ c.kind = .consensus := by
  cases h with
  | send_lost => exact ⟨[], rfl, fun _ he => absurd he List.not_mem_nil⟩
  | @send _ _ _ _ _ τ' _ hr h =>
    refine ⟨τ', rfl, fun e he => ?_⟩
    obtain ⟨c, urls, hc, -, rfl⟩ := h.receive_told
    obtain ⟨⟨url, c'⟩, hmem, rfl⟩ := List.mem_map.mp he
    exact ⟨url, c', rfl, (hc c' (Option.mem_toList.mp (mem_spread.mp hmem).2)).2⟩

/-- Whatever is done, nothing is sent more than one level down, and there only results. -/
theorem Course.within (h : Course now l act mesh τ mesh') : ∀ e ∈ τ, e.Within l := by
  induction h with
  | receive_unknown | sendEach_nil | broadcast_nil | broadcast_unknown | executeEach_nil
  | drain_done => exact fun _ he => absurd he List.not_mem_nil
  | send_lost => exact List.forall_mem_singleton.mpr (Or.inl rfl)
  | execute_unknown => exact List.forall_mem_singleton.mpr trivial
  | receive _ _ ih | submit _ _ ih | await_told _ _ ih => exact ih
  | @send l url _ m _ τ _ hr h _ =>
    -- the hypothesis on the delivery allows one level more; that it makes no votes closes the gap
    obtain ⟨τ', he, hnested⟩ := (Course.send hr h).send_told
    rw [he]
    refine List.forall_mem_cons.mpr ⟨Or.inl rfl, fun e he' => ?_⟩
    obtain ⟨url, c, rfl, hc⟩ := hnested e he'
    exact Or.inr ⟨rfl, hc⟩
  | execute _ _ ih => exact List.forall_mem_cons.mpr ⟨trivial, ih⟩
  | sendEach_cons _ _ ih ih' | broadcast_cons _ _ _ ih ih' | executeEach_cons _ _ ih ih'
  | drain_more _ _ _ ih ih' | await_more _ _ _ ih ih' =>
    exact List.forall_mem_append.mpr ⟨ih, ih'⟩
  | dispatch _ _ _ _ ih ih₁ ih₂ =>
    exact List.forall_mem_append.mpr ⟨ih, List.forall_mem_append.mpr ⟨ih₁, ih₂⟩⟩

theorem Course.sendEach_told {urls : List String}
    (h : Course now l (.sendEach m urls) mesh τ mesh') :
    told l τ = urls.map fun url => (url, m) := by
  induction urls generalizing mesh τ with
  | nil =>
    cases h
    rfl
  | cons url rest ih =>
    cases h with
    | sendEach_cons h h' =>
      obtain ⟨τ', rfl, hnested⟩ := h.send_told
      have hnone : told l τ' = [] := by
        refine List.filterMap_eq_nil_iff.mpr fun e he => ?_
        obtain ⟨url, c, rfl, -⟩ := hnested e he
        simp
      have hself : told l (.sent l url m :: τ') = (url, m) :: told l τ' := by simp [told]
      rw [told_append, ih h', hself, hnone]
      rfl

theorem Course.broadcast_told {ms : List Message} (h : Course now l (.broadcast id ms) mesh τ mesh')
    (hm : mesh.Named) : told l τ = spread (mesh.urls id) ms := by
  induction ms generalizing mesh τ with
  | nil => cases h <;> rfl
  | cons m rest ih =>
    cases h with
    | broadcast_unknown hn => simp [urls_of_none hn, spread, told]
    | @broadcast_cons _ _ _ _ _ n _ mesh₁ _ _ hn h h' =>
      have hsteady : mesh.Steady (mesh₁.update id fun n => n.noteContacts mesh₁.failure now) :=
        h.steady.trans (Steady.update mesh₁ id (.contact mesh₁.failure now))
      rw [told_append, h.sendEach_told, ih h' (hsteady.named hm), hsteady.urls_of_named hm,
        ← urls_of_some hn]
      rfl

theorem Course.execute_told (h : Course now l (.execute id m) mesh τ mesh') (hm : mesh.Named)
    {n : Node} (hn : mesh.nodes.get? id = some n) :
    ∃ τ', τ = .ran id m :: τ' ∧ (n.executor = none → τ' = []) ∧
      told l τ' = spread n.urls (n.execute m now).2 := by
  cases h with
  | execute_unknown hn' => simp [hn] at hn'
  | @execute _ _ _ _ _ τ' _ hn' h =>
    obtain rfl := Option.some.inj (hn.symm.trans hn')
    refine ⟨τ', rfl, fun he => ?_, ?_⟩
    · rw [Node.execute_idle he] at h
      cases h <;> rfl
    · have hsteady := Steady.apply hn (.execute m now)
      have hurls : (mesh.put (n.execute m now).1).urls id = mesh.urls id :=
        hsteady.urls_of_named hm id
      rw [h.broadcast_told (hsteady.named hm), hurls, urls_of_some hn]

theorem Course.execute_tells_no_task (h : Course now l (.execute id m) mesh τ mesh')
    (hm : mesh.Named) {n : Node} (hn : mesh.nodes.get? id = some n) {k : Nat} {m' : Message}
    (he : .sent k url m' ∈ τ) : m'.kind ≠ .task := by
  rcases h.within _ he with rfl | ⟨-, hconsensus⟩
  · obtain ⟨τ', rfl, -, htold⟩ := h.execute_told hm hn
    have hmem : .sent k url m' ∈ τ' := (List.mem_cons.mp he).resolve_left Event.noConfusion
    have hspread : (url, m') ∈ spread n.urls (n.execute m now).2 := htold ▸ mem_told.mpr hmem
    exact n.execute_sends_no_task m now (mem_spread.mp hspread).2
  · simp [hconsensus]

def Activity.Sends : Activity → Prop
  | .receive .. | .send .. | .sendEach .. | .broadcast .. => True
  | _ => False

theorem Course.ran_of_sends (h : Course now l act mesh τ mesh') (ha : act.Sends) : ran τ = [] := by
  induction h with
  | receive_unknown | send_lost | sendEach_nil | broadcast_nil | broadcast_unknown => rfl
  | receive _ _ ih => exact ih trivial
  | send _ _ ih => exact ih trivial
  | sendEach_cons _ _ ih ih' | broadcast_cons _ _ _ ih ih' =>
    rw [ran_append, ih trivial, ih' trivial, List.append_nil]
  | execute_unknown | execute | executeEach_nil | executeEach_cons | drain_done | drain_more
  | submit | await_told | await_more | dispatch => exact ha.elim

theorem Course.executeEach_ran {runs : List (String × Message)}
    (h : Course now l (.executeEach runs) mesh τ mesh') : ran τ = runs := by
  induction runs generalizing mesh τ with
  | nil =>
    cases h
    rfl
  | cons run rest ih =>
    cases h with
    | @executeEach_cons _ id m _ _ τ _ τ' _ h h' =>
      have hself : ran τ = [(id, m)] := by
        cases h with
        | execute_unknown => rfl
        | execute hn h => exact congrArg ((id, m) :: ·) (h.ran_of_sends trivial)
      rw [ran_append, hself, ih h']
      rfl

end Mesh

end AgentMesh
