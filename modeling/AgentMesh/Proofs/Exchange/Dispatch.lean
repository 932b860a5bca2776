import AgentMesh.Proofs.Exchange.Deeds
import AgentMesh.Proofs.Exchange.Unwatched

/-!
What whoever dispatches a task is told. It is the result of the ballot that the start of the task opened,
whatever becomes of that ballot and its record while the other executions run; if there is none, the wait
ends without one, and votes that come later still complete the task (`Mesh.dispatch_tells_result`).
-/

namespace AgentMesh

namespace Node

variable {n : Node} {t : String} {ops : List Op}

theorem isSome_ballot?_run (h : (n.ballot? t).isSome) (hkeep : n.droppings t ops = 0) :
    ((n.run ops).ballot? t).isSome := by
  induction ops generalizing n with
  | nil => exact h
  | cons op rest ih =>
    obtain ⟨hop, hrest⟩ := Nat.add_eq_zero_iff.mp hkeep
    refine ih ?_ hrest
    cases hb : (n.apply op).ballot? t with
    | some b => rfl
    | none => simp [drops, h, hb] at hop

theorem open_of_not_yields (hs : n.Sound) (hwait : n.awaited.get? t = some (n.result? t))
    (hminds : ∀ op ∈ ops, ¬op.Minds t) (hballot : (n.ballot? t).isSome)
    (hno : ∀ r, ¬n.Yields t ops r) : ∃ b, (n.run ops).ballot? t = some b ∧ b.result = none := by
  obtain ⟨shown, -, ⟨r, -, hyields⟩ | ⟨-, hopen, hkeep⟩⟩ := awaited_run hs hwait hminds
  · exact absurd hyields (hno r)
  · obtain ⟨b, hb⟩ := Option.isSome_iff_exists.mp (isSome_ballot?_run hballot hkeep)
    refine ⟨b, hb, ?_⟩
    rw [result?, hb] at hopen
    exact hopen

end Node

namespace Mesh

variable {mesh : Mesh} {id : String} {n : Node}

/-- An agent that has started a task, and waits for its result. -/
def awaiting (n : Node) (t task : String) (context : Fields) (now : Instant) : Node :=
  (n.start t task context now).1.await t

/-- What comes of a task once its start has opened a ballot on it: its announcement and the execution by
its owner. -/
def startDeeds (mesh : Mesh) (now : Instant) (id t task : String) (context : Fields) : List Deed :=
  match mesh.nodes.get? id with
  | none => []
  | some n =>
    let m := n.taskMessage t task context
    let opened := mesh.replace id (awaiting n t task context now)
    broadcastDeeds broadcastDepth now opened id m ++
      executeDeeds now (opened.broadcast now id m) id m

/-- All that happens then till the wait for its result ends, with every execution that waits by then. -/
def dispatchDeeds (mesh : Mesh) (now : Instant) (id t task : String) (context : Fields) :
    List Deed :=
  mesh.startDeeds now id t task context ++ drainDeeds now (mesh.start now id t task context true)

section Start

variable (hs : mesh.Sound) (hn : mesh.nodes.get? id = some n) (t task : String) (context : Fields)
  (now : Instant)

include hs hn

theorem sound_awaiting :
    (awaiting n t task context now).id = id ∧ (awaiting n t task context now).Sound ∧
      (awaiting n t task context now).awaited.get? t =
        some ((awaiting n t task context now).result? t) ∧
      ((awaiting n t task context now).ballot? t).isSome := by
  obtain ⟨hid, hsound⟩ := hs id n hn
  have hstarted : (n.start t task context now).1.Sound := hsound.apply (.start t task context now)
  refine ⟨hid, hstarted.apply (.await t), Node.await_awaited hstarted t, ?_⟩
  have hnews : n.news? (.start t task context now) =
      some (t, .task (some n.id) task context, now) := rfl
  exact Option.isSome_iff_exists.mpr ⟨_, Node.ballot_of_news hsound hnews⟩

theorem acts_start :
    Acts (mesh.replace id (awaiting n t task context now))
      (mesh.startDeeds now id t task context) (mesh.start now id t task context true) := by
  obtain ⟨hid, hsound, -, -⟩ := sound_awaiting hs hn t task context now
  let m := n.taskMessage t task context
  let opened := mesh.replace id (awaiting n t task context now)
  have hopened : opened.Sound := hs.replace hid hsound
  have hbroadcast := acts_broadcast now hopened id m
  have hexecute := acts_execute now (hbroadcast.sound hopened) id m
  have hstart : mesh.start now id t task context true =
      (opened.broadcast now id m).execute now id m :=
    start_eq hn (hs id n hn).1 now t task context true
  rw [hstart, startDeeds, hn]
  exact hbroadcast.trans hexecute

theorem acts_dispatch :
    Acts (mesh.replace id (awaiting n t task context now))
      (mesh.dispatchDeeds now id t task context)
      ((mesh.start now id t task context true).drain now) :=
  (acts_start hs hn t task context now).trans (acts_drain now (hs.start now id t task context true))

end Start

theorem Acts.get?_nodes {mesh' : Mesh} {deeds : List Deed} (h : Acts (mesh.replace id n) deeds mesh') :
    mesh'.nodes.get? id = some (n.run (opsOf id deeds)) := by
  have hself : (mesh.replace id n).nodes.get? id = some n := Dict.get?_insert_self mesh.nodes id n
  rw [h.nodes_eq, get?_perform, hself]
  rfl

theorem Acts.opsOf_quiet {mesh' : Mesh} {deeds : List Deed} (h : Acts mesh deeds mesh') (id t : String) :
    ∀ op ∈ opsOf id deeds, ¬op.Minds t := fun op hop => h.quiet (id, op) (mem_opsOf.mp hop) t

theorem Acts.awaitedResult?_iff {mesh' : Mesh} {deeds : List Deed}
    (h : Acts (mesh.replace id n) deeds mesh') (hs : n.Sound) {t : String}
    (hwait : n.awaited.get? t = some (n.result? t)) (r : String) :
    mesh'.awaitedResult? id t = some r ↔ n.Yields t (opsOf id deeds) r := by
  rw [awaitedResult?, h.get?_nodes]
  exact Node.awaitedResult?_iff hs hwait (h.opsOf_quiet id t)

theorem dispatch_iff (hs : mesh.Sound) (hn : mesh.nodes.get? id = some n) (t task : String)
    (context : Fields) (now : Instant) (timeout : Nat) (r : String) :
    (mesh.dispatch now id t task context timeout).2 = .ok r ↔
      (awaiting n t task context now).Yields t
        (opsOf id (mesh.dispatchDeeds now id t task context)) r := by
  obtain ⟨-, hsound, hwait, -⟩ := sound_awaiting hs hn t task context now
  have hafter := (acts_dispatch hs hn t task context now).awaitedResult?_iff hsound hwait r
  have hbefore := (acts_start hs hn t task context now).awaitedResult?_iff hsound hwait
  let started := mesh.start now id t task context true
  have hanswer : (started.awaitResult now id t).2 = some r ↔
      (awaiting n t task context now).Yields t
        (opsOf id (mesh.dispatchDeeds now id t task context)) r := by
    cases hshown : started.awaitedResult? id t with
    | none =>
      have hresult : (started.awaitResult now id t).2 = (started.drain now).awaitedResult? id t := by
        simp [awaitResult, hshown]
      rw [hresult]
      exact hafter
    | some r' =>
      -- the executions that are still to run do not change what has been shown
      have hyields := ((hbefore r').mp hshown).append (opsOf id (drainDeeds now started))
      rw [← opsOf_append] at hyields
      have hresult : (started.awaitResult now id t).2 = some r' := by simp [awaitResult, hshown]
      rw [hresult]
      constructor
      · intro h
        exact Option.some.inj h ▸ hyields
      · intro h
        exact congrArg some (hyields.unique hsound h)
  rw [← hanswer]
  simp only [dispatch]
  cases (started.awaitResult now id t).2 with
  | none => simp
  | some r' => simp

theorem dispatch_error_iff (t task : String) (context : Fields) (now : Instant) (timeout : Nat) :
    (mesh.dispatch now id t task context timeout).2 = .error ⟨t, timeout⟩ ↔
      ∀ r, (mesh.dispatch now id t task context timeout).2 ≠ .ok r := by
  simp only [dispatch]
  cases ((mesh.start now id t task context true).awaitResult now id t).2 with
  | none => simp
  | some r' => simp

theorem map_ledger_unwatched (mesh : Mesh) (id : String) :
    (mesh.unwatched.nodes.get? id).map (·.ledger) = (mesh.nodes.get? id).map (·.ledger) := by
  rw [unwatched_nodes_get?, Option.map_map]
  rfl

theorem dispatch_ledgers (t task : String) (context : Fields) (now : Instant) (timeout : Nat)
    (waiting : Bool) (j : String) :
    ((mesh.dispatch now id t task context timeout).1.nodes.get? j).map (·.ledger) =
      (((mesh.start now id t task context waiting).drain now).nodes.get? j).map (·.ledger) := by
  have hsame : (mesh.dispatch now id t task context timeout).1.unwatched =
      ((mesh.start now id t task context waiting).drain now).unwatched := by
    have hwait := awaitResult_unwatched (mesh.start now id t task context true) now id t
    rw [drain_unwatched, start_unwatched, ← mesh.start_unwatched now id t task context waiting,
      ← drain_unwatched] at hwait
    exact hwait
  rw [← map_ledger_unwatched, hsame, map_ledger_unwatched]

/-- Whoever dispatches a task in a mesh, at any time and whatever the agents keep, is told a result just
if the ballot that the start has opened gets it before all executions have run, dropped or not by then,
and else that there was none in time. The answer is no news to anybody: the ledgers are those that come
of the start and the executions. And where there was no result the ballot is open, and gets one from
whatever comes later, if as many agents vote as are ever expected. -/
theorem dispatch_tells_result {mesh₀ : Mesh} (hbuilt : mesh₀.Built) (ops : List Op) {id : String}
    {n : Node} (hn : (mesh₀.run ops).nodes.get? id = some n) (t task : String) (context : Fields)
    (now : Instant) (timeout : Nat) :
    let mesh := mesh₀.run ops
    let opened := (n.start t task context now).1.await t
    let story := opsOf id (mesh.dispatchDeeds now id t task context)
    let told := mesh.dispatch now id t task context timeout
    (∀ r, told.2 = .ok r ↔ opened.Yields t story r) ∧
      (told.2 = .error ⟨t, timeout⟩ ↔ ∀ r, ¬opened.Yields t story r) ∧
      (∀ j, (told.1.nodes.get? j).map (·.ledger) =
        (((mesh.start now id t task context false).drain now).nodes.get? j).map (·.ledger)) ∧
      ∃ n', told.1.nodes.get? id = some n' ∧ n'.ledger = (opened.run story).ledger ∧
        (told.2 = .error ⟨t, timeout⟩ → ∃ b, n'.ballot? t = some b ∧ b.result = none ∧
          ∀ later q, b.expected ≤ q → n'.participants ≤ q →
            (∀ v, Node.Op.setParticipants v ∈ later → max 1 v ≤ q) →
            q ≤ (b.responses.insertAll (n'.votes t later)).size → ∃ r, n'.Yields t later r) := by
  intro mesh opened story told
  have hs : mesh.Sound := hbuilt.sound.run ops
  obtain ⟨-, hsound, hwait, hballot⟩ := sound_awaiting hs hn t task context now
  have hacts := acts_dispatch hs hn t task context now
  have hok : ∀ r, told.2 = .ok r ↔ opened.Yields t story r :=
    dispatch_iff hs hn t task context now timeout
  have herror : told.2 = .error ⟨t, timeout⟩ ↔ ∀ r, ¬opened.Yields t story r := by
    rw [dispatch_error_iff]
    exact forall_congr' fun r => not_congr (hok r)
  refine ⟨hok, herror, dispatch_ledgers t task context now timeout false, ?_⟩
  have hledger : (told.1.nodes.get? id).map (·.ledger) =
      (((mesh.start now id t task context true).drain now).nodes.get? id).map (·.ledger) :=
    dispatch_ledgers t task context now timeout true id
  rw [hacts.get?_nodes] at hledger
  obtain ⟨n', hn', hsame⟩ := Option.map_eq_some_iff.mp hledger
  have hs' : told.1.Sound := hs.apply (.dispatch id t task context timeout now)
  refine ⟨n', hn', hsame, fun hnone => ?_⟩
  obtain ⟨b, hb, hr⟩ := Node.open_of_not_yields hsound hwait (hacts.opsOf_quiet id t) hballot
    (herror.mp hnone)
  have hb' : n'.ballot? t = some b := by rw [Node.ballot?, hsame]; exact hb
  exact ⟨b, hb', hr, fun later q hexpected hparticipants hset hvotes =>
    Node.yields_of_votes (hs' id n' hn').2 hb' hr hexpected hparticipants hset hvotes⟩

def hermit : Node :=
  Node.build "a" [] (some (Executor.constant "1")) (some 1) (Ledger.empty transcript ⟨some 0, none⟩)

def hermitage : Mesh where
  nodes := Dict.ofList [("a", hermit)]
  addresses := Dict.empty
  failure := fun _ => none
  queue := []
  log := []

theorem built_hermitage : hermitage.Built := by
  intro id n hn
  have hmem := List.mem_singleton.mp (Dict.mem_of_get?_ofList hn)
  obtain ⟨rfl, rfl⟩ := Prod.mk.injEq .. ▸ hmem
  exact ⟨_, _, _, _, _, rfl⟩

/-- The result is told though that of another task has taken its place by then; and where one more vote
was to come, it may come after the wait. -/
theorem dispatch_tells_result_dropped :
    let now := Instant.ofNanos 0
    let other : Message := ⟨.task, "b", "u", Dict.empty⟩
    let vote : Message := ⟨.result, "c", "t", Dict.ofList [("result", .str "2")]⟩
    let mesh := hermitage.run [.exchange "a" other now]
    let told := mesh.dispatch now "a" "t" "sum" Dict.empty 5
    let late := (mesh.apply (.setParticipants "a" 2)).dispatch now "a" "t" "sum" Dict.empty 5
    told.2 = .ok "🤝 sum\na: 1" ∧
      (told.1.nodes.get? "a").map (fun n => (n.ballot? "t").isSome) = some false ∧
      late.2 = .error ⟨"t", 5⟩ ∧
      ∃ n', late.1.nodes.get? "a" = some n' ∧ ∃ r, n'.Yields "t" [.handle vote now] r := by
  intro now other vote mesh told late
  let n := (hermit.handle other now).node
  have hn : mesh.nodes.get? "a" = some n := by
    have hself : hermitage.nodes.get? "a" = some hermit := Dict.get?_insert_self Dict.empty "a" hermit
    have hid : (hermit.handle other now).node.id = "a" := rfl
    have hmesh : mesh = hermitage.react "a" (hermit.handle other now) :=
      receive_eq hself hid fun mesh id m => mesh.broadcast now id m
    rw [hmesh]
    exact Dict.get?_insert_self hermitage.nodes "a" n
  have hn₂ : (mesh.apply (.setParticipants "a" 2)).nodes.get? "a" = some (n.setParticipants 2) := by
    have hmodify := Dict.get?_modify mesh.nodes "a" (·.setParticipants 2) "a"
    rw [hn, if_pos rfl] at hmodify
    exact hmodify
  have htold := dispatch_tells_result built_hermitage [.exchange "a" other now] hn "t" "sum"
    Dict.empty now 5
  obtain ⟨-, -, -, n', hn', -, hcomplete⟩ := dispatch_tells_result built_hermitage
    [.exchange "a" other now, .setParticipants "a" 2] hn₂ "t" "sum" Dict.empty now 5
  have herror : late.2 = .error ⟨"t", 5⟩ := by
    refine (dispatch_error_iff "t" "sum" Dict.empty now 5).mpr fun r hr => ?_
    have hnone : late.2.toOption = none := by decide
    rw [hr] at hnone
    cases hnone
  refine ⟨(htold.1 _).mpr ?_, by decide, herror, n', hn', ?_⟩
  · let story := opsOf "a" (mesh.dispatchDeeds now "a" "t" "sum" Dict.empty)
    exact ⟨story.take 2, story.drop 2, (List.take_append_drop 2 story).symm, by decide, by decide⟩
  · obtain ⟨b, hb, hr, hvotes⟩ := hcomplete herror
    have hopen : ((late.1.nodes.get? "a").bind fun n => (n.ballot? "t").map fun b =>
        (n.participants, b.expected, b.responses)) = some (2, 2, Dict.ofList [("a", "1")]) := by
      decide
    rw [show late.1.nodes.get? "a" = some n' from hn', Option.bind_some, hb, Option.map_some] at hopen
    obtain ⟨hparticipants, hexpected, hresponses⟩ : n'.participants = 2 ∧ b.expected = 2 ∧
        b.responses = Dict.ofList [("a", "1")] := by simpa using hopen
    have hvote : n'.votes "t" [.handle vote now] = [("c", "2")] := rfl
    refine hvotes [.handle vote now] 2 hexpected.le hparticipants.le (fun v hv => ?_) ?_
    · simp at hv
    · rw [hvote, hresponses]
      decide

end Mesh

end AgentMesh
