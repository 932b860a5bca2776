import AgentMesh.Proofs.Scheduler.Runs

/-!
Room and capacity. After every operation no job waits while a worker has room
(`Scheduler.work_conserving`), and a job is handed to a worker only while that is active and below its
capacity (`Scheduler.capacity_safe`). A worker may hold more than its capacity if that is lowered under
it; it is then handed nothing.
-/

namespace AgentMesh

/-- A worker is active and not above its capacity. -/
def Worker.InBounds (w : Worker) : Prop :=
  w.active = true ∧ w.assigned.size ≤ max 1 w.capacity

theorem Worker.hasCapacity_iff {w : Worker} :
    w.hasCapacity = true ↔ w.active = true ∧ w.assigned.size < max 1 w.capacity := by
  simp [hasCapacity]

namespace Scheduler

variable {s p t : Scheduler} {now : Instant} {id : String} {w : Worker}

/-- No job waits, or no worker has room. -/
def Exhausted (s : Scheduler) : Prop :=
  s.pending.jobs = [] ∨ ∀ w ∈ s.workers.values, w.hasCapacity = false

theorem exhausted_empty : empty.Exhausted := Or.inl rfl

theorem Exhausted.apply (h : s.Exhausted) (op : Op) : (s.apply op).Exhausted := by
  rw [apply_eq]
  cases s.prepared? op with
  | none => exact h
  | some p => exact assign?_eq_none_iff.mp (assign?_sweep p op.now)

theorem exhausted_run (ops : List Op) : (empty.run ops).Exhausted :=
  run_invariant (fun _ op h => h.apply op) exhausted_empty ops

/-- In every scheduler that operations reach from the empty one, no worker is active and below its
capacity while a job waits. -/
theorem work_conserving (ops : List Op) (hwait : (empty.run ops).pending.isEmpty = false)
    {id : String} {w : Worker} (hw : (empty.run ops).workers.get? id = some w) :
    ¬(w.active = true ∧ w.assigned.size < max 1 w.capacity) := by
  rw [← Worker.hasCapacity_iff, Bool.not_eq_true]
  rcases exhausted_run ops with hnone | hfull
  · simp [JobQueue.isEmpty, hnone] at hwait
  · exact hfull w (Dict.mem_values.mpr ⟨id, hw⟩)

/-- A worker of capacity zero holds one job, one that has left has its jobs waiting again, and one that
is not active gets none of them. -/
theorem work_conserving_inactive :
    let now := Instant.ofNanos 0
    let s := empty.run
      [.heartbeat "idle" ⟨some 4, none, some false⟩ now, .register "gone" 2 0 now,
       .submit "t" Dict.empty 0 Dict.empty now, .submit "u" Dict.empty 0 Dict.empty now,
       .submit "t" Dict.empty 1 Dict.empty now, .register "small" 0 0 now,
       .unregister "gone" now]
    s.pending.isEmpty = false ∧ ∃ w, s.workers.get? "idle" = some w ∧
      ¬(w.active = true ∧ w.assigned.size < max 1 w.capacity) := by
  intro now s
  have hwait : s.pending.isEmpty = false := by decide
  have hsome : (s.workers.get? "idle").isSome := by decide
  obtain ⟨w, hw⟩ := Option.isSome_iff_exists.mp hsome
  exact ⟨hwait, w, hw, work_conserving _ hwait hw⟩

def holding (s : Scheduler) (id : String) : Nat :=
  (s.workers.get? id).elim 0 fun w => w.assigned.size

/-- The capacity that an operation gives to a worker. -/
def Op.capacity? : Op → Option (String × Nat)
  | .register id capacity _ _ => some (id, capacity)
  | .heartbeat id update _ => update.capacity.map fun capacity => (id, capacity)
  | _ => none

/-- Whether an operation lowers a worker's capacity below the number of jobs that it holds. -/
def Lowers (s : Scheduler) (op : Op) : Prop :=
  ∃ x ∈ op.capacity?, ∃ w ∈ s.workers.get? x.1, x.2 < w.capacity ∧ x.2 < w.assigned.size

instance (s : Scheduler) (op : Op) : Decidable (s.Lowers op) :=
  inferInstanceAs (Decidable (∃ x ∈ op.capacity?, _))

theorem assign?_workers (hk : s.Keyed) {a : Assignment} (h : s.assign? now = some (a, t)) :
    ∃ w, s.workers.get? a.worker = some w ∧ w.hasCapacity = true ∧
      t.workers = s.workers.insert a.worker (w.take a) := by
  obtain ⟨j, rest, w, -, hw, rfl, rfl⟩ := assign?_eq_some h
  obtain ⟨hget, -, hcap⟩ := hk.bestWorker hw
  exact ⟨w, hget, hcap, rfl⟩

theorem sweep_worker (hk : p.Keyed) (hw : (p.sweep now).1.workers.get? id = some w) :
    p.workers.get? id = some w ∨ w.InBounds := by
  let P : Scheduler → Prop := fun s => s.Keyed ∧
    ∀ id w, s.workers.get? id = some w → p.workers.get? id = some w ∨ w.InBounds
  have hinv : P (p.sweep now).1 := by
    refine sweep_invariant ?_ (⟨hk, fun _ _ h => Or.inl h⟩ : P p)
    rintro s a t ⟨hs, hold⟩ ha
    refine ⟨hs.assign ha, fun id w hw => ?_⟩
    obtain ⟨v, -, hv, ht⟩ := assign?_workers hs ha
    rw [ht, Dict.get?_insert] at hw
    split at hw
    · cases hw
      obtain ⟨hactive, hlt⟩ := Worker.hasCapacity_iff.mp hv
      have hle := Dict.size_insert_le v.assigned a.taskId a
      refine Or.inr ⟨hactive, ?_⟩
      change (v.assigned.insert a.taskId a).size ≤ max 1 v.capacity
      omega
    · exact hold id w hw
  exact hinv.2 id w hw

/-- What a worker can be before the sweep of an operation: it holds nothing, or it is one from before
that holds no more than it did and has its old capacity or the one that the operation gives. -/
def Descends (s : Scheduler) (op : Op) (id : String) (w : Worker) : Prop :=
  w.assigned.size = 0 ∨ ∃ v, s.workers.get? id = some v ∧
    w.assigned.size ≤ v.assigned.size ∧
    (w.capacity = v.capacity ∨ op.capacity? = some (id, w.capacity))

theorem descends_updated {op : Op} {u : WorkerUpdate}
    (hc : op.capacity? = u.capacity.map fun c => (id, c)) :
    s.Descends op id ((s.worker id now).update u now) := by
  cases hv : s.workers.get? id with
  | none =>
    refine Or.inl ?_
    simp [Worker.update, worker, hv, Worker.fresh, Dict.size, Dict.empty]
  | some v =>
    refine Or.inr ⟨v, hv, by simp [Worker.update, worker, hv], ?_⟩
    cases hu : u.capacity with
    | none => simp [Worker.update, worker, hv, hu]
    | some c => simp [Worker.update, hc, hu]

theorem prepared_worker (hk : s.Keyed) {op : Op} (hp : s.prepared? op = some p)
    (hw : p.workers.get? id = some w) : s.Descends op id w := by
  have hsame : s.workers.get? id = some w → s.Descends op id w :=
    fun hw => Or.inr ⟨w, hw, le_refl _, Or.inl rfl⟩
  cases op with
  | register id' _ _ at_ | heartbeat id' _ at_ =>
    cases hp
    rw [updated_get? hk] at hw
    split at hw
    · next he =>
      cases hw
      subst he
      exact descends_updated rfl
    · exact hsame hw
  | unregister id' at_ =>
    obtain ⟨x, -, rfl⟩ := Option.map_eq_some_iff.mp hp
    rw [withdrawn_get?] at hw
    split at hw
    · cases hw
    · exact hsame hw
  | submit =>
    cases hp
    exact hsame hw
  | complete id' taskId success at_ =>
    obtain ⟨-, rfl⟩ | ⟨v, a, hh, rfl⟩ := prepared?_complete hp
    · exact hsame hw
    · obtain ⟨hv, ha⟩ := held?_eq_some.mp hh
      rw [released_get? hk hv] at hw
      split at hw
      · next he =>
        cases hw
        have hs := Dict.size_erase (Option.isSome_of_eq_some ha)
        refine Or.inr ⟨v, he ▸ hv, ?_, Or.inl rfl⟩
        change (v.assigned.erase taskId).size ≤ v.assigned.size
        omega
      · exact hsame hw
  | status => cases hp

theorem within_of_holding_lt (hk : s.Keyed) {op : Op}
    (hw : (s.apply op).workers.get? id = some w) (hlt : s.holding id < w.assigned.size) :
    w.InBounds := by
  rw [apply_eq] at hw
  cases hp : s.prepared? op with
  | none =>
    rw [hp] at hw
    have hw' : s.workers.get? id = some w := hw
    simp [holding, hw'] at hlt
  | some p =>
    rw [hp] at hw
    rcases sweep_worker (hk.prepared hp) hw with hold | hin
    · rcases prepared_worker hk hp hold with hz | ⟨v, hv, hle, -⟩
      · omega
      · simp only [holding, hv, Option.elim_some] at hlt
        omega
    · exact hin

def WithinCapacity (s : Scheduler) : Prop :=
  ∀ id w, s.workers.get? id = some w → w.assigned.size ≤ max 1 w.capacity

theorem WithinCapacity.apply (h : s.WithinCapacity) (hk : s.Keyed) {op : Op}
    (hop : ¬s.Lowers op) : (s.apply op).WithinCapacity := by
  intro id w hw
  rw [apply_eq] at hw
  cases hp : s.prepared? op with
  | none =>
    rw [hp] at hw
    exact h id w hw
  | some p =>
    rw [hp] at hw
    rcases sweep_worker (hk.prepared hp) hw with hold | ⟨-, hin⟩
    · rcases prepared_worker hk hp hold with hz | ⟨v, hv, hle, hc | hc⟩
      · omega
      · have hb := h id v hv
        omega
      · have hb := h id v hv
        have hn : ¬(w.capacity < v.capacity ∧ w.capacity < v.assigned.size) :=
          fun hlow => hop ⟨_, hc, v, hv, hlow⟩
        omega
    · exact hin

/-- Along operations from the empty scheduler, a worker that holds more after an operation than before
is active and not above its capacity then; each assignment that an operation makes is made to a worker
that is active and below its capacity at that stage of the sweep; and unless a capacity is lowered
below what the worker holds, no worker is ever above its capacity. -/
theorem capacity_safe (ops : List Op) :
    let s := empty.run ops
    (∀ op id w, (s.apply op).workers.get? id = some w → s.holding id < w.assigned.size →
      w.active = true ∧ w.assigned.size ≤ max 1 w.capacity) ∧
    (∀ op p, s.prepared? op = some p → s.apply op = (p.sweep op.now).1 ∧
      ∀ k a, (p.sweep op.now).2[k]? = some a →
        ∃ w, (p.stage op.now k).workers.get? a.worker = some w ∧
          w.active = true ∧ w.assigned.size < max 1 w.capacity) ∧
    (Throughout (fun s op => ¬s.Lowers op) empty ops →
      ∀ id w, s.workers.get? id = some w → w.assigned.size ≤ max 1 w.capacity) := by
  intro s
  have hk : s.Keyed := keyed_run ops
  refine ⟨fun op id w hw hlt => within_of_holding_lt hk hw hlt, fun op p hp => ⟨?_, ?_⟩,
    fun hops => ?_⟩
  · rw [apply_eq, hp]
    rfl
  · intro k a ha
    rw [getElem?_sweep] at ha
    obtain ⟨⟨b, t⟩, hb, rfl⟩ := Option.map_eq_some_iff.mp ha
    have hstage : (p.stage op.now k).Keyed :=
      stage_invariant (fun _ _ _ h => h.assign) (hk.prepared hp) k
    obtain ⟨w, hw, hcap, -⟩ := assign?_workers hstage hb
    exact ⟨w, hw, Worker.hasCapacity_iff.mp hcap⟩
  · have hinv : s.Keyed ∧ s.WithinCapacity :=
      run_invariant_of (P := fun s => s.Keyed ∧ s.WithinCapacity)
        (fun s op hop h => ⟨h.1.apply op, h.2.apply h.1 hop⟩)
        ⟨keyed_empty, fun _ _ h => by simp [empty] at h⟩ hops
    exact hinv.2

/-- A capacity is lowered to what the worker then holds, so the next job waits until another worker
comes. -/
theorem capacity_safe_lowered :
    let now := Instant.ofNanos 0
    let submit (taskId : String) : Op := .submit taskId Dict.empty 0 Dict.empty now
    let ops : List Op :=
      [.register "a" 3 0 now, submit "t", submit "u", submit "v", .complete "a" "t" true now,
       .heartbeat "a" ⟨some 2, none, none⟩ now, submit "w"]
    let op : Op := .register "b" 0 0 now
    let s := empty.run ops
    Throughout (fun s op => ¬s.Lowers op) empty ops ∧
      (∃ w, s.workers.get? "a" = some w ∧ w.assigned.size ≤ max 1 w.capacity) ∧
      (∃ w, (s.apply op).workers.get? "b" = some w ∧ s.holding "b" < w.assigned.size ∧
        w.active = true ∧ w.assigned.size ≤ max 1 w.capacity) ∧
      ∃ p a w, s.prepared? op = some p ∧ (p.sweep op.now).2[0]? = some a ∧
        (p.stage op.now 0).workers.get? a.worker = some w ∧ w.active = true ∧
        w.assigned.size < max 1 w.capacity := by
  intro now submit ops op s
  obtain ⟨hgrown, hmade, hwithin⟩ := capacity_safe ops
  have hops : Throughout (fun s op => ¬s.Lowers op) empty ops := by decide
  have ha : (s.workers.get? "a").isSome := by decide
  have hb : ((s.apply op).workers.get? "b").map
      (fun w => decide (s.holding "b" < w.assigned.size)) = some true := by decide
  have hp : ((s.prepared? op).map fun p => (p.sweep op.now).2[0]?.isSome) = some true := by decide
  obtain ⟨w, hw⟩ := Option.isSome_iff_exists.mp ha
  obtain ⟨v, hv, hlt⟩ := Option.map_eq_some_iff.mp hb
  obtain ⟨p, hp, hsome⟩ := Option.map_eq_some_iff.mp hp
  obtain ⟨a, hfirst⟩ := Option.isSome_iff_exists.mp hsome
  obtain ⟨x, hx, hroom⟩ := (hmade op p hp).2 0 a hfirst
  have hlt : s.holding "b" < v.assigned.size := of_decide_eq_true hlt
  exact ⟨hops, ⟨w, hw, hwithin hops "a" w hw⟩, ⟨v, hv, hlt, hgrown op "b" v hv hlt⟩,
    p, a, x, hp, hfirst, hx, hroom⟩

end Scheduler

end AgentMesh
