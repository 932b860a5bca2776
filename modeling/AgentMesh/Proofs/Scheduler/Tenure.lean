import AgentMesh.Proofs.Scheduler.Capacity

/-!
Jobs stay where they are. All that a sweep does to a worker is to hand it its share of the assignments,
one after the other (`Scheduler.sweep_worker?`); so what an operation is not about it changes by that
share alone, and a job leaves its worker only when it is completed or the worker is removed
(`Scheduler.assignments_stay`).
-/

namespace AgentMesh

namespace Worker

/-- The worker after it has been handed some jobs, one after the other. -/
def takeAll (w : Worker) (made : List Assignment) : Worker := made.foldl take w

theorem takeAll_eq (w : Worker) (made : List Assignment) :
    w.takeAll made =
      { w with
        assigned := w.assigned.insertAll (made.map fun a => (a.taskId, a))
        lastHeartbeat := (made.getLast?.map Assignment.assignedAt).getD w.lastHeartbeat } := by
  induction made generalizing w with
  | nil => rfl
  | cons a rest ih =>
    rw [takeAll, List.foldl_cons, ← takeAll, ih (w.take a), List.getLast?_cons]
    cases rest.getLast? <;> rfl

end Worker

namespace Scheduler

variable {s p t : Scheduler} {now : Instant} {id taskId : String} {op : Op}

theorem sweep_worker? (hk : s.Keyed) (now : Instant) (id : String) :
    (s.sweep now).1.workers.get? id =
      (s.workers.get? id).map fun w =>
        w.takeAll ((s.sweep now).2.filter (·.worker = id)) := by
  induction s using sweep_induction now with
  | stop s h =>
    rw [sweep_of_none h]
    exact Option.map_id'.symm
  | turn s a t h ih =>
    have hrest := ih (hk.assign h)
    obtain ⟨w, hw, -, ht⟩ := assign?_workers hk h
    rw [ht, Dict.get?_insert] at hrest
    rw [sweep_of_some h, hrest]
    by_cases ha : a.worker = id
    · rw [if_pos ha, ← ha, hw]
      simp [Worker.takeAll]
    · rw [if_neg ha, List.filter_cons_of_neg (by simpa using ha)]

def made (s : Scheduler) (op : Op) : List Assignment :=
  (s.prepared? op).elim [] fun p => (p.sweep op.now).2

/-- The worker that an operation is about. -/
def Op.worker? : Op → Option String
  | .register id _ _ _ | .heartbeat id _ _ | .unregister id _ | .complete id _ _ _ => some id
  | .submit _ _ _ _ _ | .status _ => none

theorem prepared_worker?_of_ne (hk : s.Keyed) (hp : s.prepared? op = some p)
    (hid : op.worker? ≠ some id) : p.workers.get? id = s.workers.get? id := by
  cases op with
  | register id' _ _ at_ | heartbeat id' _ at_ =>
    cases hp
    rw [updated_get? hk, if_neg fun he => hid (congrArg some he)]
  | unregister id' at_ =>
    obtain ⟨w, -, rfl⟩ := Option.map_eq_some_iff.mp hp
    rw [withdrawn_get?, if_neg fun he => hid (congrArg some he)]
  | submit =>
    cases hp
    rfl
  | complete id' taskId success at_ =>
    obtain ⟨-, rfl⟩ | ⟨w, a, hh, rfl⟩ := prepared?_complete hp
    · rfl
    · rw [released_get? hk (held?_eq_some.mp hh).1, if_neg fun he => hid (congrArg some he)]
  | status => cases hp

theorem apply_worker?_of_ne (hk : s.Keyed) (hid : op.worker? ≠ some id) :
    (s.apply op).workers.get? id =
      (s.workers.get? id).map fun w => w.takeAll ((s.made op).filter (·.worker = id)) := by
  rw [apply_eq, made]
  cases hp : s.prepared? op with
  | none => exact Option.map_id'.symm
  | some p =>
    rw [← prepared_worker?_of_ne hk hp hid]
    exact sweep_worker? (hk.prepared hp) op.now id

theorem isSome_held?_iff :
    (s.held? id taskId).isSome ↔
      ∃ w, s.workers.get? id = some w ∧ (w.assigned.get? taskId).isSome := by
  cases hw : s.workers.get? id <;> simp [held?, hw]

theorem isSome_takeAll {w : Worker} (h : (w.assigned.get? taskId).isSome) (made : List Assignment) :
    ((w.takeAll made).assigned.get? taskId).isSome := by
  rw [Worker.takeAll_eq, ← Dict.mem_keys, ← List.mem_toFinset, Dict.toFinset_keys_insertAll]
  exact Finset.mem_union_right _ (List.mem_toFinset.mpr (Dict.mem_keys.mpr h))

theorem isSome_held?_sweep (hk : s.Keyed) (h : (s.held? id taskId).isSome) (now : Instant) :
    ((s.sweep now).1.held? id taskId).isSome := by
  obtain ⟨w, hw, ht⟩ := isSome_held?_iff.mp h
  have hw' := sweep_worker? hk now id
  rw [hw, Option.map_some] at hw'
  exact isSome_held?_iff.mpr ⟨_, hw', isSome_takeAll ht _⟩

theorem isSome_held?_prepared (hk : s.Keyed) (hp : s.prepared? op = some p)
    (h : (s.held? id taskId).isSome) (hdone : ∀ success now, op ≠ .complete id taskId success now)
    (hgone : ∀ now, op ≠ .unregister id now) : (p.held? id taskId).isSome := by
  obtain ⟨w, hw, ht⟩ := isSome_held?_iff.mp h
  rw [isSome_held?_iff]
  by_cases hid : op.worker? = some id
  · cases op with
    | register id' capacity priority at_ | heartbeat id' update at_ =>
      obtain rfl := Option.some.inj hid
      cases hp
      refine ⟨_, (updated_get? hk _ _ _ _).trans (if_pos rfl), ?_⟩
      simpa [worker, hw, Worker.update] using ht
    | unregister id' at_ =>
      obtain rfl := Option.some.inj hid
      exact absurd rfl (hgone at_)
    | complete id' taskId' success at_ =>
      obtain rfl := Option.some.inj hid
      obtain ⟨-, rfl⟩ | ⟨v, a, hh, rfl⟩ := prepared?_complete hp
      · exact ⟨w, hw, ht⟩
      · have hv := (held?_eq_some.mp hh).1
        obtain rfl := Option.some.inj (hw.symm.trans hv)
        have hne : taskId' ≠ taskId := fun he => hdone success at_ (by rw [he])
        refine ⟨_, (released_get? hk hv _ _ _ _ _).trans (if_pos rfl), ?_⟩
        rwa [Dict.get?_erase, if_neg hne]
    | submit | status => cases hid
  · exact ⟨w, (prepared_worker?_of_ne hk hp hid).trans hw, ht⟩

/-- Along any operations, what a worker holds of a task it holds after the next operation as well, unless
that completes the task at this worker or removes the worker. A worker that the operation is not about
is as before but for the jobs that the sweep hands to it: its last sign of life changes only with them,
to the time of one of them. -/
theorem assignments_stay (ops : List Op) (op : Op) :
    let s := empty.run ops
    let s' := s.apply op
    (∀ id taskId, (s.held? id taskId).isSome →
      (∀ success now, op ≠ .complete id taskId success now) → (∀ now, op ≠ .unregister id now) →
      (s'.held? id taskId).isSome) ∧
    ∀ id w, s.workers.get? id = some w → op.worker? ≠ some id →
      let handed := (s.made op).filter (·.worker = id)
      let w' := w.takeAll handed
      s'.workers.get? id = some w' ∧
      w'.capacity = w.capacity ∧ w'.priority = w.priority ∧ w'.active = w.active ∧
      (∀ taskId, (w.assigned.get? taskId).isSome → (w'.assigned.get? taskId).isSome) ∧
      (handed = [] → w'.lastHeartbeat = w.lastHeartbeat) ∧
      (handed ≠ [] → ∃ a ∈ handed, w'.lastHeartbeat = a.assignedAt) := by
  intro s s'
  have hk : s.Keyed := keyed_run ops
  refine ⟨fun id taskId h hdone hgone => ?_, fun id w hw hid => ?_⟩
  · change ((s.apply op).held? id taskId).isSome
    rw [apply_eq]
    cases hp : s.prepared? op with
    | none => exact h
    | some p =>
      exact isSome_held?_sweep (hk.prepared hp) (isSome_held?_prepared hk hp h hdone hgone) op.now
  · intro handed w'
    have hw' : w' = _ := w.takeAll_eq handed
    refine ⟨?_, by rw [hw'], by rw [hw'], by rw [hw'], fun taskId h => isSome_takeAll h handed,
      fun hnone => by rw [hw', hnone]; rfl, fun hsome => ?_⟩
    · change (s.apply op).workers.get? id = _
      rw [apply_worker?_of_ne hk hid, hw]
      rfl
    · refine ⟨handed.getLast hsome, List.getLast_mem hsome, ?_⟩
      rw [hw', List.getLast?_eq_some_getLast hsome]
      rfl

/-- The worker that leaves has two jobs, one of which goes to a worker that holds another; the third
worker keeps its job and hears of nothing. -/
theorem assignments_stay_removed :
    let now := Instant.ofNanos 0
    let later := Instant.ofNanos 5
    let submit (taskId : String) : Op := .submit taskId Dict.empty 0 Dict.empty now
    let ops : List Op :=
      [.register "a" 2 0 now, submit "t", submit "u", .register "b" 2 0 now, submit "v",
       .register "c" 1 0 now, submit "w"]
    let op : Op := .unregister "a" later
    let s := empty.run ops
    (s.made op).map (fun a => (a.taskId, a.worker)) = [("t", "b")] ∧
      (s.held? "b" "v").isSome ∧ ((s.apply op).held? "b" "v").isSome ∧
      (∃ w, s.workers.get? "b" = some w ∧ w.lastHeartbeat = now ∧
        ∃ w', (s.apply op).workers.get? "b" = some w' ∧ w'.capacity = w.capacity ∧
          ∃ a ∈ (s.made op).filter (·.worker = "b"), w'.lastHeartbeat = a.assignedAt) ∧
      ∃ w, s.workers.get? "c" = some w ∧ (s.apply op).workers.get? "c" = some w := by
  intro now later submit ops op s
  obtain ⟨hstays, hframe⟩ := assignments_stay ops op
  have hmade : (s.made op).map (fun a => (a.taskId, a.worker)) = [("t", "b")] := by decide
  have hheld : (s.held? "b" "v").isSome := by decide
  have hb : (s.workers.get? "b").map Worker.lastHeartbeat = some now := by decide
  have hc : (s.workers.get? "c").isSome := by decide
  obtain ⟨w, hw, hnow⟩ := Option.map_eq_some_iff.mp hb
  obtain ⟨v, hv⟩ := Option.isSome_iff_exists.mp hc
  obtain ⟨hw', hcapacity, -, -, -, -, htime⟩ := hframe "b" w hw (by decide)
  obtain ⟨hv', -⟩ := hframe "c" v hv (by decide)
  have hnone : (s.made op).filter (·.worker = "c") = [] := by decide
  rw [hnone] at hv'
  exact ⟨hmade, hheld, hstays "b" "v" hheld (by simp [op]) (by simp [op]),
    ⟨w, hw, hnow, _, hw', hcapacity, htime (by decide)⟩, v, hv, hv'⟩

end Scheduler

end AgentMesh
