import AgentMesh.Proofs.Scheduler.Runs
import Mathlib.Algebra.GroupWithZero.Nat

/-!
No submission is lost. As long as no job is submitted under the identifier of one that waits or is
held, what waits, what is held and what has ended are together the jobs submitted, each of them once
(`Scheduler.no_job_lost`). A job submitted under the identifier of one that is held would take its place
at the worker that is handed both.
-/

namespace AgentMesh

theorem JobQueue.toList_pushAll (q : JobQueue) (js : List Job) :
    (q.pushAll js).toList.Perm (js ++ q.toList) := by
  induction js generalizing q with
  | nil => exact List.Perm.refl _
  | cons j r ih =>
    have hj : (r ++ (q.push j).toList).Perm (r ++ j :: q.toList) := (q.toList_push j).append_left r
    exact (ih (q.push j)).trans (hj.trans List.perm_middle)

namespace Scheduler

/-- All that workers hold. -/
def held (workers : Dict Worker) : List Assignment :=
  workers.values.flatMap fun w => w.assigned.values

/-- The jobs that wait or are held. -/
def unfinished (s : Scheduler) : List Job :=
  s.pending.toList ++ (held s.workers).map Assignment.toJob

def Distinct (s : Scheduler) : Prop := (s.unfinished.map Job.taskId).Nodup

def submitted (s : Scheduler) : Op → List Job
  | .submit taskId payload priority metadata now => [s.job taskId payload priority metadata now]
  | _ => []

/-- The assignment that an operation ends with success, or without. -/
def ended (success : Bool) (s : Scheduler) : Op → List Assignment
  | .complete id taskId outcome now =>
    if outcome = success then (s.complete id taskId outcome now).2.toList else []
  | _ => []

/-- What was held by the worker that an operation removes. -/
def requeued (s : Scheduler) : Op → List Assignment
  | .unregister id now => (s.unregister id now).2.elim [] fun w => w.assigned.values
  | _ => []

/-- An operation does not submit a job under the identifier of one that waits or is held. -/
def Unused (s : Scheduler) (op : Op) : Prop :=
  ∀ j ∈ s.submitted op, j.taskId ∉ s.unfinished.map Job.taskId

instance (s : Scheduler) (op : Op) : Decidable (s.Unused op) :=
  inferInstanceAs (Decidable (∀ j ∈ s.submitted op, _))

variable {s t u p : Scheduler} {now : Instant}

theorem ended_complete (s : Scheduler) (success outcome : Bool) (id taskId : String)
    (now : Instant) :
    ended success s (.complete id taskId outcome now) =
      if outcome = success then ((s.held? id taskId).map (·.2)).toList else [] := by
  have hsnd : (s.complete id taskId outcome now).2 = (s.held? id taskId).map (·.2) := by
    cases hh : s.held? id taskId with
    | none => rw [complete_of_none hh, Option.map_none]
    | some x => rw [complete_of_some hh, Option.map_some]
  rw [ended, hsnd]

theorem requeued_unregister (s : Scheduler) (id : String) (now : Instant) :
    s.requeued (.unregister id now) =
      (s.workers.get? id).elim [] fun w => w.assigned.values := by
  simp only [requeued, unregister]
  cases s.workers.get? id <;> rfl

theorem held_insert (workers : Dict Worker) (k : String) (w : Worker) :
    (held (workers.insert k w)).Perm (w.assigned.values ++ held (workers.erase k)) :=
  (Dict.values_insert workers k w).flatMap_right _

theorem held_of_some {workers : Dict Worker} {k : String} {w : Worker}
    (h : workers.get? k = some w) :
    (held workers).Perm (w.assigned.values ++ held (workers.erase k)) :=
  (Dict.values_erase h).flatMap_right _

theorem held_worker (s : Scheduler) (id : String) (now : Instant) :
    (held s.workers).Perm ((s.worker id now).assigned.values ++ held (s.workers.erase id)) := by
  cases h : s.workers.get? id with
  | none => simp [worker, h, Worker.fresh, Dict.erase_of_none h, Dict.values, Dict.empty]
  | some w => simpa [worker, h] using held_of_some h

theorem length_held (workers : Dict Worker) :
    (held workers).length = (workers.values.map fun w => w.assigned.size).sum := by
  simp only [held, List.length_flatMap, Dict.length_values]

theorem mem_held {workers : Dict Worker} {k taskId : String} {w : Worker} {a : Assignment}
    (hw : workers.get? k = some w) (ha : w.assigned.get? taskId = some a) : a ∈ held workers :=
  List.mem_flatMap.mpr ⟨w, Dict.mem_values.mpr ⟨k, hw⟩, Dict.mem_values.mpr ⟨taskId, ha⟩⟩

theorem unfinished_queued (s : Scheduler) (j : Job) :
    (s.queued j).unfinished.Perm (j :: s.unfinished) :=
  (s.pending.toList_push j).append_right ((held s.workers).map Assignment.toJob)

/-- What an assignment takes the place of: what its worker holds under the identifier of the task. -/
def replaced (s : Scheduler) (a : Assignment) : List Assignment :=
  ((s.held? a.worker a.taskId).map (·.2)).toList

theorem replaced_ofJob {w : Worker} (hw : s.workers.get? w.id = some w) (j : Job) (now : Instant) :
    s.replaced (Assignment.ofJob j w.id now) = (w.assigned.get? j.taskId).toList := by
  simp only [replaced, held?, Assignment.ofJob, hw, Option.bind_some, Option.map_map]
  rw [Function.comp_def, Option.map_id']

theorem unfinished_assign (hk : s.Keyed) {a : Assignment} (h : s.assign? now = some (a, t)) :
    (t.unfinished ++ (s.replaced a).map Assignment.toJob).Perm s.unfinished := by
  obtain ⟨j, rest, w, hj, hw, rfl, rfl⟩ := assign?_eq_some h
  have hget : s.workers.get? w.id = some w := (hk.bestWorker hw).1
  let a := Assignment.ofJob j w.id now
  have hheld : (held (s.workers.insert w.id (w.take a)) ++ s.replaced a).Perm
      (a :: held s.workers) := by
    have hvalues := Dict.values_insert_append w.assigned j.taskId a
    have hnew : (held (s.workers.insert w.id (w.take a))).Perm
        ((w.assigned.insert j.taskId a).values ++ held (s.workers.erase w.id)) :=
      held_insert s.workers w.id (w.take a)
    have hold := held_of_some hget
    rw [replaced_ofJob hget]
    refine List.perm_iff_count.mpr fun x => ?_
    have h1 := List.perm_iff_count.mp hvalues x
    have h2 := List.perm_iff_count.mp hnew x
    have h3 := List.perm_iff_count.mp hold x
    simp only [List.count_append, List.count_cons] at h1 h2 h3 ⊢
    omega
  have hjobs := (hheld.map Assignment.toJob).append_left rest.jobs
  rw [List.map_append, ← List.append_assoc] at hjobs
  rw [unfinished, unfinished, JobQueue.toList, JobQueue.toList, hj]
  exact hjobs.trans List.perm_middle

/-- From one scheduler to a later one: the jobs submitted in between, the assignments ended with
success and without, and those whose jobs wait again. -/
structure Balance (s : Scheduler) (jobs : List Job) (done lost back : List Assignment)
    (t : Scheduler) : Prop where
  unfinished : (t.unfinished ++ (done ++ lost).map Assignment.toJob).Perm (s.unfinished ++ jobs)
  numbers : jobs.map Job.seq = List.range' s.nextSeq jobs.length
  nextSeq : t.nextSeq = s.nextSeq + jobs.length
  completed : t.completed = s.completed + done.length
  failed : t.failed = s.failed + lost.length
  distributed : t.distributed + (held s.workers).length =
    s.distributed + (held t.workers).length + done.length + lost.length + back.length

theorem balance_of_perm {back : List Assignment} (hjobs : t.unfinished.Perm s.unfinished)
    (hseq : t.nextSeq = s.nextSeq) (hcompleted : t.completed = s.completed)
    (hfailed : t.failed = s.failed)
    (hdistributed : t.distributed + (held s.workers).length =
      s.distributed + (held t.workers).length + back.length) :
    Balance s [] [] [] back t :=
  ⟨by simpa using hjobs, rfl, hseq, hcompleted, hfailed, hdistributed⟩

theorem Balance.refl (s : Scheduler) : Balance s [] [] [] [] s :=
  balance_of_perm (List.Perm.refl _) rfl rfl rfl rfl

theorem Balance.trans {jobs jobs' : List Job} {done lost back done' lost' back' : List Assignment}
    (h : Balance s jobs done lost back t) (h' : Balance t jobs' done' lost' back' u) :
    Balance s (jobs ++ jobs') (done ++ done') (lost ++ lost') (back ++ back') u where
  unfinished := by
    have hst := List.perm_iff_count.mp h.unfinished
    have htu := List.perm_iff_count.mp h'.unfinished
    refine List.perm_iff_count.mpr fun j => ?_
    have h1 := hst j
    have h2 := htu j
    simp only [List.map_append, List.count_append] at h1 h2 ⊢
    omega
  numbers := by
    rw [List.map_append, h.numbers, h'.numbers, h.nextSeq, List.length_append,
      List.range'_append_1]
  nextSeq := by rw [h'.nextSeq, h.nextSeq, List.length_append, Nat.add_assoc]
  completed := by rw [h'.completed, h.completed, List.length_append, Nat.add_assoc]
  failed := by rw [h'.failed, h.failed, List.length_append, Nat.add_assoc]
  distributed := by
    have h1 := h.distributed
    have h2 := h'.distributed
    simp only [List.length_append]
    omega

theorem Balance.distinct {jobs : List Job} {done lost back : List Assignment}
    (h : Balance s jobs done lost back t) (hs : ((s.unfinished ++ jobs).map Job.taskId).Nodup) :
    t.Distinct := by
  have hp := (h.unfinished.map Job.taskId).nodup_iff.mpr hs
  rw [List.map_append] at hp
  exact (List.nodup_append.mp hp).1

theorem Distinct.get?_taskId (hd : s.Distinct) (hk : s.Keyed) {j : Job} {rest : List Job}
    (hj : s.pending.jobs = j :: rest) {id : String} {w : Worker}
    (hw : s.workers.get? id = some w) : w.assigned.get? j.taskId = none := by
  cases ha : w.assigned.get? j.taskId with
  | none => rfl
  | some a =>
    have hid : a.taskId = j.taskId := ((hk id w hw).2 j.taskId a ha).1
    have hmem : a.toJob ∈ (held s.workers).map Assignment.toJob :=
      List.mem_map_of_mem (mem_held hw ha)
    have hnot : j.taskId ∉ (rest ++ (held s.workers).map Assignment.toJob).map Job.taskId := by
      rw [Distinct, unfinished, JobQueue.toList, hj] at hd
      exact (List.nodup_cons.mp hd).1
    exact absurd (List.mem_map.mpr ⟨a.toJob, List.mem_append_right rest hmem, hid⟩) hnot

theorem Distinct.assign (hd : s.Distinct) (hk : s.Keyed) {a : Assignment}
    (h : s.assign? now = some (a, t)) : Balance s [] [] [] [] t := by
  have hjobs := unfinished_assign hk h
  obtain ⟨j, rest, w, hj, hw, rfl, rfl⟩ := assign?_eq_some h
  have hget : s.workers.get? w.id = some w := (hk.bestWorker hw).1
  have hnone : s.replaced (Assignment.ofJob j w.id now) = [] := by
    rw [replaced_ofJob hget, hd.get?_taskId hk hj hget, Option.toList_none]
  rw [hnone, List.map_nil, List.append_nil] at hjobs
  have hlen := hjobs.length_eq
  refine balance_of_perm hjobs rfl rfl rfl ?_
  simp only [unfinished, JobQueue.toList, put, hj, List.length_append, List.length_map,
    List.length_cons] at hlen
  simp only [put, List.length_nil]
  omega

theorem Distinct.sweep (hd : p.Distinct) (hk : p.Keyed) (now : Instant) :
    Balance p [] [] [] [] (p.sweep now).1 := by
  let P : Scheduler → Prop := fun s => s.Keyed ∧ s.Distinct ∧ Balance p [] [] [] [] s
  have hinv : P (p.sweep now).1 := by
    refine sweep_invariant ?_ (⟨hk, hd, Balance.refl p⟩ : P p)
    rintro s a t ⟨hk, hd, hb⟩ ha
    have ht := hd.assign hk ha
    exact ⟨hk.assign ha, ht.distinct (by rwa [List.append_nil]), hb.trans ht⟩
  exact hinv.2.2

theorem balance_updated (hk : s.Keyed) (id : String) (update : WorkerUpdate) (now : Instant) :
    Balance s [] [] [] [] (s.updated id update now) := by
  have hid : ((s.worker id now).update update now).id = id := (hk.worker id now).1
  have hheld : (held (s.updated id update now).workers).Perm (held s.workers) := by
    rw [updated, put, hid]
    exact (held_insert _ _ _).trans (held_worker s id now).symm
  have hjobs : (s.updated id update now).unfinished.Perm s.unfinished :=
    (hheld.map Assignment.toJob).append_left s.pending.toList
  refine balance_of_perm hjobs rfl rfl rfl ?_
  rw [hheld.length_eq]
  rfl

theorem balance_withdrawn {id : String} {w : Worker} (hw : s.workers.get? id = some w) :
    Balance s [] [] [] w.assigned.values (s.withdrawn id w) := by
  have hheld := held_of_some hw
  have hjobs : (s.withdrawn id w).unfinished.Perm s.unfinished := by
    have hqueue := s.pending.toList_pushAll (w.assigned.values.map Assignment.toJob)
    have hmap := hheld.map Assignment.toJob
    refine List.perm_iff_count.mpr fun j => ?_
    have h1 := List.perm_iff_count.mp hqueue j
    have h2 := List.perm_iff_count.mp hmap j
    simp only [unfinished, withdrawn, List.map_append, List.count_append] at h1 h2 ⊢
    omega
  have hlen := hheld.length_eq
  rw [List.length_append] at hlen
  refine balance_of_perm hjobs rfl rfl rfl ?_
  change s.distributed + (held s.workers).length =
    s.distributed + (held (s.workers.erase id)).length + w.assigned.values.length
  omega

theorem balance_queued {j : Job} (hj : j.seq = s.nextSeq) :
    Balance s [j] [] [] [] (s.queued j) := by
  have hjobs : (s.queued j).unfinished.Perm (s.unfinished ++ [j]) :=
    (s.unfinished_queued j).trans (List.perm_append_singleton j s.unfinished).symm
  exact ⟨by simpa using hjobs, by simp [hj], rfl, rfl, rfl, rfl⟩

theorem balance_released (hk : s.Keyed) {id taskId : String} {w : Worker} {a : Assignment}
    (h : s.held? id taskId = some (w, a)) (success : Bool) (now : Instant) :
    Balance s [] (if success = true then [a] else []) (if success = false then [a] else []) []
      (s.released taskId w a success now) := by
  obtain ⟨hw, ha⟩ := held?_eq_some.mp h
  obtain ⟨rfl, -⟩ := hk id w hw
  let v : Worker := { w with assigned := w.assigned.erase taskId }
  have hheld : (held s.workers).Perm (a :: held (s.workers.insert w.id v)) :=
    (held_of_some hw).trans
      (((Dict.values_erase ha).append_right _).trans ((held_insert _ _ v).symm.cons a))
  have hjobs : (s.pending.toList ++
      (held (s.workers.insert w.id v)).map Assignment.toJob ++ [a.toJob]).Perm s.unfinished := by
    refine (List.perm_append_singleton _ _).trans (List.perm_middle.symm.trans ?_)
    exact (hheld.map Assignment.toJob).symm.append_left s.pending.toList
  have hlen : s.distributed + (held s.workers).length =
      s.distributed + (held (s.workers.insert w.id v)).length + 1 := by
    rw [hheld.length_eq, List.length_cons]
    rfl
  have hnone := List.append_nil s.unfinished
  cases success
  · exact ⟨hnone.symm ▸ hjobs, rfl, rfl, rfl, rfl, hlen⟩
  · exact ⟨hnone.symm ▸ hjobs, rfl, rfl, rfl, rfl, hlen⟩

theorem balance_prepared (hk : s.Keyed) {op : Op} (hp : s.prepared? op = some p) :
    Balance s (s.submitted op) (s.ended true op) (s.ended false op) (s.requeued op) p := by
  cases op with
  | register id capacity priority now | heartbeat id update now =>
    cases hp
    exact balance_updated hk id _ now
  | unregister id now =>
    obtain ⟨w, hw, rfl⟩ := Option.map_eq_some_iff.mp hp
    rw [requeued_unregister, hw]
    exact balance_withdrawn hw
  | submit taskId payload priority metadata now =>
    cases hp
    exact balance_queued rfl
  | complete id taskId success now =>
    rw [ended_complete, ended_complete]
    obtain ⟨hh, rfl⟩ | ⟨w, a, hh, rfl⟩ := prepared?_complete hp
    · simp only [hh, Option.map_none, Option.toList_none, ite_self]
      exact Balance.refl p
    · rw [hh]
      exact balance_released hk hh success now
  | status => cases hp

theorem Unused.nodup {op : Op} (hu : s.Unused op) (hd : s.Distinct) :
    ((s.unfinished ++ s.submitted op).map Job.taskId).Nodup := by
  cases op with
  | submit taskId payload priority metadata now =>
    have hnew : taskId ∉ s.unfinished.map Job.taskId := hu _ List.mem_cons_self
    rw [List.map_append]
    exact (List.perm_append_singleton taskId _).nodup_iff.mpr (List.nodup_cons.mpr ⟨hnew, hd⟩)
  | register | heartbeat | unregister | complete | status =>
    simpa only [submitted, List.append_nil, Distinct] using hd

theorem balance_apply (hk : s.Keyed) (hd : s.Distinct) {op : Op} (hu : s.Unused op) :
    Balance s (s.submitted op) (s.ended true op) (s.ended false op) (s.requeued op)
      (s.apply op) := by
  rw [apply_eq]
  cases hp : s.prepared? op with
  | none =>
    cases op with
    | unregister id now =>
      rw [requeued_unregister, Option.map_eq_none_iff.mp hp]
      exact Balance.refl s
    | status => exact Balance.refl s
    | register | heartbeat | submit | complete => cases hp
  | some p =>
    have hb := balance_prepared hk hp
    have hsweep := (hb.distinct (hu.nodup hd)).sweep (hk.prepared hp) op.now
    simpa only [List.append_nil, Option.elim_some] using hb.trans hsweep

theorem balance_run (hk : s.Keyed) (hd : s.Distinct) {ops : List Op}
    (hu : Throughout Unused s ops) :
    Balance s (gather submitted s ops) (gather (ended true) s ops) (gather (ended false) s ops)
      (gather requeued s ops) (s.run ops) := by
  induction ops generalizing s with
  | nil => exact Balance.refl s
  | cons op rest ih =>
    have hb := balance_apply hk hd hu.1
    exact hb.trans (ih (hk.apply op) (hb.distinct (hu.1.nodup hd)) hu.2)

/-- If no job is submitted under the identifier of one that waits or is held, the jobs submitted,
numbered from zero on, are those that wait, those that one worker holds and those that have ended,
each of them in one place and once; and the scheduler counts them so. -/
theorem no_job_lost (ops : List Op) (hu : Throughout Unused empty ops) :
    let s := empty.run ops
    let jobs := gather submitted empty ops
    let done := gather (ended true) empty ops
    let lost := gather (ended false) empty ops
    let holds := (s.workers.values.map fun w => w.assigned.size).sum
    (s.pending.toList ++ (held s.workers).map Assignment.toJob ++
      (done ++ lost).map Assignment.toJob).Perm jobs ∧
    jobs.map Job.seq = List.range s.nextSeq ∧
    s.completed = done.length ∧ s.failed = lost.length ∧
    s.nextSeq = s.pending.size + holds + s.completed + s.failed ∧
    s.distributed = holds + s.completed + s.failed + (gather requeued empty ops).length := by
  intro s jobs done lost holds
  have hb : Balance empty jobs done lost (gather requeued empty ops) s :=
    balance_run keyed_empty List.nodup_nil hu
  have hholds : (held s.workers).length = holds := length_held s.workers
  have hseq : s.nextSeq = jobs.length := hb.nextSeq.trans (Nat.zero_add _)
  have hcompleted : s.completed = done.length := hb.completed.trans (Nat.zero_add _)
  have hfailed : s.failed = lost.length := hb.failed.trans (Nat.zero_add _)
  refine ⟨hb.unfinished, ?_, hcompleted, hfailed, ?_, ?_⟩
  · rw [hb.numbers, hseq, List.range_eq_range']
    rfl
  · have hlen : (s.unfinished ++ (done ++ lost).map Assignment.toJob).length = jobs.length :=
      hb.unfinished.length_eq
    simp only [unfinished, List.length_append, List.length_map, JobQueue.toList] at hlen
    rw [JobQueue.size]
    omega
  · have hd := hb.distributed
    change s.distributed + 0 = 0 + _ + _ + _ + _ at hd
    omega

/-- A worker that leaves has its two jobs waiting again, and one of them fails at the next worker. -/
theorem no_job_lost_requeued :
    let now := Instant.ofNanos 0
    let submit (taskId : String) : Op := .submit taskId Dict.empty 0 Dict.empty now
    let ops : List Op :=
      [.register "a" 2 0 now, submit "t", submit "u", submit "v", .complete "a" "t" true now,
       .unregister "a" now, .register "b" 1 0 now, .complete "b" "u" false now, submit "u"]
    let s := empty.run ops
    Throughout Unused empty ops ∧
      (s.pending.toList.map Job.seq, (held s.workers).map Assignment.seq,
        (gather (ended true) empty ops).map Assignment.seq,
        (gather (ended false) empty ops).map Assignment.seq) = ([3], [2], [0], [1]) ∧
      s.nextSeq = s.pending.size + (s.workers.values.map fun w => w.assigned.size).sum +
        s.completed + s.failed ∧
      (gather requeued empty ops).length = 2 ∧
      s.distributed = (s.workers.values.map fun w => w.assigned.size).sum + s.completed +
        s.failed + (gather requeued empty ops).length := by
  intro now submit ops s
  have hu : Throughout Unused empty ops := by decide
  have hplaces : (s.pending.toList.map Job.seq, (held s.workers).map Assignment.seq,
      (gather (ended true) empty ops).map Assignment.seq,
      (gather (ended false) empty ops).map Assignment.seq) = ([3], [2], [0], [1]) := by decide
  obtain ⟨-, -, -, -, hseq, hdistributed⟩ := no_job_lost ops hu
  exact ⟨hu, hplaces, hseq, by decide, hdistributed⟩

end Scheduler

end AgentMesh
