import AgentMesh.Proofs.Scheduler.Identity
import AgentMesh.Proofs.Scheduler.Submission
import AgentMesh.Proofs.Scheduler.Tenure

/-!
Where a submission goes. What is told of it is the place of the very job that was submitted, under
whatever identifier: with the worker that holds it, or in the queue, and then nothing was handed out
(`Scheduler.submission_told`).
-/

namespace AgentMesh.Scheduler

variable {s : Scheduler} {jobs : List Job} {id taskId : String} {w : Worker} {a : Assignment}

theorem Traced.seq_lt_of_held (h : s.Traced jobs) (hw : s.workers.get? id = some w)
    (ha : w.assigned.get? taskId = some a) : a.seq < s.nextSeq := by
  have hmem : a.toJob ∈ s.unfinished :=
    List.mem_append_right _ (List.mem_map_of_mem (mem_held hw ha))
  exact (h.getElem? hmem).1

theorem held_after_assign {t : Scheduler} {j : Job} {now : Instant} (hk : s.Keyed)
    (h : s.Traced jobs) (hj : j.seq = s.nextSeq) (hs : (s.queued j).assign? now = some (a, t))
    (ha : a.toJob = j) (b : Assignment) :
    a = b ↔ b.seq = s.nextSeq ∧
      ∃ w, t.workers.get? b.worker = some w ∧ w.assigned.get? j.taskId = some b := by
  have hqueued : (s.queued j).Keyed := hk
  obtain ⟨w, hw, -, ht⟩ := assign?_workers hqueued hs
  have hid : a.taskId = j.taskId := congrArg Job.taskId ha
  have hseq : a.seq = s.nextSeq := (congrArg Job.seq ha).trans hj
  have hheld : (w.take a).assigned.get? j.taskId = some a := by
    rw [← hid]
    exact Dict.get?_insert_self w.assigned a.taskId a
  constructor
  · rintro rfl
    refine ⟨hseq, w.take a, ?_, hheld⟩
    rw [ht, Dict.get?_insert_self]
  · rintro ⟨hb, v, hv, hvb⟩
    rw [ht, Dict.get?_insert] at hv
    split at hv
    · rw [← Option.some.inj hv, hheld] at hvb
      exact Option.some.inj hvb
    · exact absurd hb (h.seq_lt_of_held hv hvb).ne

/-- Whatever is submitted along any operations, under whatever identifier: no more than one assignment is
made, and if so that of the new job, which is then told. An assignment is told just if the worker named in
it holds it afterwards under the identifier of the task and with the number of this submission. None is
told just if the submission waits; then all workers are as before and nothing has been handed out. -/
theorem submission_told (ops : List Op) (taskId : String) (payload : Fields) (priority : Int)
    (metadata : Fields) (now : Instant) :
    let s := empty.run ops
    let told := s.submit taskId payload priority metadata now
    let made := s.made (.submit taskId payload priority metadata now)
    made = told.2.toList ∧ told.1.distributed = s.distributed + made.length ∧
    (∀ a ∈ made, a.toJob = s.job taskId payload priority metadata now) ∧
    (∀ a, told.2 = some a ↔ a.seq = s.nextSeq ∧
      ∃ w, told.1.workers.get? a.worker = some w ∧ w.assigned.get? taskId = some a) ∧
    (told.2 = none ↔ ∃ j ∈ told.1.pending.toList, j.seq = s.nextSeq) ∧
    (told.2 = none → told.1.workers = s.workers ∧ told.1.distributed = s.distributed) := by
  intro s told made
  let job := s.job taskId payload priority metadata now
  have hk : s.Keyed := keyed_run ops
  have htraced : s.Traced (gather submitted empty ops) := traced_run ops
  have htold : told = (((s.queued job).sweep now).1,
      assignmentOf? taskId ((s.queued job).sweep now).2) := rfl
  have hmade : made = ((s.queued job).sweep now).2 := rfl
  rcases sweep_queued (exhausted_run ops) job now with hs | ⟨a, t, hassign, hjob, hempty, hs⟩
  · rw [htold, hmade, hs]
    have hwaits : job ∈ (s.queued job).pending.toList :=
      (s.pending.toList_push job).mem_iff.mpr List.mem_cons_self
    refine ⟨rfl, rfl, fun a ha => absurd ha List.not_mem_nil, fun a => ⟨fun ha => ?_, ?_⟩,
      ⟨fun _ => ⟨job, hwaits, rfl⟩, fun _ => rfl⟩, fun _ => ⟨rfl, rfl⟩⟩
    · cases ha
    · rintro ⟨hseq, w, hw, ha⟩
      exact absurd hseq (htraced.seq_lt_of_held hw ha).ne
  · have hid : a.taskId = taskId := congrArg Job.taskId hjob
    have hone : assignmentOf? taskId [a] = some a := by simp [assignmentOf?, hid]
    have hdistributed : t.distributed = s.distributed + 1 := by
      obtain ⟨j, rest, w, -, -, -, rfl⟩ := assign?_eq_some hassign
      rfl
    rw [htold, hmade, hs, hone]
    refine ⟨rfl, hdistributed, fun b hb => ?_, fun b => ?_, ⟨fun hnone => ?_, ?_⟩, fun hnone => ?_⟩
    · rw [List.mem_singleton.mp hb]
      exact hjob
    · rw [Option.some.injEq]
      exact held_after_assign hk htraced rfl hassign hjob b
    · cases hnone
    · rintro ⟨j, hj, -⟩
      rw [JobQueue.toList, hempty] at hj
      cases hj
    · cases hnone

/-- A job is submitted under the identifier of one that waits, while no worker has room, and then of one
that is held, once there is room again. -/
theorem submission_told_reused :
    let now := Instant.ofNanos 0
    let submit (taskId : String) : Op := .submit taskId Dict.empty 0 Dict.empty now
    let ops : List Op := [.register "a" 1 0 now, submit "t", submit "u"]
    let more : List Op := ops ++ [submit "u", .register "b" 4 0 now]
    let s := empty.run ops
    let told := s.submit "u" Dict.empty 0 Dict.empty now
    let told' := (empty.run more).submit "t" Dict.empty 0 Dict.empty now
    told.2 = none ∧ told.1.workers = s.workers ∧ told.1.distributed = s.distributed ∧
      (∃ j ∈ told.1.pending.toList, j.seq = s.nextSeq) ∧
      ∃ a, told'.2 = some a ∧ a.worker = "b" ∧ a.seq = 3 ∧
        ∃ w, told'.1.workers.get? a.worker = some w ∧ w.assigned.get? "t" = some a := by
  intro now submit ops more s told told'
  have hs : empty.run ops = s := rfl
  have htold : s.submit "u" Dict.empty 0 Dict.empty now = told := rfl
  have htold' : (empty.run more).submit "t" Dict.empty 0 Dict.empty now = told' := rfl
  obtain ⟨-, -, -, -, hwaits, hsame⟩ := submission_told ops "u" Dict.empty 0 Dict.empty now
  obtain ⟨-, -, -, hheld, -, -⟩ := submission_told more "t" Dict.empty 0 Dict.empty now
  rw [hs, htold] at hwaits hsame
  rw [htold'] at hheld
  have hnone : told.2 = none := by decide
  have hb : told'.2.map Assignment.worker = some "b" := by decide
  have hnumber : (empty.run more).nextSeq = 3 := by decide
  obtain ⟨a, ha, hworker⟩ := Option.map_eq_some_iff.mp hb
  obtain ⟨hseq, hplace⟩ := (hheld a).mp ha
  exact ⟨hnone, (hsame hnone).1, (hsame hnone).2, hwaits.mp hnone, a, ha, hworker,
    hseq.trans hnumber, hplace⟩

end AgentMesh.Scheduler
