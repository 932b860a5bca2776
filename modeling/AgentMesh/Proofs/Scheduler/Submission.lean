import AgentMesh.Proofs.Scheduler.Capacity
import AgentMesh.Proofs.Scheduler.Conservation

/-!
What a submission costs. Jobs wait only while no worker has room, so the sweep of a submission hands out
the new job or none; and what waits or is held stays, but for what the new job takes the place of: a job
that its worker holds under the same identifier (`Scheduler.submit_keeps_others`). That one is lost
(`Scheduler.submit_loses`).
-/

namespace AgentMesh.Scheduler

variable {s : Scheduler} {now : Instant}

theorem sweep_queued (h : s.Exhausted) (j : Job) (now : Instant) :
    (s.queued j).sweep now = (s.queued j, []) ∨
      ∃ a t, (s.queued j).assign? now = some (a, t) ∧ a.toJob = j ∧ t.pending.jobs = [] ∧
        (s.queued j).sweep now = (t, [a]) := by
  cases hs : (s.queued j).assign? now with
  | none => exact Or.inl (sweep_of_none hs)
  | some x =>
    obtain ⟨a, t⟩ := x
    have hempty : s.pending.jobs = [] := by
      rcases h with hempty | hfull
      · exact hempty
      · have hnone : (s.queued j).assign? now = none := assign?_eq_none_iff.mpr (Or.inr hfull)
        rw [hnone] at hs
        cases hs
    have hone : (s.queued j).pending.jobs = [j] := by
      simp only [queued, JobQueue.push, hempty, insertSorted]
    have hnone : t.pending.jobs = [] := by
      have hsize := assign?_size hs
      rw [JobQueue.size, JobQueue.size, hone] at hsize
      exact List.length_eq_zero_iff.mp (by simpa using hsize)
    obtain ⟨j', rest, w, hj, -, ha, -⟩ := assign?_eq_some hs
    rw [hone] at hj
    obtain ⟨rfl, -⟩ := List.cons.inj hj
    refine Or.inr ⟨a, t, rfl, ha ▸ rfl, hnone, ?_⟩
    rw [sweep_of_some hs, sweep_of_none (assign?_eq_none_iff.mpr (Or.inl hnone))]

/-- What a submission loses: what the worker that is handed the new job holds under its identifier. -/
def displaced (s : Scheduler) (taskId : String) (made : Option Assignment) : Option Assignment :=
  made.bind fun a => (s.held? a.worker taskId).map (·.2)

theorem submit_exhausted (hk : s.Keyed) (h : s.Exhausted) (taskId : String) (payload : Fields)
    (priority : Int) (metadata : Fields) (now : Instant) :
    let job := s.job taskId payload priority metadata now
    let told := s.submit taskId payload priority metadata now
    (∀ a, told.2 = some a → a.toJob = job) ∧
    (told.1.unfinished ++ ((s.displaced taskId told.2).map Assignment.toJob).toList).Perm
      (job :: s.unfinished) := by
  intro job told
  have htold : told = (((s.queued job).sweep now).1,
      assignmentOf? taskId ((s.queued job).sweep now).2) := rfl
  have hqueued : (s.queued job).Keyed := hk
  rcases sweep_queued h job now with hs | ⟨a, t, hassign, hjob, -, hs⟩
  · rw [htold, hs]
    refine ⟨fun a ha => absurd ha (Option.some_ne_none a).symm, ?_⟩
    change ((s.queued job).unfinished ++ []).Perm _
    rw [List.append_nil]
    exact s.unfinished_queued job
  · have hid : a.taskId = taskId := congrArg Job.taskId hjob
    have hmade : assignmentOf? taskId [a] = some a := by simp [assignmentOf?, hid]
    have hlost : (s.queued job).replaced a = (s.displaced taskId (some a)).toList := by
      rw [← hid]
      rfl
    have hjobs := unfinished_assign hqueued hassign
    rw [hlost, ← Option.toList_map] at hjobs
    rw [htold, hs, hmade]
    refine ⟨fun b hb => ?_, hjobs.trans (s.unfinished_queued job)⟩
    exact Option.some.inj hb ▸ hjob

/-- Whatever is submitted along any operations, under whatever identifier: the new job and all that
waited or was held before are what waits or is held afterwards, with the one job that is lost if the
worker that is handed the new one holds a job under the same identifier. So nothing is lost just if it
holds none. -/
theorem submit_keeps_others (ops : List Op) (taskId : String) (payload : Fields) (priority : Int)
    (metadata : Fields) (now : Instant) :
    let s := empty.run ops
    let job := s.job taskId payload priority metadata now
    let told := s.submit taskId payload priority metadata now
    let lost := s.displaced taskId told.2
    (∀ a, told.2 = some a → a.toJob = job) ∧
    (told.1.unfinished ++ (lost.map Assignment.toJob).toList).Perm (job :: s.unfinished) ∧
    ((∀ j ∈ s.unfinished, j ∈ told.1.unfinished) ∧
        told.1.unfinished.length = s.unfinished.length + 1 ↔ lost = none) := by
  intro s job told lost
  have hrest : s.Exhausted := exhausted_run ops
  obtain ⟨hnew, hjobs⟩ : (∀ a, told.2 = some a → a.toJob = job) ∧
      (told.1.unfinished ++ (lost.map Assignment.toJob).toList).Perm (job :: s.unfinished) :=
    submit_exhausted (keyed_run ops) hrest taskId payload priority metadata now
  refine ⟨hnew, hjobs, fun hkept => ?_, fun hnone => ?_⟩
  · have hlen : told.1.unfinished.length + (lost.map Assignment.toJob).toList.length =
        s.unfinished.length + 1 := by
      rw [← List.length_append, hjobs.length_eq, List.length_cons]
    have hempty : (lost.map Assignment.toJob).toList = [] := by
      rw [hkept.2] at hlen
      exact List.length_eq_zero_iff.mp (by omega)
    rwa [Option.toList_eq_nil_iff, Option.map_eq_none_iff] at hempty
  · have hall : told.1.unfinished.Perm (job :: s.unfinished) := by
      rwa [hnone, Option.map_none, Option.toList_none, List.append_nil] at hjobs
    exact ⟨fun j hj => hall.mem_iff.mpr (List.mem_cons_of_mem job hj), hall.length_eq⟩

theorem submit_keeps_others_apart :
    let now := Instant.ofNanos 0
    let ops : List Op :=
      [.register "a" 1 0 now, .submit "t" (Dict.ofList [("n", .int 1)]) 0 Dict.empty now,
       .register "b" 1 0 now]
    let s := empty.run ops
    let told := s.submit "t" (Dict.ofList [("n", .int 2)]) 0 Dict.empty now
    told.2.map Assignment.worker = some "b" ∧ s.displaced "t" told.2 = none ∧
      (∀ j ∈ s.unfinished, j ∈ told.1.unfinished) ∧
      told.1.unfinished.length = s.unfinished.length + 1 := by
  intro now ops s told
  have hnone : s.displaced "t" told.2 = none := by decide
  obtain ⟨-, -, hkept⟩ :=
    submit_keeps_others ops "t" (Dict.ofList [("n", .int 2)]) 0 Dict.empty now
  exact ⟨by decide, hnone, hkept.mpr hnone⟩

/-- A worker with room for two is handed a second job under the identifier of the first, which is then
neither waiting nor held. -/
theorem submit_loses :
    let now := Instant.ofNanos 0
    let s := empty.run
      [.register "a" 2 0 now, .submit "t" (Dict.ofList [("n", .int 1)]) 0 Dict.empty now]
    let after := (s.submit "t" (Dict.ofList [("n", .int 2)]) 0 Dict.empty now).1
    ¬((∀ j ∈ s.unfinished, j ∈ after.unfinished) ∧
        after.unfinished.length = s.unfinished.length + 1) ∧
      s.unfinished.map Job.seq = [0] ∧ after.unfinished.map Job.seq = [1] := by
  decide

end AgentMesh.Scheduler
