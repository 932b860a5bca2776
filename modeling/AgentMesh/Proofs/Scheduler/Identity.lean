import AgentMesh.Proofs.Scheduler.Conservation

/-!
Who is who. Whatever identifiers are given, the jobs that wait or are held are among those submitted,
each of them once and just as it was submitted, under the number that it got then
(`Scheduler.identity_kept`). An identifier that is used again may cost the older job its place, but
never makes two jobs of one or one of two.
-/

namespace AgentMesh.Scheduler

/-- The jobs that wait or are held are among some others, which are numbered in turn. -/
structure Traced (s : Scheduler) (jobs : List Job) : Prop where
  subperm : s.unfinished.Subperm jobs
  numbers : jobs.map Job.seq = List.range s.nextSeq

variable {s t p : Scheduler} {jobs : List Job} {op : Op} {now : Instant}

theorem traced_empty : empty.Traced [] := ⟨List.Subperm.refl [], rfl⟩

theorem Traced.prepared (h : s.Traced jobs) (hk : s.Keyed) (hp : s.prepared? op = some p) :
    p.Traced (jobs ++ s.submitted op) := by
  have hb := balance_prepared hk hp
  have hnew : (s.unfinished ++ s.submitted op).Subperm (jobs ++ s.submitted op) :=
    (List.subperm_append_right _).mpr h.subperm
  refine ⟨?_, ?_⟩
  · exact (List.sublist_append_left _ _).subperm.trans (hb.unfinished.subperm.trans hnew)
  · rw [List.map_append, h.numbers, hb.numbers, hb.nextSeq, List.range_eq_range',
      List.range_eq_range', ← List.range'_append_1, Nat.zero_add]

theorem Traced.assign (h : s.Traced jobs) (hk : s.Keyed) {a : Assignment}
    (ha : s.assign? now = some (a, t)) : t.Traced jobs := by
  have hjobs := unfinished_assign hk ha
  obtain ⟨j, rest, w, -, -, rfl, rfl⟩ := assign?_eq_some ha
  exact ⟨(List.sublist_append_left _ _).subperm.trans (hjobs.subperm.trans h.subperm), h.numbers⟩

theorem Traced.stage (h : p.Traced jobs) (hk : p.Keyed) (now : Instant) (k : Nat) :
    (p.stage now k).Traced jobs := by
  have hstage : (p.stage now k).Keyed ∧ (p.stage now k).Traced jobs :=
    stage_invariant (P := fun s => s.Keyed ∧ s.Traced jobs)
      (fun _ _ _ h ha => ⟨h.1.assign ha, h.2.assign h.1 ha⟩) ⟨hk, h⟩ k
  exact hstage.2

theorem submitted_of_unprepared (hp : s.prepared? op = none) : s.submitted op = [] := by
  cases op with
  | submit => cases hp
  | register | heartbeat | unregister | complete | status => rfl

theorem Traced.apply (h : s.Traced jobs) (hk : s.Keyed) (op : Op) :
    (s.apply op).Traced (jobs ++ s.submitted op) := by
  rw [apply_eq]
  cases hp : s.prepared? op with
  | none =>
    rw [submitted_of_unprepared hp, List.append_nil]
    exact h
  | some p =>
    have hsweep : (p.sweep op.now).1.Keyed ∧ (p.sweep op.now).1.Traced (jobs ++ s.submitted op) :=
      sweep_invariant (P := fun s' => s'.Keyed ∧ s'.Traced (jobs ++ s.submitted op))
        (fun _ _ _ h ha => ⟨h.1.assign ha, h.2.assign h.1 ha⟩)
        ⟨hk.prepared hp, h.prepared hk hp⟩
    exact hsweep.2

theorem Traced.run (h : s.Traced jobs) (hk : s.Keyed) (ops : List Op) :
    (s.run ops).Traced (jobs ++ gather submitted s ops) := by
  induction ops generalizing s jobs with
  | nil => exact (List.append_nil jobs).symm ▸ h
  | cons op rest ih =>
    have hrest := ih (h.apply hk op) (hk.apply op)
    rw [List.append_assoc] at hrest
    exact hrest

theorem traced_run (ops : List Op) : (empty.run ops).Traced (gather submitted empty ops) :=
  traced_empty.run keyed_empty ops

theorem Traced.seq_eq (h : s.Traced jobs) {i : Nat} {j : Job} (hj : jobs[i]? = some j) :
    j.seq = i ∧ i < s.nextSeq := by
  have hnumber : (List.range s.nextSeq)[i]? = some j.seq := by
    rw [← h.numbers, List.getElem?_map, hj, Option.map_some]
  obtain ⟨hlt, he⟩ := List.getElem?_eq_some_iff.mp hnumber
  rw [List.getElem_range] at he
  rw [List.length_range] at hlt
  exact ⟨he.symm, hlt⟩

theorem Traced.getElem? (h : s.Traced jobs) {j : Job} (hj : j ∈ s.unfinished) :
    j.seq < s.nextSeq ∧ jobs[j.seq]? = some j := by
  obtain ⟨i, hi⟩ := List.mem_iff_getElem?.mp (h.subperm.subset hj)
  obtain ⟨rfl, hlt⟩ := h.seq_eq hi
  exact ⟨hlt, hi⟩

theorem Traced.nodup (h : s.Traced jobs) : (s.unfinished.map Job.seq).Nodup := by
  obtain ⟨l, hp, hl⟩ := h.subperm
  have hn : (jobs.map Job.seq).Nodup := h.numbers ▸ List.nodup_range
  exact (hp.map Job.seq).nodup_iff.mp (hn.sublist (hl.map Job.seq))

theorem Traced.nodup_pending (h : s.Traced jobs) : (s.pending.toList.map Job.seq).Nodup := by
  have hn := h.nodup
  rw [unfinished, List.map_append] at hn
  exact hn.of_append_left

theorem Traced.nodup_held (h : s.Traced jobs) : ((held s.workers).map Assignment.seq).Nodup := by
  have hn := h.nodup
  rw [unfinished, List.map_append, List.map_map] at hn
  exact hn.of_append_right

/-- Along any operations the jobs are numbered in the order of their submission; those that wait and
those that are held have different numbers, and each is what was submitted under its number, however
often it was handed out and waited again. What a worker holds stands under the identifier of the task
and is assigned to that worker. -/
theorem identity_kept (ops : List Op) :
    let s := empty.run ops
    let jobs := gather submitted empty ops
    jobs.map Job.seq = List.range s.nextSeq ∧
    (s.pending.toList.map Job.seq ++ (held s.workers).map Assignment.seq).Nodup ∧
    (∀ j ∈ s.pending.toList, j.seq < s.nextSeq ∧ jobs[j.seq]? = some j) ∧
    ∀ id w, s.workers.get? id = some w → w.id = id ∧
      ∀ taskId a, w.assigned.get? taskId = some a →
        a.seq < s.nextSeq ∧
        jobs[a.seq]? = some { priority := a.priority, createdAt := a.createdAt, seq := a.seq,
                              taskId := a.taskId, payload := a.payload, metadata := a.metadata } ∧
        a.taskId = taskId ∧ a.worker = id := by
  intro s jobs
  have h : s.Traced jobs := traced_run ops
  have hk : s.Keyed := keyed_run ops
  refine ⟨h.numbers, ?_, fun j hj => h.getElem? (List.mem_append_left _ hj), fun id w hw => ?_⟩
  · have hn := h.nodup
    rw [unfinished, List.map_append, List.map_map] at hn
    exact hn
  · obtain ⟨rfl, hfiled⟩ := hk id w hw
    refine ⟨rfl, fun taskId a ha => ?_⟩
    have hmem : a.toJob ∈ s.unfinished :=
      List.mem_append_right _ (List.mem_map_of_mem (mem_held hw ha))
    obtain ⟨hlt, hjob⟩ := h.getElem? hmem
    exact ⟨hlt, hjob, hfiled taskId a ha⟩

/-- Two jobs of one identifier are handed to two workers; when the first of these leaves, its job comes
to the other one in place of the job there, and is still the one that was submitted first. -/
theorem identity_kept_reused :
    let now := Instant.ofNanos 0
    let later := Instant.ofNanos 5
    let ops : List Op :=
      [.register "a" 1 0 now, .register "b" 2 0 now,
       .submit "t" (Dict.ofList [("n", .int 1)]) 3 Dict.empty now,
       .submit "t" (Dict.ofList [("n", .int 2)]) 4 Dict.empty later, .unregister "a" later,
       .submit "u" Dict.empty 0 Dict.empty now]
    let s := empty.run ops
    let jobs := gather submitted empty ops
    s.nextSeq = 3 ∧ (held s.workers).map Assignment.seq = [0, 2] ∧
      ∃ w, s.workers.get? "b" = some w ∧ ∃ a, w.assigned.get? "t" = some a ∧
        a.seq < s.nextSeq ∧
        jobs[a.seq]? = some { priority := a.priority, createdAt := a.createdAt, seq := a.seq,
                              taskId := a.taskId, payload := a.payload, metadata := a.metadata } ∧
        a.taskId = "t" ∧ a.worker = "b" := by
  intro now later ops s jobs
  obtain ⟨-, -, -, hheld⟩ := identity_kept ops
  have hsome : ((s.held? "b" "t").map fun x => x.2.seq) = some 0 := by decide
  obtain ⟨x, hx, -⟩ := Option.map_eq_some_iff.mp hsome
  obtain ⟨hw, ha⟩ := held?_eq_some.mp hx
  exact ⟨by decide, by decide, x.1, hw, x.2, ha, (hheld "b" x.1 hw).2 "t" x.2 ha⟩

end AgentMesh.Scheduler
