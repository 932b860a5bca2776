import AgentMesh.Proofs.Scheduler.Latency

/-!
The order of times. As long as the clock never goes back, every job was submitted before it was handed out,
and that no later than the last sign of life of its worker (`Scheduler.Ticked.timely`), although each
assignment of a sweep may read the clock anew. Which instants the clock can show is left open: it shows no
leap second, but only the exact spans depend on that. They are never negative, whatever the clock does
(`Scheduler.times_ordered`).
-/

namespace AgentMesh

/-- The times of a worker and of what it holds are in order, up to a reading of the clock, and readings of
the clock themselves. -/
structure Worker.Timely (clock : Instant → Prop) (w : Worker) (now : Instant) : Prop where
  heartbeat : w.lastHeartbeat ≤ now
  held : ∀ t a, w.assigned.get? t = some a → a.createdAt ≤ a.assignedAt ∧ a.assignedAt ≤ w.lastHeartbeat
  readings : ∀ t a, w.assigned.get? t = some a → clock a.createdAt ∧ clock a.assignedAt

namespace Worker

variable {clock : Instant → Prop} {w : Worker} {now later : Instant}

theorem timely_fresh (id : String) (now : Instant) : (fresh id now).Timely clock now :=
  ⟨le_refl _, fun t a ha => by simp [fresh] at ha, fun t a ha => by simp [fresh] at ha⟩

theorem Timely.mono (h : w.Timely clock now) (hle : now ≤ later) : w.Timely clock later :=
  ⟨h.heartbeat.trans hle, h.held, h.readings⟩

theorem Timely.update (h : w.Timely clock now) (u : WorkerUpdate) : (w.update u now).Timely clock now :=
  ⟨le_refl _, fun t a ha => ⟨(h.held t a ha).1, (h.held t a ha).2.trans h.heartbeat⟩, h.readings⟩

theorem Timely.erase (h : w.Timely clock now) (taskId : String) :
    Timely clock { w with assigned := w.assigned.erase taskId } now := by
  have hold : ∀ t a, (w.assigned.erase taskId).get? t = some a → w.assigned.get? t = some a := by
    intro t a ha
    rw [Dict.get?_erase] at ha
    split at ha
    · cases ha
    · exact ha
  exact ⟨h.heartbeat, fun t a ha => h.held t a (hold t a ha), fun t a ha => h.readings t a (hold t a ha)⟩

theorem Timely.take (h : w.Timely clock now) {j : Job} (hj : j.createdAt ≤ now ∧ clock j.createdAt)
    (hnow : clock now) (id : String) : (w.take (Assignment.ofJob j id now)).Timely clock now := by
  have hnew : ∀ t a, (w.take (Assignment.ofJob j id now)).assigned.get? t = some a →
      a = Assignment.ofJob j id now ∨ w.assigned.get? t = some a := by
    intro t a ha
    rw [Worker.take, Dict.get?_insert] at ha
    split at ha
    · exact Or.inl (Option.some.inj ha).symm
    · exact Or.inr ha
  refine ⟨le_refl _, fun t a ha => ?_, fun t a ha => ?_⟩
  · rcases hnew t a ha with rfl | hold
    · exact ⟨hj.1, le_refl _⟩
    · exact ⟨(h.held t a hold).1, (h.held t a hold).2.trans h.heartbeat⟩
  · rcases hnew t a ha with rfl | hold
    · exact ⟨hj.2, hnow⟩
    · exact h.readings t a hold

theorem Timely.createdAt_le (h : w.Timely clock now) {t : String} {a : Assignment}
    (ha : w.assigned.get? t = some a) : a.createdAt ≤ now :=
  (h.held t a ha).1.trans ((h.held t a ha).2.trans h.heartbeat)

end Worker

namespace Scheduler

/-- The times of a scheduler are in order, up to a reading of the clock, and readings of the clock
themselves. -/
structure Timely (clock : Instant → Prop) (s : Scheduler) (now : Instant) : Prop where
  shown : clock now
  waiting : ∀ j ∈ s.pending.toList, j.createdAt ≤ now ∧ clock j.createdAt
  workers : ∀ id w, s.workers.get? id = some w → w.Timely clock now

/-- What a scheduler may have come to at a reading of the clock, while that never goes back. Every operation
reads it, and so does every assignment. -/
inductive Ticked (clock : Instant → Prop) : Scheduler → Instant → Prop
  | start {now : Instant} (hnow : clock now) : Ticked clock empty now
  | wait {s : Scheduler} {now later : Instant} (h : Ticked clock s now) (hle : now ≤ later)
      (hlater : clock later) : Ticked clock s later
  | prepare {s p : Scheduler} {op : Op} (h : Ticked clock s op.now) (hp : s.prepared? op = some p) :
      Ticked clock p op.now
  | assign {s t : Scheduler} {now : Instant} {a : Assignment} (h : Ticked clock s now)
      (ha : s.assign? now = some (a, t)) : Ticked clock t now

variable {clock : Instant → Prop} {s p t : Scheduler} {now later : Instant} {op : Op} {ops : List Op}

theorem timely_empty (hnow : clock now) : empty.Timely clock now :=
  ⟨hnow, fun j hj => (List.not_mem_nil hj).elim, fun id w hw => by simp [empty] at hw⟩

theorem Timely.mono (h : s.Timely clock now) (hle : now ≤ later) (hlater : clock later) :
    s.Timely clock later :=
  ⟨hlater, fun j hj => ⟨(h.waiting j hj).1.trans hle, (h.waiting j hj).2⟩,
    fun id w hw => (h.workers id w hw).mono hle⟩

theorem Timely.worker (h : s.Timely clock now) (id : String) : (s.worker id now).Timely clock now := by
  rw [Scheduler.worker]
  cases hw : s.workers.get? id with
  | none => exact Worker.timely_fresh id now
  | some w => exact h.workers id w hw

theorem Timely.insert (h : s.Timely clock now) {w : Worker} (hw : w.Timely clock now) (id k : String)
    (v : Worker) (hv : (s.workers.insert id w).get? k = some v) : v.Timely clock now := by
  rw [Dict.get?_insert] at hv
  split at hv
  · exact Option.some.inj hv ▸ hw
  · exact h.workers k v hv

theorem Timely.prepared (h : s.Timely clock op.now) (hp : s.prepared? op = some p) :
    p.Timely clock op.now := by
  cases op with
  | register id capacity priority now | heartbeat id u now =>
    cases hp
    exact ⟨h.shown, h.waiting, h.insert ((h.worker id).update _) _⟩
  | unregister id now =>
    obtain ⟨w, hw, rfl⟩ := Option.map_eq_some_iff.mp hp
    refine ⟨h.shown, fun j hj => ?_, fun k v hv => ?_⟩
    · have hmem := (s.pending.toList_pushAll _).mem_iff.mp hj
      rcases List.mem_append.mp hmem with hback | hold
      · obtain ⟨a, ha, rfl⟩ := List.mem_map.mp hback
        obtain ⟨taskId, ha⟩ := Dict.mem_values.mp ha
        have hworker := h.workers id w hw
        exact ⟨hworker.createdAt_le ha, (hworker.readings taskId a ha).1⟩
      · exact h.waiting j hold
    · rw [withdrawn_get?] at hv
      split at hv
      · cases hv
      · exact h.workers k v hv
  | submit taskId payload priority metadata now =>
    cases hp
    refine ⟨h.shown, fun j hj => ?_, h.workers⟩
    rcases List.mem_cons.mp ((s.pending.toList_push _).mem_iff.mp hj) with rfl | hold
    · exact ⟨le_refl _, h.shown⟩
    · exact h.waiting j hold
  | complete id taskId success now =>
    obtain ⟨-, rfl⟩ | ⟨w, a, hh, rfl⟩ := prepared?_complete hp
    · exact h
    · have hw := h.workers id w (held?_eq_some.mp hh).1
      cases success
      · exact ⟨h.shown, h.waiting, h.insert (hw.erase taskId) _⟩
      · exact ⟨h.shown, h.waiting, h.insert (hw.erase taskId) _⟩
  | status => cases hp

theorem Timely.assign (h : s.Timely clock now) {a : Assignment} (ha : s.assign? now = some (a, t)) :
    t.Timely clock now := by
  obtain ⟨j, rest, w, hj, hw, rfl, rfl⟩ := assign?_eq_some ha
  have hmem : ∀ i ∈ j :: rest.jobs, i.createdAt ≤ now ∧ clock i.createdAt := by
    rw [← hj]
    exact h.waiting
  obtain ⟨id, hid⟩ := Dict.mem_values.mp (bestWorker?_spec hw).1
  have htake := (h.workers id w hid).take (hmem j List.mem_cons_self) h.shown w.id
  exact ⟨h.shown, fun i hi => hmem i (List.mem_cons_of_mem j hi), h.insert htake _⟩

theorem Ticked.timely (h : s.Ticked clock now) : s.Timely clock now := by
  induction h with
  | start hnow => exact timely_empty hnow
  | wait h hle hlater ih => exact ih.mono hle hlater
  | prepare h hp ih => exact ih.prepared hp
  | assign h ha ih => exact ih.assign ha

theorem Ticked.apply (h : s.Ticked clock op.now) : (s.apply op).Ticked clock op.now := by
  rw [apply_eq]
  cases hp : s.prepared? op with
  | none => exact h
  | some p =>
    exact sweep_invariant (P := fun s => s.Ticked clock op.now) (fun _ _ _ hs ha => hs.assign ha)
      (h.prepare hp)

theorem Ticked.run (h : s.Ticked clock now)
    (hclock : (now :: (ops.map Op.now ++ [later])).Pairwise (· ≤ ·))
    (hread : ∀ r ∈ ops.map Op.now ++ [later], clock r) : (s.run ops).Ticked clock later := by
  induction ops generalizing s now with
  | nil => exact h.wait (by simpa using hclock) (hread later List.mem_cons_self)
  | cons op rest ih =>
    obtain ⟨hfirst, hrest⟩ := List.pairwise_cons.mp hclock
    obtain ⟨hop, hread⟩ := List.forall_mem_cons.mp hread
    exact ih (h.wait (hfirst op.now List.mem_cons_self) hop).apply hrest hread

/-- Where each operation reads the clock once, that is enough as well. -/
theorem ticked_run (hclock : (ops.map Op.now ++ [now]).Pairwise (· ≤ ·))
    (hread : ∀ r ∈ ops.map Op.now ++ [now], clock r) : (empty.run ops).Ticked clock now := by
  cases ops with
  | nil => exact .start (hread now List.mem_cons_self)
  | cons op rest =>
    refine (Ticked.start (hread op.now List.mem_cons_self)).run
      (List.pairwise_cons.mpr ⟨fun later hlater => ?_, hclock⟩) hread
    rcases List.mem_cons.mp hlater with rfl | hrest
    · exact le_refl _
    · exact (List.pairwise_cons.mp hclock).1 later hrest

theorem exists_held_of_status {v : WorkerStatus} (hv : v ∈ (s.status now).workers) {x : HeldJob}
    (hx : x ∈ v.held) :
    ∃ id w taskId a, s.workers.get? id = some w ∧ w.assigned.get? taskId = some a ∧
      v = WorkerStatus.capture now w ∧ x = HeldJob.capture now a := by
  obtain ⟨w, hw, rfl⟩ := List.mem_map.mp hv
  obtain ⟨a, ha, rfl⟩ := List.mem_map.mp hx
  obtain ⟨id, hid⟩ := Dict.mem_values.mp ((sortBy_perm _ _).mem_iff.mp hw)
  obtain ⟨taskId, htask⟩ := Dict.mem_values.mp ((sortBy_perm _ _).mem_iff.mp ha)
  exact ⟨id, w, taskId, a, hid, htask, rfl, rfl⟩

/-- As long as the clock never goes back, also between the assignments of a sweep: what waits was submitted
by now; what a worker holds was submitted before it was handed out, and that not after the last sign of
life of the worker, which is not after now; and so, as the clock shows no leap second, the status tells the
time since a job was handed out, and the time since it was submitted, which is no shorter. Whatever the clock
does, the spans told and the latencies kept are what has passed, and zero where the clock went back. -/
theorem times_ordered (clock : Instant → Prop) (ops : List Op) (now : Instant) :
    let s := empty.run ops
    ((ops.map Op.now ++ [now]).Pairwise (· ≤ ·) → (∀ r ∈ ops.map Op.now ++ [now], clock r) →
      s.Ticked clock now) ∧
    (∀ t : Scheduler, t.Ticked clock now →
      (∀ j ∈ t.pending.toList, j.createdAt ≤ now) ∧
      (∀ id w taskId a, t.workers.get? id = some w → w.assigned.get? taskId = some a →
        a.createdAt ≤ a.assignedAt ∧ a.assignedAt ≤ w.lastHeartbeat ∧ w.lastHeartbeat ≤ now) ∧
      ((∀ r, clock r → r.leap = false) →
        ∀ v ∈ (t.status now).workers, ∀ x ∈ v.held, x.inProgressFor ≤ x.totalLatency ∧
          ∃ a ∈ held t.workers, x = HeldJob.capture now a ∧
            (x.inProgressFor : ℤ) = now.nanos - a.assignedAt.nanos ∧
            (x.totalLatency : ℤ) = now.nanos - a.createdAt.nanos)) ∧
    (∀ t : Scheduler, ∀ v ∈ (t.status now).workers, ∀ x ∈ v.held,
      ∃ a ∈ held t.workers, x = HeldJob.capture now a ∧
        (x.inProgressFor : ℤ) = max 0 (now.nanosSince a.assignedAt) ∧
        (x.totalLatency : ℤ) = max 0 (now.nanosSince a.createdAt)) ∧
    ∀ n ∈ s.latencies, ∃ x ∈ gather successes empty ops,
      (n : ℤ) = max 0 (x.2.nanosSince x.1.createdAt) := by
  intro s
  refine ⟨ticked_run, fun t ht => ?_, fun t v hv x hx => ?_, fun n hn => ?_⟩
  · obtain ⟨hnow, hwaiting, hworkers⟩ := ht.timely
    refine ⟨fun j hj => (hwaiting j hj).1, fun id w taskId a hw ha => ?_, fun hleap v hv x hx => ?_⟩
    · obtain ⟨hlast, hheld, -⟩ := hworkers id w hw
      exact ⟨(hheld taskId a ha).1, (hheld taskId a ha).2, hlast⟩
    · obtain ⟨id, w, taskId, a, hw, ha, -, rfl⟩ := exists_held_of_status hv hx
      obtain ⟨hlast, hheld, hreadings⟩ := hworkers id w hw
      obtain ⟨hsubmitted, hassigned⟩ := hheld taskId a ha
      have hcreated : a.createdAt.leap = false := hleap _ (hreadings taskId a ha).1
      have hhanded : a.assignedAt.leap = false := hleap _ (hreadings taskId a ha).2
      have hprogress : ((HeldJob.capture now a).inProgressFor : ℤ) = now.nanos - a.assignedAt.nanos :=
        Instant.elapsed_of_le hhanded (hleap now hnow) (hassigned.trans hlast)
      have htotal : ((HeldJob.capture now a).totalLatency : ℤ) = now.nanos - a.createdAt.nanos :=
        Instant.elapsed_of_le hcreated (hleap now hnow) ((hworkers id w hw).createdAt_le ha)
      refine ⟨?_, a, mem_held hw ha, rfl, hprogress, htotal⟩
      rw [Instant.le_iff_of_clock hcreated hhanded] at hsubmitted
      omega
  · obtain ⟨id, w, taskId, a, hw, ha, -, rfl⟩ := exists_held_of_status hv hx
    exact ⟨a, mem_held hw ha, rfl, Instant.elapsed_eq_max _ _, Instant.elapsed_eq_max _ _⟩
  · have hlatest : s.latencies = latest ((gather successes empty ops).map latency) := latencies_eq ops
    rw [hlatest] at hn
    obtain ⟨x, hx, rfl⟩ := List.mem_map.mp (List.mem_of_mem_drop hn)
    exact ⟨x, hx, Instant.elapsed_eq_max _ _⟩

/-- A job submitted at the time 10 is handed out, waits again when its worker leaves, and is handed to
another worker at 30, while one submitted at 35 waits. At 50 the job in hand is 40 old and in progress for
20; by a clock that has gone back to 25 it is not in progress yet. -/
theorem times_ordered_requeued :
    let at_ := Instant.ofNanos
    let submit (taskId : String) (time : Int) : Op :=
      .submit taskId Dict.empty 0 Dict.empty (at_ time)
    let ops : List Op :=
      [.register "a" 1 0 (at_ 5), submit "s" 6, .complete "a" "s" true (at_ 8), submit "t" 10,
       .register "b" 1 0 (at_ 20), .unregister "a" (at_ 30), submit "u" 35]
    let s := empty.run ops
    let clock (r : Instant) : Prop := r.leap = false
    (ops.map Op.now ++ [at_ 50]).Pairwise (· ≤ ·) ∧ s.Ticked clock (at_ 50) ∧
      (∃ j ∈ s.pending.toList, j.createdAt = at_ 35 ∧ j.createdAt ≤ at_ 50) ∧
      (∃ w a, s.workers.get? "b" = some w ∧ w.assigned.get? "t" = some a ∧
        a.createdAt = at_ 10 ∧ a.assignedAt = at_ 30 ∧ a.createdAt ≤ a.assignedAt ∧
        a.assignedAt ≤ w.lastHeartbeat ∧ w.lastHeartbeat ≤ at_ 50) ∧
      (∃ v ∈ (s.status (at_ 50)).workers, ∃ x ∈ v.held, x.inProgressFor = 20 ∧ x.totalLatency = 40 ∧
        ∃ a ∈ held s.workers, (x.inProgressFor : ℤ) = 50 - a.assignedAt.nanos) ∧
      (∃ v ∈ (s.status (at_ 25)).workers, ∃ x ∈ v.held, x.inProgressFor = 0 ∧ x.totalLatency = 15 ∧
        ∃ a ∈ held s.workers, (x.inProgressFor : ℤ) = max 0 ((at_ 25).nanosSince a.assignedAt)) ∧
      ∃ n ∈ s.latencies, n = 2 ∧ ∃ x ∈ gather successes empty ops,
        (n : ℤ) = max 0 (x.2.nanosSince x.1.createdAt) := by
  intro at_ submit ops s clock
  obtain ⟨hrun, hordered, -, hlatencies⟩ := times_ordered clock ops (at_ 50)
  obtain ⟨-, -, hback, -⟩ := times_ordered clock ops (at_ 25)
  have hclock : (ops.map Op.now ++ [at_ 50]).Pairwise (· ≤ ·) := by decide
  have hread : ∀ r ∈ ops.map Op.now ++ [at_ 50], clock r := by decide
  obtain ⟨hwaiting, hheld, hstatus⟩ := hordered s (hrun hclock hread)
  have hu : s.pending.toList[0]?.map Job.createdAt = some (at_ 35) := by decide
  have ht : (s.held? "b" "t").map (fun y => (y.2.createdAt, y.2.assignedAt)) =
      some (at_ 10, at_ 30) := by decide
  have hnow : ((s.status (at_ 50)).workers.flatMap WorkerStatus.held)[0]?.map
      (fun x => (x.inProgressFor, x.totalLatency)) = some (20, 40) := by decide
  have hbefore : ((s.status (at_ 25)).workers.flatMap WorkerStatus.held)[0]?.map
      (fun x => (x.inProgressFor, x.totalLatency)) = some (0, 15) := by decide
  have hlatency : (2 : ℕ) ∈ s.latencies := by decide
  obtain ⟨j, hj, hjtime⟩ := Option.map_eq_some_iff.mp hu
  obtain ⟨⟨w, a⟩, hwa, htimes⟩ := Option.map_eq_some_iff.mp ht
  obtain ⟨hw, ha⟩ := held?_eq_some.mp hwa
  obtain ⟨hcreated, hassigned⟩ := Prod.mk.inj htimes
  have hj := List.mem_of_getElem? hj
  obtain ⟨hle, hle', hlast⟩ := hheld "b" w "t" a hw ha
  refine ⟨hclock, hrun hclock hread, ⟨j, hj, hjtime, hwaiting j hj⟩,
    ⟨w, a, hw, ha, hcreated, hassigned, hle, hle', hlast⟩, ?_, ?_, 2, hlatency, rfl,
    hlatencies 2 hlatency⟩
  · obtain ⟨x, hx, hxspans⟩ := Option.map_eq_some_iff.mp hnow
    obtain ⟨hprogress, htotal⟩ := Prod.mk.inj hxspans
    obtain ⟨v, hv, hxv⟩ := List.mem_flatMap.mp (List.mem_of_getElem? hx)
    obtain ⟨-, b, hb, -, hexact, -⟩ := hstatus (fun _ h => h) v hv x hxv
    exact ⟨v, hv, x, hxv, hprogress, htotal, b, hb, hexact⟩
  · obtain ⟨x, hx, hxspans⟩ := Option.map_eq_some_iff.mp hbefore
    obtain ⟨hprogress, htotal⟩ := Prod.mk.inj hxspans
    obtain ⟨v, hv, hxv⟩ := List.mem_flatMap.mp (List.mem_of_getElem? hx)
    obtain ⟨b, hb, -, hexact, -⟩ := hback s v hv x hxv
    exact ⟨v, hv, x, hxv, hprogress, htotal, b, hb, hexact⟩

end Scheduler

end AgentMesh
