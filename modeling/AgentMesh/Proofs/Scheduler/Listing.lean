import AgentMesh.Proofs.Scheduler.Greedy
import AgentMesh.Proofs.Scheduler.Queue
import AgentMesh.Proofs.Scheduler.Tenure

/-!
What the status lists. Workers have a strict order, as do the jobs in the hands of one and those that wait,
so a status does not depend on the order in which they are come upon. As long as nothing is submitted and
nothing waits again, the jobs that wait are handed out in the order listed (`Scheduler.handed_run`).
-/

namespace AgentMesh

/-- The order in which workers are listed: those of higher priority first, then the less busy by exact
quotients, which below 67108864 are in the order of the doubles told, then by identifier. -/
def Worker.listRank (w : Worker) : Lex (ℤᵒᵈ × Lex (ℚ × String)) :=
  toLex (OrderDual.toDual w.priority, toLex (w.busy, w.id))

theorem Worker.listedBefore_iff {a b : Worker} :
    a.listedBefore b = true ↔ a.listRank ≤ b.listRank := by
  simp only [listedBefore, listRank, Prod.Lex.toLex_le_toLex, Bool.or_eq_true, Bool.and_eq_true,
    decide_eq_true_eq, lessBusy_iff, equallyBusy_iff, OrderDual.toDual_lt_toDual,
    EmbeddingLike.apply_eq_iff_eq]

/-- When a job was handed out, and its number. -/
def Assignment.handKey (a : Assignment) : Lex (Instant × Nat) := toLex (a.assignedAt, a.seq)

theorem Assignment.earlier_iff {a b : Assignment} :
    a.earlier b = true ↔ a.handKey ≤ b.handKey := by
  simp only [earlier, handKey, Prod.Lex.toLex_le_toLex, Bool.or_eq_true, Bool.and_eq_true,
    decide_eq_true_eq]

namespace Scheduler

/-- The status as it is told of workers and jobs that are come upon in some order. -/
def statusFrom (s : Scheduler) (now : Instant) (workers : List Worker) (jobs : List Job) :
    SchedulerStatus :=
  { s.status now with
    workers := (sortBy Worker.listedBefore workers).map (WorkerStatus.capture now)
    waiting := (sortBy Job.le jobs).map WaitingJob.ofJob }

/-- An operation submits nothing and leaves nothing to wait again. -/
def AddsNothing (s : Scheduler) (op : Op) : Prop := s.submitted op = [] ∧ s.requeued op = []

instance (s : Scheduler) (op : Op) : Decidable (s.AddsNothing op) :=
  inferInstanceAs (Decidable (_ ∧ _))

variable {s p : Scheduler} {jobs : List Job} {id : String} {w : Worker} {op : Op}

theorem Keyed.nodup_ids (hk : s.Keyed) : (s.workers.values.map Worker.id).Nodup := by
  have hids : s.workers.values.map Worker.id = s.workers.keys := by
    rw [Dict.values, Dict.keys, List.map_map]
    exact List.map_congr_left fun e he => (hk e.1 e.2 (Dict.get?_eq_some_iff.mpr he)).1
  rw [hids]
  exact s.workers.nodup_keys

theorem Keyed.nodup_listRank (hk : s.Keyed) : (s.workers.values.map Worker.listRank).Nodup :=
  nodup_map_of_part (fun r => (ofLex (ofLex r).2).2) hk.nodup_ids

theorem Traced.nodup_handKey (h : s.Traced jobs) (hw : s.workers.get? id = some w) :
    (w.assigned.values.map Assignment.handKey).Nodup := by
  have hall := ((held_of_some hw).map Assignment.seq).nodup_iff.mp h.nodup_held
  rw [List.map_append] at hall
  exact nodup_map_of_part (fun k => (ofLex k).2) hall.of_append_left

theorem Traced.nodup_key (h : s.Traced jobs) : (s.pending.toList.map Job.key).Nodup :=
  nodup_map_of_part (fun k => (ofLex (ofLex k).2).2) h.nodup_pending

theorem handed_sweep (s : Scheduler) (now : Instant) :
    (s.sweep now).2.map Assignment.toJob ++ (s.sweep now).1.pending.toList = s.pending.toList := by
  induction s using sweep_induction now with
  | stop s h =>
    rw [sweep_of_none h]
    rfl
  | turn s a t h ih =>
    obtain ⟨j, rest, w, hj, -, rfl, rfl⟩ := assign?_eq_some h
    rw [sweep_of_some h, List.map_cons, List.cons_append, ih]
    exact hj.symm

theorem pending_prepared (hp : s.prepared? op = some p) (hnone : s.AddsNothing op) :
    p.pending = s.pending := by
  obtain ⟨hnew, hback⟩ := hnone
  cases op with
  | register | heartbeat =>
    cases hp
    rfl
  | unregister id now =>
    obtain ⟨w, hw, rfl⟩ := Option.map_eq_some_iff.mp hp
    rw [requeued_unregister, hw, Option.elim_some] at hback
    rw [withdrawn, hback]
    rfl
  | submit => cases hnew
  | complete id taskId success now =>
    obtain ⟨-, rfl⟩ | ⟨w, a, -, rfl⟩ := prepared?_complete hp
    · rfl
    · cases success <;> rfl
  | status => cases hp

theorem handed_apply (hnone : s.AddsNothing op) :
    (s.made op).map Assignment.toJob ++ (s.apply op).pending.toList = s.pending.toList := by
  rw [apply_eq, made]
  cases hp : s.prepared? op with
  | none => rfl
  | some p =>
    rw [← pending_prepared hp hnone]
    exact handed_sweep p op.now

theorem handed_run {ops : List Op} (hnone : Throughout AddsNothing s ops) :
    (gather made s ops).map Assignment.toJob ++ (s.run ops).pending.toList = s.pending.toList := by
  induction ops generalizing s with
  | nil => rfl
  | cons op rest ih =>
    rw [gather, List.map_append, List.append_assoc, ← handed_apply hnone.1]
    exact congrArg _ (ih hnone.2)

end Scheduler

end AgentMesh
