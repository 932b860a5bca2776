import AgentMesh.Proofs.Scheduler.Identity
import AgentMesh.Proofs.Time.Order
import Mathlib.Data.Prod.Lex

/-!
Which job comes first. Whenever a job is handed out, it is the least of those that wait by priority, age
and number, and if the clock never goes back, no job passes an older one of its priority
(`Scheduler.least_first`). A job that waits again has kept its age and its number.
-/

namespace AgentMesh

/-- Priority, age and number of a job, in the order in which they count. -/
def Job.key (j : Job) : Lex (Int × Lex (Instant × Nat)) :=
  toLex (j.priority, toLex (j.createdAt, j.seq))

theorem Job.le_iff {a b : Job} : a.le b = true ↔ a.key ≤ b.key := by
  simp only [Job.le, Job.key, Prod.Lex.toLex_le_toLex, Bool.or_eq_true, Bool.and_eq_true,
    decide_eq_true_eq]

namespace Scheduler

variable {s t p : Scheduler} {jobs : List Job} {ops : List Op} {op : Op} {now : Instant}
  {a : Assignment} {k : Nat}

theorem assign?_least (h : s.assign? now = some (a, t)) :
    a.toJob ∈ s.pending.toList ∧ ∀ j ∈ s.pending.toList, a.toJob.key ≤ j.key := by
  obtain ⟨j, rest, w, hj, -, rfl, -⟩ := assign?_eq_some h
  have hordered := s.pending.ordered
  simp only [JobQueue.toList]
  rw [hj] at hordered ⊢
  refine ⟨List.mem_cons_self, fun x hx => ?_⟩
  rcases List.mem_cons.mp hx with rfl | hx
  · exact le_refl _
  · exact Job.le_iff.mp ((List.pairwise_cons.mp hordered).1 x hx)

theorem sweep_least (ha : (p.sweep now).2[k]? = some a) :
    a.toJob ∈ (p.stage now k).pending.toList ∧
      ∀ j ∈ (p.stage now k).pending.toList, a.toJob.key ≤ j.key := by
  rw [getElem?_sweep] at ha
  obtain ⟨⟨b, t⟩, hb, rfl⟩ := Option.map_eq_some_iff.mp ha
  exact assign?_least hb

/-- A job is as old as the clock said when it was submitted. -/
theorem createdAt_submitted (s : Scheduler) (ops : List Op) :
    ((gather submitted s ops).map Job.createdAt).Sublist (ops.map Op.now) := by
  induction ops generalizing s with
  | nil => exact List.Sublist.refl []
  | cons op rest ih =>
    have hrest := ih (s.apply op)
    cases op with
    | submit => exact hrest.cons_cons _
    | register | heartbeat | unregister | complete | status => exact hrest.cons _

/-- Of two jobs of one priority the one submitted first has the lower key, if the clock never goes
back. -/
theorem Traced.key_lt (h : s.Traced jobs)
    (hclock : (jobs.map Job.createdAt).Pairwise (· ≤ ·)) {i m : Nat} {x y : Job}
    (hi : jobs[i]? = some x) (hm : jobs[m]? = some y) (him : i < m)
    (hpriority : x.priority = y.priority) : x.key < y.key := by
  obtain ⟨hilt, hx⟩ := List.getElem?_eq_some_iff.mp hi
  obtain ⟨hmlt, hy⟩ := List.getElem?_eq_some_iff.mp hm
  have hage : x.createdAt ≤ y.createdAt := by
    have hpair := List.pairwise_iff_getElem.mp (List.pairwise_map.mp hclock) i m hilt hmlt him
    rwa [hx, hy] at hpair
  have hnumber : x.seq < y.seq := by rwa [(h.seq_eq hi).1, (h.seq_eq hm).1]
  refine Prod.Lex.toLex_lt_toLex.mpr (Or.inr ⟨hpriority, Prod.Lex.toLex_lt_toLex.mpr ?_⟩)
  exact hage.lt_or_eq.imp id fun he => ⟨he, hnumber⟩

/-- Along any operations, a job that an operation hands out is the least of all that wait at that time,
by priority, age and number. So if the clock never goes back, no job is handed out while one of the same
priority waits that was submitted before, whatever has become of both in between. -/
theorem least_first (ops : List Op) (op : Op) {p : Scheduler}
    (hp : (empty.run ops).prepared? op = some p) {k : Nat} {a : Assignment}
    (ha : (p.sweep op.now).2[k]? = some a) :
    let waiting := (p.stage op.now k).pending.toList
    let jobs := gather submitted empty (ops ++ [op])
    (empty.run ops).apply op = (p.sweep op.now).1 ∧
    a.toJob ∈ waiting ∧ (∀ j ∈ waiting, j = a.toJob ∨ a.toJob.key < j.key) ∧
    (((ops ++ [op]).map Op.now).Pairwise (· ≤ ·) →
      ∀ (i m : Nat) (x y : Job), i < m → jobs[i]? = some x → jobs[m]? = some y →
        x.priority = y.priority → a.seq = y.seq → ∀ j ∈ waiting, j.seq ≠ x.seq) := by
  intro waiting jobs
  have hk := keyed_run ops
  have htraced : (p.stage op.now k).Traced jobs := by
    have hprepared := (traced_run ops).prepared hk hp
    rw [← gather_concat] at hprepared
    exact hprepared.stage (hk.prepared hp) op.now k
  have hwaits : ∀ j ∈ waiting, jobs[j.seq]? = some j := fun j hj =>
    (htraced.getElem? (List.mem_append_left _ hj)).2
  obtain ⟨hmem, hleast⟩ := sweep_least ha
  refine ⟨by rw [apply_eq, hp]; rfl, hmem, fun j hj => ?_, ?_⟩
  · rcases (hleast j hj).eq_or_lt with he | hlt
    · have hseq : a.toJob.seq = j.seq := congrArg (fun key => (ofLex (ofLex key).2).2) he
      have hjob := hwaits a.toJob hmem
      rw [hseq, hwaits j hj] at hjob
      exact Or.inl (Option.some.inj hjob)
    · exact Or.inr hlt
  · intro hclock i m x y him hx hy hpriority hay j hj hjx
    have hxi := (htraced.seq_eq hx).1
    have hym := (htraced.seq_eq hy).1
    have hjob : j = x := by
      have hget := hwaits j hj
      rw [hjx, hxi, hx] at hget
      exact (Option.some.inj hget).symm
    have hhanded : a.toJob = y := by
      have hget := hwaits a.toJob hmem
      rw [show a.toJob.seq = m from hay.trans hym, hy] at hget
      exact (Option.some.inj hget).symm
    have hlt : x.key < y.key :=
      htraced.key_lt (hclock.sublist (createdAt_submitted empty (ops ++ [op]))) hx hy him hpriority
    have hle := hleast j hj
    rw [hjob, hhanded] at hle
    exact absurd hlt (not_lt_of_ge hle)

/-- The job submitted first waits again when its worker leaves, and is handed out before the two of its
priority that have waited all along; a later one of a lower value comes before all of them. -/
theorem least_first_requeued :
    let now := Instant.ofNanos 0
    let submit (taskId : String) (priority : Int) : Op :=
      .submit taskId Dict.empty priority Dict.empty now
    let ops : List Op :=
      [.register "a" 1 0 now, submit "t" 1, submit "u" 1, submit "v" 1, .unregister "a" now,
       submit "w" 0]
    let op : Op := .register "b" 3 0 (Instant.ofNanos 5)
    let jobs := gather submitted empty (ops ++ [op])
    ∃ p, (empty.run ops).prepared? op = some p ∧
      (p.sweep op.now).2.map Assignment.seq = [3, 0, 1] ∧
      ∃ a, (p.sweep op.now).2[2]? = some a ∧
        (∀ j ∈ (p.stage op.now 2).pending.toList, j = a.toJob ∨ a.toJob.key < j.key) ∧
        ∃ x y, jobs[0]? = some x ∧ jobs[1]? = some y ∧ x.priority = y.priority ∧ a.seq = y.seq ∧
          ∀ j ∈ (p.stage op.now 2).pending.toList, j.seq ≠ x.seq := by
  intro now submit ops op jobs
  have hp : ((empty.run ops).prepared? op).map
      (fun p => (p.sweep op.now).2.map Assignment.seq) = some [3, 0, 1] := by decide
  obtain ⟨p, hp, hmade⟩ := Option.map_eq_some_iff.mp hp
  have hthird : ((p.sweep op.now).2[2]?).map Assignment.seq = some 1 := by
    rw [← List.getElem?_map, hmade]
    rfl
  obtain ⟨a, ha, hseq⟩ := Option.map_eq_some_iff.mp hthird
  obtain ⟨-, -, hleast, hfirst⟩ := least_first ops op hp ha
  exact ⟨p, hp, hmade, a, ha, hleast, _, _, rfl, rfl, rfl, hseq,
    hfirst (by decide) 0 1 _ _ (by decide) rfl rfl rfl hseq⟩

end Scheduler

end AgentMesh
