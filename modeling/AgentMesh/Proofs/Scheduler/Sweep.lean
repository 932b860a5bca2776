import AgentMesh.Proofs.Tables
import AgentMesh.Scheduler.Basic

/-!
A sweep as the loop that it is: one assignment after the other (`Scheduler.assign?`), until no job
waits or no worker has room (`Scheduler.assign?_sweep`). Its `k`-th assignment is the one made at its
`k`-th stage (`Scheduler.getElem?_sweep`), and what each assignment keeps the sweep keeps
(`Scheduler.sweep_invariant`).
-/

namespace AgentMesh

namespace JobQueue

@[ext] theorem ext {q r : JobQueue} (h : q.jobs = r.jobs) : q = r := by
  cases q
  cases r
  cases h
  rfl

theorem pop?_eq_none_iff {q : JobQueue} : q.pop? = none ↔ q.jobs = [] := by
  obtain ⟨jobs, ho⟩ := q
  cases jobs <;> simp [pop?]

theorem pop?_eq_some_iff {q rest : JobQueue} {j : Job} :
    q.pop? = some (j, rest) ↔ q.jobs = j :: rest.jobs := by
  obtain ⟨jobs, ho⟩ := q
  cases jobs with
  | nil => simp [pop?]
  | cons x r => simp [pop?, JobQueue.ext_iff]

end JobQueue

namespace Scheduler

theorem bestWorker?_eq_none_iff {workers : Dict Worker} :
    bestWorker? workers = none ↔ ∀ w ∈ workers.values, w.hasCapacity = false := by
  have hfold : ∀ l : List Worker,
      l.foldr (fun w best => some (better w best)) none = none ↔ l = [] := by
    intro l
    cases l <;> simp
  rw [bestWorker?, hfold, List.filter_eq_nil_iff]
  simp only [Bool.not_eq_true]

theorem better_eq (w : Worker) (best : Option Worker) :
    better w best = w ∨ best = some (better w best) := by
  cases best with
  | none => exact Or.inl rfl
  | some v => by_cases hp : w.preferred v = true <;> simp [better, hp]

theorem mem_of_foldr_better {l : List Worker} {w : Worker}
    (h : l.foldr (fun w best => some (better w best)) none = some w) : w ∈ l := by
  induction l with
  | nil => cases h
  | cons x r ih =>
    rw [List.foldr_cons, Option.some.injEq] at h
    rcases better_eq x (r.foldr (fun w best => some (better w best)) none) with hx | hr
    · exact List.mem_cons.mpr (Or.inl (h.symm.trans hx))
    · exact List.mem_cons_of_mem x (ih (hr.trans (congrArg some h)))

theorem bestWorker?_spec {workers : Dict Worker} {w : Worker} (h : bestWorker? workers = some w) :
    w ∈ workers.values ∧ w.hasCapacity = true :=
  List.mem_filter.mp (mem_of_foldr_better h)

/-- Hand the first waiting job to the best worker: the assignment and the scheduler after it, none if
no job waits or no worker has room. -/
def assign? (s : Scheduler) (now : Instant) : Option (Assignment × Scheduler) :=
  s.pending.pop?.bind fun (j, rest) =>
    (bestWorker? s.workers).map fun w =>
      let a := Assignment.ofJob j w.id now
      (a, { s with pending := rest, distributed := s.distributed + 1 }.put (w.take a))

variable {s t : Scheduler} {now : Instant} {a : Assignment}

theorem assign?_eq_some (h : s.assign? now = some (a, t)) :
    ∃ j rest w, s.pending.jobs = j :: rest.jobs ∧ bestWorker? s.workers = some w ∧
      a = Assignment.ofJob j w.id now ∧
      t = { s with pending := rest, distributed := s.distributed + 1 }.put (w.take a) := by
  simp only [assign?, Option.bind_eq_some_iff, Option.map_eq_some_iff] at h
  obtain ⟨⟨j, rest⟩, hj, w, hw, he⟩ := h
  cases he
  exact ⟨j, rest, w, JobQueue.pop?_eq_some_iff.mp hj, hw, rfl, rfl⟩

theorem assign?_eq_none_iff :
    s.assign? now = none ↔
      s.pending.jobs = [] ∨ ∀ w ∈ s.workers.values, w.hasCapacity = false := by
  rw [← JobQueue.pop?_eq_none_iff, ← bestWorker?_eq_none_iff]
  cases hj : s.pending.pop? <;> cases hw : bestWorker? s.workers <;> simp [assign?, hj, hw]

theorem sweep_of_none (h : s.assign? now = none) : s.sweep now = (s, []) := by
  have hh : handOut now s.pending.jobs s.workers = (s.workers, []) := by
    rcases assign?_eq_none_iff.mp h with hj | hw
    · rw [hj]
      rfl
    · rw [← bestWorker?_eq_none_iff] at hw
      cases s.pending.jobs <;> simp [handOut, hw]
  have hd : s.pending.drop 0 = s.pending := rfl
  simp [sweep, hh, hd]

theorem sweep_of_some (h : s.assign? now = some (a, t)) :
    s.sweep now = ((t.sweep now).1, a :: (t.sweep now).2) := by
  obtain ⟨j, rest, w, hj, hw, rfl, rfl⟩ := assign?_eq_some h
  have hd : ∀ n, s.pending.drop (n + 1) = rest.drop n := fun n =>
    JobQueue.ext (by simp [JobQueue.drop, hj])
  have hc : ∀ n, s.distributed + (n + 1) = s.distributed + 1 + n := by omega
  simp only [sweep, put, hj, handOut, hw, List.length_cons, hd]
  rw [hc]
  rfl

theorem assign?_size (h : s.assign? now = some (a, t)) :
    t.pending.size + 1 = s.pending.size := by
  obtain ⟨j, rest, w, hj, -, -, rfl⟩ := assign?_eq_some h
  simp [JobQueue.size, put, hj]

/-- To show something of a sweep, show it where the sweep stops, and before an assignment if it holds
after it. -/
theorem sweep_induction {P : Scheduler → Prop} (now : Instant)
    (stop : ∀ s, s.assign? now = none → P s)
    (turn : ∀ s a t, s.assign? now = some (a, t) → P t → P s) (s : Scheduler) : P s := by
  induction hn : s.pending.size generalizing s with
  | zero =>
    exact stop s (assign?_eq_none_iff.mpr (Or.inl (List.length_eq_zero_iff.mp hn)))
  | succ n ih =>
    cases h : s.assign? now with
    | none => exact stop s h
    | some x =>
      have hs := assign?_size h
      exact turn s x.1 x.2 h (ih x.2 (by omega))

theorem assign?_sweep (s : Scheduler) (now : Instant) :
    (s.sweep now).1.assign? now = none := by
  induction s using sweep_induction now with
  | stop s h => rwa [sweep_of_none h]
  | turn s a t h ih => rwa [sweep_of_some h]

theorem sweep_invariant {P : Scheduler → Prop}
    (hassign : ∀ s a t, P s → s.assign? now = some (a, t) → P t) (h : P s) :
    P (s.sweep now).1 := by
  induction s using sweep_induction now with
  | stop s hs => rwa [sweep_of_none hs]
  | turn s a t hs ih =>
    rw [sweep_of_some hs]
    exact ih (hassign s a t h hs)

/-- The scheduler after the first `k` assignments of a sweep. -/
def stage (s : Scheduler) (now : Instant) : Nat → Scheduler
  | 0 => s
  | k + 1 => ((s.stage now k).assign? now).elim (s.stage now k) (·.2)

theorem stage_of_some (h : s.assign? now = some (a, t)) (k : Nat) :
    s.stage now (k + 1) = t.stage now k := by
  induction k with
  | zero => simp [stage, h]
  | succ k ih => rw [stage, ih, stage]

theorem stage_invariant {P : Scheduler → Prop}
    (hassign : ∀ s a t, P s → s.assign? now = some (a, t) → P t) (h : P s) (k : Nat) :
    P (s.stage now k) := by
  induction k with
  | zero => exact h
  | succ k ih =>
    rw [stage]
    cases hs : (s.stage now k).assign? now with
    | none => exact ih
    | some x => exact hassign _ x.1 x.2 ih hs

theorem getElem?_sweep (s : Scheduler) (now : Instant) (k : Nat) :
    (s.sweep now).2[k]? = ((s.stage now k).assign? now).map (·.1) := by
  induction s using sweep_induction now generalizing k with
  | stop s h =>
    have hk : s.stage now k = s := by
      induction k with
      | zero => rfl
      | succ k ih => rw [stage, ih, h]; rfl
    rw [hk, sweep_of_none h, h]
    rfl
  | turn s a t h ih =>
    rw [sweep_of_some h]
    cases k with
    | zero => simp [stage, h]
    | succ k => rw [stage_of_some h, List.getElem?_cons_succ, ih]

end Scheduler

end AgentMesh
