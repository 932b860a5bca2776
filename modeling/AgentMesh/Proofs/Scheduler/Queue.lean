import AgentMesh.Proofs.Scheduler.Precedence
import AgentMesh.Proofs.Sorting
import Mathlib.Data.List.ReduceOption
import Mathlib.Data.Multiset.ZeroCons

/-!
The queue against a reference. The reference (`JobQueue.Served`) keeps its jobs in no order and takes one
with the least key. Where different jobs have different keys it leaves no choice
(`JobQueue.Served.unique`), and the queue follows it (`JobQueue.served`); so the list of the queue is what
its pops will give, and what sorting makes of its jobs in whatever order (`JobQueue.takes_least`).
-/

namespace AgentMesh.JobQueue

inductive Op
  | push (j : Job)
  | pop

def Op.pushed? : Op → Option Job
  | .push j => some j
  | .pop => none

def apply (q : JobQueue) : Op → JobQueue
  | .push j => q.push j
  | .pop => q.pop?.elim q (·.2)

def run (q : JobQueue) (ops : List Op) : JobQueue := ops.foldl apply q

/-- What the pops among some operations give, in turn. -/
def answers : JobQueue → List Op → List (Option Job)
  | _, [] => []
  | q, .push j :: rest => answers (q.push j) rest
  | q, .pop :: rest => q.pop?.map (·.1) :: answers (q.apply .pop) rest

/-- Operations on a bag of jobs: what their pops give, and the bag after them. -/
inductive Served : Multiset Job → List Op → List (Option Job) → Multiset Job → Prop
  | done {bag : Multiset Job} : Served bag [] [] bag
  | push {bag bag' : Multiset Job} {j : Job} {ops : List Op} {out : List (Option Job)}
      (hmore : Served (j ::ₘ bag) ops out bag') : Served bag (.push j :: ops) out bag'
  | pop {bag rest bag' : Multiset Job} {j : Job} {ops : List Op} {out : List (Option Job)}
      (hbag : bag = j ::ₘ rest) (hleast : ∀ i ∈ rest, j.key ≤ i.key)
      (hmore : Served rest ops out bag') : Served bag (.pop :: ops) (some j :: out) bag'
  | idle {bag bag' : Multiset Job} {ops : List Op} {out : List (Option Job)} (hbag : bag = 0)
      (hmore : Served bag ops out bag') : Served bag (.pop :: ops) (none :: out) bag'

variable {q rest : JobQueue} {j : Job} {ops : List Op}

theorem pop?_least (h : q.pop? = some (j, rest)) :
    q.toList = j :: rest.toList ∧ ∀ i ∈ rest.toList, j.key ≤ i.key := by
  have hjobs := pop?_eq_some_iff.mp h
  have hordered := q.ordered
  rw [hjobs] at hordered
  exact ⟨hjobs, fun i hi => Job.le_iff.mp ((List.pairwise_cons.mp hordered).1 i hi)⟩

theorem apply_pop (h : q.pop? = some (j, rest)) : q.apply .pop = rest := by simp [apply, h]

theorem apply_pop_of_none (h : q.pop? = none) : q.apply .pop = q := by simp [apply, h]

theorem served (q : JobQueue) (ops : List Op) :
    Served q.toList ops (q.answers ops) (q.run ops).toList := by
  induction ops generalizing q with
  | nil => exact .done
  | cons op more ih =>
    have hmore := ih (q.apply op)
    cases op with
    | push j =>
      have hbag : ((q.push j).toList : Multiset Job) = j ::ₘ q.toList :=
        Multiset.coe_eq_coe.mpr (q.toList_push j)
      refine .push ?_
      rw [← hbag]
      exact hmore
    | pop =>
      cases h : q.pop? with
      | none =>
        have hempty : q.toList = [] := pop?_eq_none_iff.mp h
        rw [apply_pop_of_none h, hempty] at hmore
        rw [answers, h, hempty, run, List.foldl_cons, apply_pop_of_none h]
        exact .idle rfl hmore
      | some x =>
        obtain ⟨hjobs, hleast⟩ := pop?_least h
        rw [apply_pop h] at hmore
        rw [answers, h, hjobs, run, List.foldl_cons, apply_pop h]
        exact .pop rfl hleast hmore

theorem eq_of_least {rest rest' : Multiset Job} {j' : Job}
    (hkeys : Set.InjOn Job.key {i | i ∈ j ::ₘ rest}) (h : j ::ₘ rest = j' ::ₘ rest')
    (hleast : ∀ i ∈ rest, j.key ≤ i.key) (hleast' : ∀ i ∈ rest', j'.key ≤ i.key) :
    j = j' ∧ rest = rest' := by
  have hj : j ∈ j' ::ₘ rest' := h ▸ Multiset.mem_cons_self j rest
  have hj' : j' ∈ j ::ₘ rest := h ▸ Multiset.mem_cons_self j' rest'
  have hle : j.key ≤ j'.key := (Multiset.mem_cons.mp hj').elim (fun he => he ▸ le_rfl) (hleast j')
  have hge : j'.key ≤ j.key := (Multiset.mem_cons.mp hj).elim (fun he => he ▸ le_rfl) (hleast' j)
  obtain rfl : j = j' := hkeys (Multiset.mem_cons_self j rest) hj' (hle.antisymm hge)
  exact ⟨rfl, (Multiset.cons_inj_right j).mp h⟩

/-- Where different jobs have different keys, the reference has no choice. -/
theorem Served.unique {bag bag₁ bag₂ : Multiset Job} {out₁ out₂ : List (Option Job)}
    (hkeys : Set.InjOn Job.key {i | i ∈ bag ∨ Op.push i ∈ ops}) (h₁ : Served bag ops out₁ bag₁)
    (h₂ : Served bag ops out₂ bag₂) : out₁ = out₂ ∧ bag₁ = bag₂ := by
  -- What is in the bag or yet to be pushed only gets less, so its keys go on telling it apart.
  induction h₁ generalizing out₂ bag₂ with
  | done =>
    cases h₂
    exact ⟨rfl, rfl⟩
  | push hmore ih =>
    cases h₂ with
    | push hmore₂ =>
      refine ih (hkeys.mono ?_) hmore₂
      rintro i (hi | hi)
      · rcases Multiset.mem_cons.mp hi with rfl | hi
        · exact Or.inr List.mem_cons_self
        · exact Or.inl hi
      · exact Or.inr (List.mem_cons_of_mem _ hi)
  | pop hbag hleast hmore ih =>
    subst hbag
    cases h₂ with
    | pop hbag₂ hleast₂ hmore₂ =>
      obtain ⟨rfl, rfl⟩ := eq_of_least (hkeys.mono fun i hi => Or.inl hi) hbag₂ hleast hleast₂
      obtain ⟨rfl, rfl⟩ := ih (hkeys.mono fun i hi =>
        hi.imp Multiset.mem_cons_of_mem (List.mem_cons_of_mem Op.pop)) hmore₂
      exact ⟨rfl, rfl⟩
    | idle hbag₂ => exact absurd hbag₂ Multiset.cons_ne_zero
  | idle hbag hmore ih =>
    cases h₂ with
    | pop hbag₂ => exact absurd (hbag₂.symm.trans hbag) Multiset.cons_ne_zero
    | idle hbag₂ hmore₂ =>
      obtain ⟨rfl, rfl⟩ := ih (hkeys.mono fun i hi =>
        hi.imp_right (List.mem_cons_of_mem Op.pop)) hmore₂
      exact ⟨rfl, rfl⟩

theorem Served.perm {bag bag' : Multiset Job} {out : List (Option Job)}
    (h : Served bag ops out bag') :
    bag' + (out.reduceOption : Multiset Job) = bag + (ops.filterMap Op.pushed? : List Job) := by
  induction h with
  | done => rfl
  | push hmore ih =>
    rw [ih, Multiset.cons_add, ← Multiset.add_cons]
    rfl
  | pop hbag hleast hmore ih =>
    rw [hbag, List.reduceOption_cons_of_some, ← Multiset.cons_coe, Multiset.add_cons, ih,
      Multiset.cons_add, List.filterMap_cons_none rfl]
  | idle hbag hmore ih => rw [List.reduceOption_cons_of_none, ih, List.filterMap_cons_none rfl]

theorem answers_all (q : JobQueue) :
    q.answers (List.replicate (q.size + 1) .pop) = q.toList.map some ++ [none] := by
  obtain ⟨jobs, ho⟩ := q
  induction jobs with
  | nil => rfl
  | cons j r ih => exact congrArg (some j :: ·) (ih (List.pairwise_cons.mp ho).2)

/-- Along any operations on jobs of which no two have one key, and each of which may be pushed again: the
pops give what the reference gives, and what is stored is what was pushed and not taken. A pop takes the
least of what is stored, by priority, time of submission and number, and gives none just if nothing is
stored; a look at the queue shows the same job. The list of the queue is what popping until it is empty
gives, and what sorting gives in whatever order the jobs are listed. -/
theorem takes_least (ops : List Op) (hkeys : Set.InjOn Job.key {j | Op.push j ∈ ops}) :
    let q := empty.run ops
    let taken := (empty.answers ops).reduceOption
    let pushed := ops.filterMap Op.pushed?
    (∀ out bag, Served 0 ops out bag ↔ out = empty.answers ops ∧ bag = q.toList) ∧
    (q.toList ++ taken).Perm pushed ∧
    q.size + taken.length = pushed.length ∧
    (q.pop? = none ↔ q.toList = []) ∧
    (∀ j rest, q.pop? = some (j, rest) →
      (j :: rest.toList).Perm q.toList ∧ ∀ i ∈ rest.toList, i = j ∨ j.key < i.key) ∧
    q.peek? = q.pop?.map (·.1) ∧
    (∀ l : List Job, l.Perm q.toList → sortBy Job.le l = q.toList) ∧
    q.answers (List.replicate (q.size + 1) .pop) = q.toList.map some ++ [none] := by
  intro q taken pushed
  have hserved : Served 0 ops (empty.answers ops) q.toList := served empty ops
  have hperm : (q.toList ++ taken).Perm pushed := by
    have hbag := hserved.perm
    rwa [Multiset.coe_add, Multiset.zero_add, Multiset.coe_eq_coe] at hbag
  have hstored : Set.InjOn Job.key {j | j ∈ q.toList} := by
    refine hkeys.mono fun j hj => ?_
    obtain ⟨op, hop, hpush⟩ := List.mem_filterMap.mp (hperm.subset (List.mem_append_left taken hj))
    cases op with
    | push i => exact Option.some.inj hpush ▸ hop
    | pop => cases hpush
  refine ⟨fun out bag => ⟨fun h => ?_, ?_⟩, hperm, ?_, pop?_eq_none_iff, fun j rest h => ?_, ?_,
    fun l hl => ?_, q.answers_all⟩
  · exact h.unique (by simpa using hkeys) hserved
  · rintro ⟨rfl, rfl⟩
    exact hserved
  · rw [← hperm.length_eq, List.length_append]
    rfl
  · obtain ⟨hjobs, hleast⟩ := pop?_least h
    rw [hjobs] at hstored ⊢
    refine ⟨List.Perm.refl _, fun i hi => (hleast i hi).eq_or_lt.imp_left fun he => ?_⟩
    exact (hstored List.mem_cons_self (List.mem_cons_of_mem j hi) he).symm
  · obtain ⟨jobs, ho⟩ := q
    cases jobs <;> rfl
  · exact sortBy_eq_of_perm (fun _ _ => Job.le_iff) (fun i hi j hj he => hstored hi hj he) hl
      (q.ordered.imp Job.le_iff.mp)

/-- A job is taken, and put back behind one of its age that was numbered later and one that is more
urgent. -/
theorem takes_least_requeued :
    let job (priority time : Int) (seq : Nat) : Job :=
      { priority, createdAt := .ofNanos time, seq, taskId := "", payload := .empty, metadata := .empty }
    let t := job 1 5 1
    let u := job 1 5 0
    let v := job 0 9 2
    let ops : List Op := [.push t, .push u, .pop, .push v, .push u]
    let q := empty.run ops
    Set.InjOn Job.key {j | Op.push j ∈ ops} ∧ Served 0 ops [some u] q.toList ∧
      sortBy Job.le [t, u, v] = q.toList ∧
      q.answers (List.replicate 4 .pop) = [some v, some u, some t, none] := by
  intro job t u v ops q
  have hkeys : Set.InjOn Job.key {j | Op.push j ∈ ops} := by
    intro i hi j hj he
    have hmem : ∀ i, Op.push i ∈ ops → i ∈ [t, u, v] := fun i hi => by simp [ops] at hi ⊢; tauto
    have hall : ∀ i ∈ [t, u, v], ∀ j ∈ [t, u, v], i.key = j.key → i = j := by decide
    exact hall i (hmem i hi) j (hmem j hj) he
  obtain ⟨hserved, -, -, -, -, -, hsorted, hall⟩ := takes_least ops hkeys
  have hout : empty.answers ops = [some u] := by decide
  have hlist : q.toList = [v, u, t] := by decide
  have hperm : [t, u, v].Perm q.toList := by
    rw [hlist]
    exact (List.reverse_perm [v, u, t])
  have hsize : q.size = 3 := by decide
  refine ⟨hkeys, (hserved _ _).mpr ⟨hout.symm, rfl⟩, hsorted _ hperm, ?_⟩
  rw [hsize, hlist] at hall
  exact hall

end AgentMesh.JobQueue
