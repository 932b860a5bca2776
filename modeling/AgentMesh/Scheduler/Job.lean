import AgentMesh.Json.Basic
import AgentMesh.Sorting
import AgentMesh.Time.Instant

/-!
Jobs that wait for a worker, and the queue they wait in: lower priority values first, then the
older, then the one submitted first.
-/

namespace AgentMesh

structure Job where
  priority : Int
  createdAt : Instant
  seq : Nat
  taskId : String
  payload : Fields
  metadata : Fields
deriving DecidableEq

namespace Job

def le (a b : Job) : Bool :=
  a.priority < b.priority ||
    (a.priority = b.priority &&
      (a.createdAt < b.createdAt || (a.createdAt = b.createdAt && a.seq ≤ b.seq)))

theorem le_trans (a b c : Job) (hab : a.le b = true) (hbc : b.le c = true) : a.le c = true := by
  simp only [le, Bool.or_eq_true, Bool.and_eq_true, decide_eq_true_eq, Instant.lt_def,
    Instant.eq_iff] at *
  omega

theorem le_total (a b : Job) : a.le b = true ∨ b.le a = true := by
  simp only [le, Bool.or_eq_true, Bool.and_eq_true, decide_eq_true_eq, Instant.lt_def,
    Instant.eq_iff]
  omega

end Job

structure JobQueue where
  jobs : List Job
  ordered : jobs.Pairwise (fun a b => a.le b = true)

namespace JobQueue

def empty : JobQueue := ⟨[], List.Pairwise.nil⟩

instance : Inhabited JobQueue := ⟨empty⟩

def push (q : JobQueue) (j : Job) : JobQueue :=
  ⟨insertSorted Job.le j q.jobs, pairwise_insertSorted Job.le_trans Job.le_total j q.ordered⟩

def pushAll (q : JobQueue) (js : List Job) : JobQueue := js.foldl push q

/-- The job that is taken next, and the queue without it. -/
def pop? (q : JobQueue) : Option (Job × JobQueue) :=
  match q with
  | ⟨[], _⟩ => none
  | ⟨j :: r, h⟩ => some (j, ⟨r, (List.pairwise_cons.mp h).2⟩)

def peek? (q : JobQueue) : Option Job := q.jobs.head?

def size (q : JobQueue) : Nat := q.jobs.length

def isEmpty (q : JobQueue) : Bool := q.jobs.isEmpty

def toList (q : JobQueue) : List Job := q.jobs

def drop (q : JobQueue) (n : Nat) : JobQueue :=
  ⟨q.jobs.drop n, q.ordered.sublist (List.drop_sublist n _)⟩

theorem toList_push (q : JobQueue) (j : Job) : (q.push j).toList.Perm (j :: q.toList) :=
  insertSorted_perm Job.le j q.jobs

end JobQueue

end AgentMesh
