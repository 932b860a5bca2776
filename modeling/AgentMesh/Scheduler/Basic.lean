import AgentMesh.Scheduler.Worker

/-!
The scheduler hands waiting jobs to workers that have room: each job to the least busy worker, jobs
in the order of their queue, until jobs or room run out. Every operation ends with such a sweep. A
job leaves its worker only when it is completed or the worker is removed.
-/

namespace AgentMesh

structure Scheduler where
  workers : Dict Worker
  pending : JobQueue
  /-- The number of the next submission. -/
  nextSeq : Nat
  distributed : Nat
  completed : Nat
  failed : Nat
  /-- Nanoseconds from submission to completion of the latest successful jobs, oldest first. -/
  latencies : List Nat

namespace Scheduler

def latencyWindow : Nat := 200

def empty : Scheduler :=
  { workers := Dict.empty, pending := JobQueue.empty, nextSeq := 0, distributed := 0,
    completed := 0, failed := 0, latencies := [] }

def better (w : Worker) : Option Worker → Worker
  | none => w
  | some v => if w.preferred v then w else v

/-- The worker that is handed the next job. -/
def bestWorker? (workers : Dict Worker) : Option Worker :=
  (workers.values.filter Worker.hasCapacity).foldr (fun w best => some (better w best)) none

/-- Hand jobs out, from the first on, as long as a worker has room: the workers after that, and the
assignments in the order in which they were made. -/
def handOut (now : Instant) : List Job → Dict Worker → Dict Worker × List Assignment
  | [], workers => (workers, [])
  | j :: r, workers =>
    match bestWorker? workers with
    | none => (workers, [])
    | some w =>
      let a := Assignment.ofJob j w.id now
      let (workers, rest) := handOut now r (workers.insert w.id (w.take a))
      (workers, a :: rest)

/-- Hand waiting jobs out until jobs or room run out, and tell the assignments made. -/
def sweep (s : Scheduler) (now : Instant) : Scheduler × List Assignment :=
  let (workers, made) := handOut now s.pending.jobs s.workers
  ({ s with workers, pending := s.pending.drop made.length,
            distributed := s.distributed + made.length }, made)

def worker (s : Scheduler) (id : String) (now : Instant) : Worker :=
  (s.workers.get? id).getD (Worker.fresh id now)

def put (s : Scheduler) (w : Worker) : Scheduler := { s with workers := s.workers.insert w.id w }

/-- Add a worker, or give one that is known new parameters and make it active. -/
def register (s : Scheduler) (id : String) (capacity : Nat) (priority : Int) (now : Instant) :
    Scheduler × Worker :=
  let update : WorkerUpdate := ⟨some capacity, some priority, some true⟩
  let (s, _) := (s.put ((s.worker id now).update update now)).sweep now
  (s, s.worker id now)

/-- A sign of life of a worker, with changes. Unknown workers are added. -/
def heartbeat (s : Scheduler) (id : String) (update : WorkerUpdate) (now : Instant) :
    Scheduler × Worker :=
  let (s, _) := (s.put ((s.worker id now).update update now)).sweep now
  (s, s.worker id now)

/-- Remove a worker and put the jobs that it held back into the queue. -/
def unregister (s : Scheduler) (id : String) (now : Instant) : Scheduler × Option Worker :=
  match s.workers.get? id with
  | none => (s, none)
  | some w =>
    let s := { s with workers := s.workers.erase id,
                      pending := s.pending.pushAll (w.assigned.values.map Assignment.toJob) }
    ((s.sweep now).1, some w)

/-- The last assignment made to a task among several. -/
def assignmentOf? (taskId : String) (made : List Assignment) : Option Assignment :=
  made.reverse.find? (·.taskId = taskId)

/-- Queue a job; tells its assignment if it was handed out at once. -/
def submit (s : Scheduler) (taskId : String) (payload : Fields) (priority : Int) (metadata : Fields)
    (now : Instant) : Scheduler × Option Assignment :=
  let job : Job := { priority, createdAt := now, seq := s.nextSeq, taskId, payload, metadata }
  let (s, made) :=
    ({ s with nextSeq := s.nextSeq + 1, pending := s.pending.push job }).sweep now
  (s, assignmentOf? taskId made)

/-- Keep one more latency, in place of the oldest when the window is full. -/
def keepLatency (l : List Nat) (latency : Nat) : List Nat :=
  (if l.length = latencyWindow then l.drop 1 else l) ++ [latency]

def settle (s : Scheduler) (a : Assignment) (success : Bool) (now : Instant) : Scheduler :=
  if success then
    { s with completed := s.completed + 1,
             latencies := keepLatency s.latencies (Instant.elapsed a.createdAt now) }
  else { s with failed := s.failed + 1 }

/-- Release a job from its worker. An unknown worker or job changes nothing. -/
def complete (s : Scheduler) (id taskId : String) (success : Bool) (now : Instant) :
    Scheduler × Option Assignment :=
  match s.workers.get? id with
  | none => ((s.sweep now).1, none)
  | some w =>
    match w.assigned.get? taskId with
    | none => ((s.sweep now).1, none)
    | some a =>
      let s := s.put { w with assigned := w.assigned.erase taskId }
      (((s.settle a success now).sweep now).1, some a)

def averageLatency (s : Scheduler) : Binary64 :=
  if s.latencies.isEmpty then .zero
  else ((s.latencies.map secondsOfNanos).foldl Binary64.add .zero).div
    (Binary64.ofNat s.latencies.length)

end Scheduler

end AgentMesh
