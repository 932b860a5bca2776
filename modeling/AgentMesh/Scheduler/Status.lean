import AgentMesh.Scheduler.Basic

/-!
A view of the scheduler at one time: workers from the preferred on, what each holds, and the waiting
jobs in the order in which they will be handed out.
-/

namespace AgentMesh

/-- A job in hand, with its ages in nanoseconds. -/
structure HeldJob where
  taskId : String
  priority : Int
  payload : Fields
  assignedAt : Instant
  inProgressFor : Nat
  totalLatency : Nat
  metadata : Fields

structure WorkerStatus where
  id : String
  active : Bool
  capacity : Nat
  priority : Int
  utilisation : Binary64
  held : List HeldJob
  lastHeartbeat : Instant

structure WaitingJob where
  taskId : String
  priority : Int
  payload : Fields
  createdAt : Instant
  metadata : Fields

structure SchedulerStatus where
  workers : List WorkerStatus
  waiting : List WaitingJob
  distributed : Nat
  completed : Nat
  failed : Nat
  averageLatency : Binary64

def Assignment.earlier (a b : Assignment) : Bool :=
  a.assignedAt < b.assignedAt || (a.assignedAt = b.assignedAt && a.seq ≤ b.seq)

/-- Order of workers: by priority from the highest on, then the less busy, then by identifier. The quotients
are compared exactly. As doubles they have the same order while what is held and the capacities stay below
67108864, the 26th power of two; beyond that doubles may tie, as those of 2097153 to 4288677886 and of
2097152 to 4288675841 do. -/
def Worker.listedBefore (a b : Worker) : Bool :=
  b.priority < a.priority ||
    (a.priority = b.priority && (a.lessBusy b || (a.equallyBusy b && a.id ≤ b.id)))

def HeldJob.capture (now : Instant) (a : Assignment) : HeldJob :=
  { taskId := a.taskId, priority := a.priority, payload := a.payload, assignedAt := a.assignedAt,
    inProgressFor := Instant.elapsed a.assignedAt now,
    totalLatency := Instant.elapsed a.createdAt now, metadata := a.metadata }

def WorkerStatus.capture (now : Instant) (w : Worker) : WorkerStatus :=
  { id := w.id, active := w.active, capacity := w.capacity, priority := w.priority,
    utilisation := w.utilisation,
    held := (sortBy Assignment.earlier w.assigned.values).map (HeldJob.capture now),
    lastHeartbeat := w.lastHeartbeat }

def WaitingJob.ofJob (j : Job) : WaitingJob :=
  { taskId := j.taskId, priority := j.priority, payload := j.payload, createdAt := j.createdAt,
    metadata := j.metadata }

def Scheduler.status (s : Scheduler) (now : Instant) : SchedulerStatus :=
  { workers := (sortBy Worker.listedBefore s.workers.values).map (WorkerStatus.capture now),
    waiting := s.pending.toList.map WaitingJob.ofJob,
    distributed := s.distributed, completed := s.completed, failed := s.failed,
    averageLatency := s.averageLatency }

def roundedSeconds (nanos : Nat) : Json := .double (secondsOfNanos nanos).round3

def HeldJob.toJson (h : HeldJob) : Json :=
  Json.object
    [("task_id", .str h.taskId), ("priority", .int h.priority),
     ("payload", Json.ofFields h.payload), ("assigned_at", Rfc3339.json h.assignedAt),
     ("in_progress_for", roundedSeconds h.inProgressFor),
     ("total_latency", roundedSeconds h.totalLatency), ("meta", Json.ofFields h.metadata)]

def WorkerStatus.toJson (w : WorkerStatus) : Json :=
  Json.object
    [("agent_id", .str w.id), ("active", .bool w.active), ("capacity", Json.nat w.capacity),
     ("priority", .int w.priority), ("utilisation", .double w.utilisation.round3),
     ("assigned_tasks", .arr (w.held.map HeldJob.toJson)),
     ("last_heartbeat", Rfc3339.json w.lastHeartbeat)]

def WaitingJob.toJson (j : WaitingJob) : Json :=
  Json.object
    [("task_id", .str j.taskId), ("priority", .int j.priority),
     ("payload", Json.ofFields j.payload), ("created_at", Rfc3339.json j.createdAt),
     ("meta", Json.ofFields j.metadata)]

def SchedulerStatus.toJson (s : SchedulerStatus) : Json :=
  Json.object
    [("agents", .arr (s.workers.map WorkerStatus.toJson)),
     ("pending_tasks", .arr (s.waiting.map WaitingJob.toJson)),
     ("metrics", Json.object
       [("tasks_distributed_total", Json.nat s.distributed),
        ("tasks_completed_total", Json.nat s.completed),
        ("tasks_failed_total", Json.nat s.failed),
        ("avg_task_latency", .double s.averageLatency)])]

end AgentMesh
