import AgentMesh.Scheduler.Job
import AgentMesh.Time.Rfc3339

/-!
Workers of bounded capacity and the jobs they hold.
-/

namespace AgentMesh

structure Assignment where
  taskId : String
  worker : String
  payload : Fields
  priority : Int
  createdAt : Instant
  assignedAt : Instant
  metadata : Fields
  seq : Nat
deriving DecidableEq

namespace Assignment

def ofJob (j : Job) (worker : String) (now : Instant) : Assignment :=
  { taskId := j.taskId, worker, payload := j.payload, priority := j.priority,
    createdAt := j.createdAt, assignedAt := now, metadata := j.metadata, seq := j.seq }

/-- The job as it waited before: with its priority, age and place. -/
def toJob (a : Assignment) : Job :=
  { priority := a.priority, createdAt := a.createdAt, seq := a.seq, taskId := a.taskId,
    payload := a.payload, metadata := a.metadata }

def toJson (a : Assignment) : Json :=
  Json.object
    [("task_id", .str a.taskId), ("agent_id", .str a.worker), ("payload", Json.ofFields a.payload),
     ("priority", .int a.priority), ("created_at", Rfc3339.json a.createdAt),
     ("assigned_at", Rfc3339.json a.assignedAt), ("meta", Json.ofFields a.metadata)]

end Assignment

structure WorkerUpdate where
  capacity : Option Nat
  priority : Option Int
  active : Option Bool
deriving DecidableEq

structure Worker where
  id : String
  /-- How many jobs it may hold; zero counts as one. -/
  capacity : Nat
  priority : Int
  active : Bool
  assigned : Dict Assignment
  lastHeartbeat : Instant
deriving DecidableEq

namespace Worker

def fresh (id : String) (now : Instant) : Worker :=
  { id, capacity := 1, priority := 0, active := true, assigned := Dict.empty, lastHeartbeat := now }

def hasCapacity (w : Worker) : Bool := w.active && w.assigned.size < max 1 w.capacity

/-- How busy it is, as a fraction: the jobs it holds to its capacity, and one where that is zero. -/
def load (w : Worker) : Nat × Nat :=
  if w.capacity = 0 then (1, 1) else (w.assigned.size, w.capacity)

def lessBusy (a b : Worker) : Bool := a.load.1 * b.load.2 < b.load.1 * a.load.2

def equallyBusy (a b : Worker) : Bool := a.load.1 * b.load.2 = b.load.1 * a.load.2

def utilisation (w : Worker) : Binary64 := (Binary64.ofNat w.load.1).div (Binary64.ofNat w.load.2)

/-- Whether one worker is handed a job rather than another: the less busy, then that of higher
priority, then that of the lower identifier. -/
def preferred (a b : Worker) : Bool :=
  a.lessBusy b ||
    (a.equallyBusy b && (b.priority < a.priority || (a.priority = b.priority && a.id ≤ b.id)))

def take (w : Worker) (a : Assignment) : Worker :=
  { w with assigned := w.assigned.insert a.taskId a, lastHeartbeat := a.assignedAt }

def update (w : Worker) (u : WorkerUpdate) (now : Instant) : Worker :=
  { w with
    capacity := u.capacity.getD w.capacity
    priority := u.priority.getD w.priority
    active := u.active.getD w.active
    lastHeartbeat := now }

def toJson (w : Worker) : Json :=
  Json.object
    [("agent_id", .str w.id), ("capacity", Json.nat w.capacity), ("priority", .int w.priority),
     ("active", .bool w.active),
     ("assigned", Json.ofFields (w.assigned.mapValues Assignment.toJson)),
     ("last_heartbeat", Rfc3339.json w.lastHeartbeat)]

end Worker

end AgentMesh
