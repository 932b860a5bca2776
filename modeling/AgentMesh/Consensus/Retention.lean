import AgentMesh.Sorting
import AgentMesh.Time.Instant

/-!
How long finished ballots are kept: a greatest number, a greatest age, or without limit.
-/

namespace AgentMesh

structure Retention where
  /-- How many may stay, one at least. -/
  maxFinalized : Option Nat
  /-- The age in nanoseconds at which one goes. -/
  ttl : Option Nat
deriving DecidableEq

/-- The identifier of a task and the time at which its result was fixed. -/
abbrev Finished := String × Instant

namespace Finished

def le (a b : Finished) : Bool := a.2 < b.2 || (a.2 = b.2 && a.1 ≤ b.1)

end Finished

namespace Retention

def unbounded : Retention := ⟨none, none⟩

def isUnbounded (r : Retention) : Bool := r.maxFinalized.isNone && r.ttl.isNone

/-- Whether one is old enough to go. A negative age is none, and `keep` never goes. -/
def isExpired (ttl : Nat) (now : Instant) (keep : Option String) (f : Finished) : Bool :=
  keep ≠ some f.1 && (0 ≤ now.nanosSince f.2 && ttl ≤ Instant.elapsed f.2 now)

def expired (r : Retention) (now : Instant) (keep : Option String) (l : List Finished) :
    List Finished :=
  match r.ttl with
  | none => []
  | some ttl => l.filter (isExpired ttl now keep)

def surviving (r : Retention) (now : Instant) (keep : Option String) (l : List Finished) :
    List Finished :=
  match r.ttl with
  | none => l
  | some ttl => l.filter fun f => !isExpired ttl now keep f

/-- The oldest of those that exceed the greatest number; `keep` counts, but does not go. -/
def surplus (r : Retention) (keep : Option String) (l : List Finished) : List Finished :=
  match r.maxFinalized with
  | none => []
  | some m => (l.filter fun f => keep ≠ some f.1).take (l.length - max 1 m)

/-- The identifiers of those that go: first the ones that are too old, then the surplus, each from
the oldest on. -/
def selectEvictions (r : Retention) (finished : List Finished) (now : Instant)
    (keep : Option String) : List String :=
  let sorted := sortBy Finished.le finished
  (r.expired now keep sorted ++ r.surplus keep (r.surviving now keep sorted)).map (·.1)

end Retention

end AgentMesh
