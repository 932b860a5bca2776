import AgentMesh.Proofs.Scheduler.Sweep
import AgentMesh.Scheduler.Status

/-!
Runs of operations on a scheduler. An operation prepares the scheduler for its sweep
(`Scheduler.prepared?`) and leaves what the sweep makes of that (`Scheduler.apply_eq`), so what
preparing and each assignment keep holds after every run (`Scheduler.run_invariant`). One such thing
is the filing of workers and jobs under their identifiers (`Scheduler.keyed_run`).
-/

namespace AgentMesh

namespace Scheduler

/-- What can be done with a scheduler. The instants are readings of the clock, in no particular
order. -/
inductive Op
  | register (id : String) (capacity : Nat) (priority : Int) (now : Instant)
  | heartbeat (id : String) (update : WorkerUpdate) (now : Instant)
  | unregister (id : String) (now : Instant)
  | submit (taskId : String) (payload : Fields) (priority : Int) (metadata : Fields)
      (now : Instant)
  | complete (id taskId : String) (success : Bool) (now : Instant)
  | status (now : Instant)

def Op.now : Op → Instant
  | .register _ _ _ now | .heartbeat _ _ now | .unregister _ now | .submit _ _ _ _ now
  | .complete _ _ _ now | .status now => now

/-- The scheduler after an operation; reading leaves it as it is. -/
def apply (s : Scheduler) : Op → Scheduler
  | .register id capacity priority now => (s.register id capacity priority now).1
  | .heartbeat id update now => (s.heartbeat id update now).1
  | .unregister id now => (s.unregister id now).1
  | .submit taskId payload priority metadata now =>
    (s.submit taskId payload priority metadata now).1
  | .complete id taskId success now => (s.complete id taskId success now).1
  | .status _ => s

def run (s : Scheduler) (ops : List Op) : Scheduler := ops.foldl apply s

/-- A condition that holds of each operation of a run and of the scheduler that it finds. -/
def Throughout (P : Scheduler → Op → Prop) : Scheduler → List Op → Prop
  | _, [] => True
  | s, op :: rest => P s op ∧ Throughout P (s.apply op) rest

instance Throughout.decidable (P : Scheduler → Op → Prop) [∀ s op, Decidable (P s op)] :
    ∀ s ops, Decidable (Throughout P s ops)
  | _, [] => isTrue trivial
  | s, op :: rest =>
    have := Throughout.decidable P (s.apply op) rest
    inferInstanceAs (Decidable (P s op ∧ Throughout P (s.apply op) rest))

/-- What the operations of a run bring, each seen together with the scheduler that it finds. -/
def gather {β : Type} (f : Scheduler → Op → List β) : Scheduler → List Op → List β
  | _, [] => []
  | s, op :: rest => f s op ++ gather f (s.apply op) rest

theorem gather_concat {β : Type} (f : Scheduler → Op → List β) (s : Scheduler) (ops : List Op)
    (op : Op) : gather f s (ops ++ [op]) = gather f s ops ++ f (s.run ops) op := by
  induction ops generalizing s with
  | nil => exact List.append_nil _
  | cons first rest ih =>
    rw [List.cons_append, gather, ih, gather, List.append_assoc]
    rfl

def updated (s : Scheduler) (id : String) (update : WorkerUpdate) (now : Instant) : Scheduler :=
  s.put ((s.worker id now).update update now)

/-- The scheduler without a worker, whose jobs wait again. -/
def withdrawn (s : Scheduler) (id : String) (w : Worker) : Scheduler :=
  { s with workers := s.workers.erase id
           pending := s.pending.pushAll (w.assigned.values.map Assignment.toJob) }

def job (s : Scheduler) (taskId : String) (payload : Fields) (priority : Int) (metadata : Fields)
    (now : Instant) : Job :=
  { priority, createdAt := now, seq := s.nextSeq, taskId, payload, metadata }

def queued (s : Scheduler) (j : Job) : Scheduler :=
  { s with nextSeq := s.nextSeq + 1, pending := s.pending.push j }

/-- A worker and what it holds of a task. -/
def held? (s : Scheduler) (id taskId : String) : Option (Worker × Assignment) :=
  (s.workers.get? id).bind fun w => (w.assigned.get? taskId).map fun a => (w, a)

def released (s : Scheduler) (taskId : String) (w : Worker) (a : Assignment) (success : Bool)
    (now : Instant) : Scheduler :=
  (s.put { w with assigned := w.assigned.erase taskId }).settle a success now

/-- The scheduler as an operation leaves it to its sweep, none if there is no sweep. -/
def prepared? (s : Scheduler) : Op → Option Scheduler
  | .register id capacity priority now =>
    some (s.updated id ⟨some capacity, some priority, some true⟩ now)
  | .heartbeat id update now => some (s.updated id update now)
  | .unregister id _ => (s.workers.get? id).map (s.withdrawn id)
  | .submit taskId payload priority metadata now =>
    some (s.queued (s.job taskId payload priority metadata now))
  | .complete id taskId success now =>
    some ((s.held? id taskId).elim s fun x => s.released taskId x.1 x.2 success now)
  | .status _ => none

theorem apply_eq (s : Scheduler) (op : Op) :
    s.apply op = (s.prepared? op).elim s fun p => (p.sweep op.now).1 := by
  cases op with
  | unregister id now =>
    simp only [apply, unregister, prepared?]
    cases s.workers.get? id <;> rfl
  | complete id taskId success now =>
    simp only [apply, complete, prepared?, held?]
    cases s.workers.get? id with
    | none => rfl
    | some w => cases h : w.assigned.get? taskId <;> simp [h, released, Op.now]
  | register | heartbeat | submit | status => rfl

theorem prepared?_complete {s p : Scheduler} {id taskId : String} {success : Bool} {now : Instant}
    (h : s.prepared? (.complete id taskId success now) = some p) :
    (s.held? id taskId = none ∧ p = s) ∨
      ∃ w a, s.held? id taskId = some (w, a) ∧ p = s.released taskId w a success now := by
  have hp := Option.some.inj h
  cases hh : s.held? id taskId with
  | none => exact Or.inl ⟨rfl, by rw [← hp, hh]; rfl⟩
  | some x => exact Or.inr ⟨x.1, x.2, rfl, by rw [← hp, hh]; rfl⟩

section Invariant

variable {P : Scheduler → Prop} {s : Scheduler}

theorem apply_invariant {op : Op} (hprepared : ∀ p, s.prepared? op = some p → P p)
    (hassign : ∀ s now a t, P s → s.assign? now = some (a, t) → P t) (h : P s) :
    P (s.apply op) := by
  rw [apply_eq]
  cases hp : s.prepared? op with
  | none => exact h
  | some p => exact sweep_invariant (fun s a t => hassign s op.now a t) (hprepared p hp)

theorem run_invariant_of {A : Scheduler → Op → Prop}
    (happly : ∀ s op, A s op → P s → P (s.apply op)) (h : P s) {ops : List Op}
    (ha : Throughout A s ops) : P (s.run ops) := by
  induction ops generalizing s with
  | nil => exact h
  | cons op rest ih => exact ih (happly s op ha.1 h) ha.2

theorem run_invariant (happly : ∀ s op, P s → P (s.apply op)) (h : P s) (ops : List Op) :
    P (s.run ops) := by
  induction ops generalizing s with
  | nil => exact h
  | cons op rest ih => exact ih (happly s op h)

end Invariant

end Scheduler

def Worker.Filed (w : Worker) : Prop :=
  ∀ t a, w.assigned.get? t = some a → a.taskId = t ∧ a.worker = w.id

theorem Worker.Filed.take {w : Worker} (h : w.Filed) {a : Assignment} (ha : a.worker = w.id) :
    (w.take a).Filed := by
  intro t b hb
  rw [Worker.take, Dict.get?_insert] at hb
  split at hb
  · next ht =>
    cases hb
    exact ⟨ht, ha⟩
  · exact h t b hb

theorem Worker.Filed.erase {w : Worker} (h : w.Filed) (taskId : String) :
    Filed { w with assigned := w.assigned.erase taskId } := by
  intro t a ha
  rw [Dict.get?_erase] at ha
  split at ha
  · cases ha
  · exact h t a ha

namespace Scheduler

/-- Workers stand under their identifiers, and what they hold under those of the tasks. -/
def Keyed (s : Scheduler) : Prop := ∀ k w, s.workers.get? k = some w → w.id = k ∧ w.Filed

theorem keyed_empty : empty.Keyed := fun _ _ h => by simp [empty] at h

variable {s t : Scheduler}

theorem Keyed.put (h : s.Keyed) {w : Worker} (hw : w.Filed) : (s.put w).Keyed := by
  intro k v hv
  rw [Scheduler.put, Dict.get?_insert] at hv
  split at hv
  · next hk =>
    cases hv
    exact ⟨hk, hw⟩
  · exact h k v hv

theorem Keyed.worker (h : s.Keyed) (id : String) (now : Instant) :
    (s.worker id now).id = id ∧ (s.worker id now).Filed := by
  cases hw : s.workers.get? id with
  | none => simp [Scheduler.worker, hw, Worker.fresh, Worker.Filed]
  | some w => simpa [Scheduler.worker, hw] using h id w hw

theorem held?_eq_some {id taskId : String} {w : Worker} {a : Assignment} :
    s.held? id taskId = some (w, a) ↔
      s.workers.get? id = some w ∧ w.assigned.get? taskId = some a := by
  simp only [held?, Option.bind_eq_some_iff, Option.map_eq_some_iff, Prod.mk.injEq]
  constructor
  · rintro ⟨_, hw, _, ha, rfl, rfl⟩
    exact ⟨hw, ha⟩
  · rintro ⟨hw, ha⟩
    exact ⟨w, hw, a, ha, rfl, rfl⟩

theorem complete_of_none {id taskId : String} (hh : s.held? id taskId = none)
    (success : Bool) (now : Instant) :
    s.complete id taskId success now = ((s.sweep now).1, none) := by
  simp only [held?, Option.bind_eq_none_iff, Option.map_eq_none_iff] at hh
  simp only [complete]
  split
  · rfl
  · next w hw => rw [hh w hw]

theorem complete_of_some {id taskId : String} {w : Worker} {a : Assignment}
    (hh : s.held? id taskId = some (w, a)) (success : Bool) (now : Instant) :
    s.complete id taskId success now =
      (((s.released taskId w a success now).sweep now).1, some a) := by
  obtain ⟨hw, ha⟩ := held?_eq_some.mp hh
  simp only [complete, hw, ha]
  rfl

theorem settle_workers (a : Assignment) (success : Bool) (now : Instant) :
    (s.settle a success now).workers = s.workers := by
  cases success <;> rfl

theorem updated_get? (h : s.Keyed) (id : String) (u : WorkerUpdate) (now : Instant) (k : String) :
    (s.updated id u now).workers.get? k =
      if id = k then some ((s.worker id now).update u now) else s.workers.get? k := by
  have hid : ((s.worker id now).update u now).id = id := (h.worker id now).1
  rw [updated, Scheduler.put, Dict.get?_insert, hid]

theorem withdrawn_get? (id : String) (w : Worker) (k : String) :
    (s.withdrawn id w).workers.get? k = if id = k then none else s.workers.get? k :=
  Dict.get?_erase s.workers id k

theorem released_get? (h : s.Keyed) {id : String} {w : Worker} (hw : s.workers.get? id = some w)
    (taskId : String) (a : Assignment) (success : Bool) (now : Instant) (k : String) :
    (s.released taskId w a success now).workers.get? k =
      if id = k then some { w with assigned := w.assigned.erase taskId }
      else s.workers.get? k := by
  have hid : w.id = id := (h id w hw).1
  rw [released, settle_workers, Scheduler.put, Dict.get?_insert]
  exact if_congr (by rw [← hid]) rfl rfl

theorem Keyed.prepared (h : s.Keyed) {op : Op} (hp : s.prepared? op = some t) : t.Keyed := by
  have hupdate : ∀ id u now, (s.updated id u now).Keyed := fun id u now =>
    h.put (h.worker id now).2
  cases op with
  | register id capacity priority now => exact Option.some.inj hp ▸ hupdate id _ now
  | heartbeat id u now => exact Option.some.inj hp ▸ hupdate id u now
  | unregister id now =>
    obtain ⟨w, -, rfl⟩ := Option.map_eq_some_iff.mp hp
    intro k v hv
    rw [withdrawn_get?] at hv
    split at hv
    · cases hv
    · exact h k v hv
  | submit => exact Option.some.inj hp ▸ h
  | complete id taskId success now =>
    obtain ⟨-, rfl⟩ | ⟨w, a, hh, rfl⟩ := prepared?_complete hp
    · exact h
    · have hw := (held?_eq_some.mp hh).1
      obtain ⟨hid, hf⟩ := h id w hw
      intro k v hv
      rw [released_get? h hw] at hv
      split at hv
      · next hk =>
        cases hv
        exact ⟨hid.trans hk, hf.erase taskId⟩
      · exact h k v hv
  | status => cases hp

theorem Keyed.bestWorker (h : s.Keyed) {w : Worker} (hw : bestWorker? s.workers = some w) :
    s.workers.get? w.id = some w ∧ w.Filed ∧ w.hasCapacity = true := by
  obtain ⟨hmem, hcap⟩ := bestWorker?_spec hw
  obtain ⟨k, hk⟩ := Dict.mem_values.mp hmem
  obtain ⟨hid, hf⟩ := h k w hk
  exact ⟨hid ▸ hk, hf, hcap⟩

theorem Keyed.assign (h : s.Keyed) {now : Instant} {a : Assignment}
    (hs : s.assign? now = some (a, t)) : t.Keyed := by
  obtain ⟨j, rest, w, -, hw, rfl, rfl⟩ := assign?_eq_some hs
  have hkeep : Keyed { s with pending := rest, distributed := s.distributed + 1 } := h
  exact hkeep.put ((h.bestWorker hw).2.1.take rfl)

theorem Keyed.apply (h : s.Keyed) (op : Op) : (s.apply op).Keyed :=
  apply_invariant (fun _ => h.prepared) (fun _ _ _ _ hs => hs.assign) h

theorem keyed_run (ops : List Op) : (empty.run ops).Keyed :=
  run_invariant (fun _ op h => h.apply op) keyed_empty ops

end Scheduler

end AgentMesh
