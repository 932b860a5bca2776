import AgentMesh.Proofs.Scheduler.Capacity
import AgentMesh.Proofs.Scheduler.Latency

/-!
Signals of workers. Each of them is followed by a sweep, which finds nothing to do where no room was made;
so a completion of what is not held, the removal of an unknown worker and a mere sign of life leave all
else as it is, and a completion takes one job from its worker and is counted once
(`Scheduler.signals_exact`). The latencies kept are those of the latest successful jobs.
-/

namespace AgentMesh.Scheduler

variable {s : Scheduler} {id : String} {w : Worker}

theorem Exhausted.sweep (h : s.Exhausted) (now : Instant) : s.sweep now = (s, []) :=
  sweep_of_none (assign?_eq_none_iff.mpr h)

theorem Exhausted.insert (h : s.Exhausted) (hw : s.workers.get? id = some w) {v : Worker}
    (hroom : v.hasCapacity = w.hasCapacity) :
    Exhausted { s with workers := s.workers.insert id v } := by
  refine h.imp_right fun hfull u hu => ?_
  obtain ⟨k, hk⟩ := Dict.mem_values.mp hu
  rw [Dict.get?_insert] at hk
  split at hk
  · rw [← Option.some.inj hk, hroom]
    exact hfull w (Dict.mem_values.mpr ⟨id, hw⟩)
  · exact hfull u (Dict.mem_values.mpr ⟨k, hk⟩)

theorem keepLatency_eq {l : List Nat} (h : l.length ≤ latencyWindow) (latency : Nat) :
    keepLatency l latency = (l ++ [latency]).drop (l.length + 1 - latencyWindow) := by
  have hkept := keepLatency_latest l latency
  rw [latest_of_length_le h] at hkept
  rw [hkept, latest, List.length_append, List.length_singleton]

theorem latencies_run (ops : List Op) : (empty.run ops).latencies.length ≤ latencyWindow := by
  rw [latencies_eq, length_latest]
  exact Nat.min_le_left _ _

theorem released_eq (hid : w.id = id) (taskId : String) (a : Assignment) (success : Bool)
    (now : Instant) :
    s.released taskId w a success now =
      { s with
        workers := s.workers.insert id { w with assigned := w.assigned.erase taskId }
        completed := if success then s.completed + 1 else s.completed
        failed := if success then s.failed else s.failed + 1
        latencies :=
          if success then keepLatency s.latencies (Instant.elapsed a.createdAt now)
          else s.latencies } := by
  subst hid
  cases success <;> rfl

theorem heartbeat_of_known (hk : s.Keyed) (h : s.Exhausted) (hw : s.workers.get? id = some w)
    (now : Instant) :
    s.heartbeat id ⟨none, none, none⟩ now =
      ({ s with workers := s.workers.insert id { w with lastHeartbeat := now } },
        { w with lastHeartbeat := now }) := by
  let s' : Scheduler := { s with workers := s.workers.insert id { w with lastHeartbeat := now } }
  have hupdated : s.updated id ⟨none, none, none⟩ now = s' := by
    have hworker : s.worker id now = w := by rw [worker, hw]; rfl
    rw [updated, hworker, put, show (w.update ⟨none, none, none⟩ now).id = id from (hk id w hw).1]
    rfl
  have hrest : s'.Exhausted := h.insert hw rfl
  have hsame : s'.worker id now = { w with lastHeartbeat := now } := by
    rw [worker, Dict.get?_insert_self]
    rfl
  change (((s.updated id ⟨none, none, none⟩ now).sweep now).1,
    ((s.updated id ⟨none, none, none⟩ now).sweep now).1.worker id now) = _
  rw [hupdated, hrest.sweep, hsame]

/-- Along any operations, at any time: a completion that finds nothing to complete and the removal of an
unknown worker change nothing at all, and a sign of life of a known worker only the time of its last one.
A completion takes the one job from its worker before the sweep and is counted among the completed or
among the failed; a successful one, and no other, adds its latency to the latest ones. -/
theorem signals_exact (ops : List Op) (id taskId : String) (success : Bool) (now : Instant) :
    let s := empty.run ops
    let ended := s.complete id taskId success now
    let gone := s.unregister id now
    (ended.2 = none → ended.1 = s) ∧
    (gone.2 = none → gone.1 = s) ∧
    (∀ w, s.workers.get? id = some w →
      (s.heartbeat id ⟨none, none, none⟩ now).1 =
        { s with workers := s.workers.insert id { w with lastHeartbeat := now } }) ∧
    ∀ a, ended.2 = some a →
      ∃ w, s.workers.get? id = some w ∧ w.assigned.get? taskId = some a ∧
        ended.1.completed = (if success then s.completed + 1 else s.completed) ∧
        ended.1.failed = (if success then s.failed else s.failed + 1) ∧
        ended.1.latencies =
          (if success then
            (s.latencies ++ [Instant.elapsed a.createdAt now]).drop
              (s.latencies.length + 1 - latencyWindow)
          else s.latencies) ∧
        ended.1 =
          (sweep
            { s with
              workers := s.workers.insert id { w with assigned := w.assigned.erase taskId }
              completed := ended.1.completed
              failed := ended.1.failed
              latencies := ended.1.latencies } now).1 := by
  intro s ended gone
  have hk : s.Keyed := keyed_run ops
  have hrest : s.Exhausted := exhausted_run ops
  refine ⟨fun hnone => ?_, fun hnone => ?_, fun w hw => ?_, fun a ha => ?_⟩
  · cases hh : s.held? id taskId with
    | none =>
      change (s.complete id taskId success now).1 = s
      rw [complete_of_none hh, hrest.sweep]
    | some x =>
      change (s.complete id taskId success now).2 = none at hnone
      rw [complete_of_some hh] at hnone
      cases hnone
  · change (s.unregister id now).1 = s
    change (s.unregister id now).2 = none at hnone
    simp only [unregister] at hnone ⊢
    cases hw : s.workers.get? id with
    | none => rfl
    | some w => simp [hw] at hnone
  · exact congrArg Prod.fst (heartbeat_of_known hk hrest hw now)
  · cases hh : s.held? id taskId with
    | none =>
      change (s.complete id taskId success now).2 = some a at ha
      rw [complete_of_none hh] at ha
      cases ha
    | some x =>
      obtain ⟨w, b⟩ := x
      obtain ⟨hw, hb⟩ := held?_eq_some.mp hh
      have hended : ended = (((s.released taskId w b success now).sweep now).1, some b) :=
        complete_of_some hh success now
      rw [hended] at ha ⊢
      obtain rfl := Option.some.inj ha
      rw [released_eq (hk id w hw).1, keepLatency_eq (latencies_run ops)]
      exact ⟨w, hw, hb, rfl, rfl, rfl, rfl⟩

/-- While a job waits, one that was completed before is completed again, and an unknown worker is removed;
then the job in hand is completed, and the one that waits comes after it. -/
theorem signals_exact_repeated :
    let now := Instant.ofNanos 0
    let later := Instant.ofNanos 5
    let submit (taskId : String) : Op := .submit taskId Dict.empty 0 Dict.empty now
    let ops : List Op :=
      [.register "a" 1 0 now, submit "t", submit "u", submit "v", .complete "a" "t" true later]
    let s := empty.run ops
    s.pending.size = 1 ∧ (s.complete "a" "t" true later).1 = s ∧ (s.unregister "b" later).1 = s ∧
      (∃ w, s.workers.get? "a" = some w ∧ (s.heartbeat "a" ⟨none, none, none⟩ later).1 =
        { s with workers := s.workers.insert "a" { w with lastHeartbeat := later } }) ∧
      ∃ a, (s.complete "a" "u" true later).2 = some a ∧
        (s.complete "a" "u" true later).1.completed = s.completed + 1 ∧
        (s.complete "a" "u" true later).1.latencies = [5, 5] := by
  intro now later submit ops s
  obtain ⟨hagain, -, halive, -⟩ := signals_exact ops "a" "t" true later
  obtain ⟨-, hgone, -, -⟩ := signals_exact ops "b" "t" true later
  obtain ⟨-, -, -, hended⟩ := signals_exact ops "a" "u" true later
  have ha : (s.workers.get? "a").isSome := by decide
  have hu : (s.complete "a" "u" true later).2.map Assignment.createdAt = some now := by decide
  obtain ⟨w, hw⟩ := Option.isSome_iff_exists.mp ha
  obtain ⟨a, ha, hnow⟩ := Option.map_eq_some_iff.mp hu
  obtain ⟨v, -, -, hcompleted, -, hlatencies, -⟩ := hended a ha
  have hs : empty.run ops = s := rfl
  have hkept : s.latencies = [5] := by decide
  rw [hs, if_pos rfl] at hcompleted
  rw [hs, if_pos rfl, hnow, hkept] at hlatencies
  exact ⟨by decide, hagain (by decide), hgone (by decide), ⟨w, hw, halive w hw⟩, a, ha, hcompleted,
    hlatencies⟩

end AgentMesh.Scheduler
