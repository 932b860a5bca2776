import AgentMesh.Proofs.Scheduler.Identity
import AgentMesh.Proofs.Time.Order

/-!
The latest latencies. Each job that ends with success adds the time since its submission, and what is kept
of a history that grows are its latest entries (`Scheduler.keepLatency_latest`); so after every run the
latencies are those of the latest successes, oldest first (`Scheduler.latencies_recent`).
-/

namespace AgentMesh

namespace Scheduler

/-- The latest entries of a history, as many as are kept. -/
def latest (history : List Nat) : List Nat := history.drop (history.length - latencyWindow)

def successes (s : Scheduler) (op : Op) : List (Assignment × Instant) :=
  (s.ended true op).map fun a => (a, op.now)

def latency (x : Assignment × Instant) : Nat := Instant.elapsed x.1.createdAt x.2

variable {s p : Scheduler} {op : Op} {jobs : List Job}

theorem latest_of_length_le {l : List Nat} (h : l.length ≤ latencyWindow) : latest l = l := by
  rw [latest, Nat.sub_eq_zero_of_le h, List.drop_zero]

theorem length_latest (l : List Nat) : (latest l).length = min latencyWindow l.length := by
  rw [latest, List.length_drop]
  omega

theorem keepLatency_latest (l : List Nat) (n : Nat) :
    keepLatency (latest l) n = latest (l ++ [n]) := by
  have hpos : 0 < latencyWindow := by decide
  have hlength := length_latest l
  by_cases hfull : latencyWindow ≤ l.length
  · have hshift : l.length + 1 - latencyWindow = l.length - latencyWindow + 1 := by omega
    have hle : l.length - latencyWindow + 1 ≤ l.length := by omega
    rw [keepLatency, if_pos (by omega), latest, List.drop_drop, latest, List.length_append,
      List.length_singleton, hshift, List.drop_append_of_le_length hle]
  · rw [keepLatency, if_neg (by omega), latest_of_length_le (by omega),
      latest_of_length_le (by simp; omega)]

theorem foldl_keepLatency (l more : List Nat) :
    more.foldl keepLatency (latest l) = latest (l ++ more) := by
  induction more generalizing l with
  | nil => rw [List.append_nil, List.foldl_nil]
  | cons n rest ih =>
    rw [List.foldl_cons, keepLatency_latest, ih, List.append_assoc, List.singleton_append]

theorem latencies_prepared (hp : s.prepared? op = some p) :
    p.latencies = ((s.successes op).map latency).foldl keepLatency s.latencies := by
  cases op with
  | register | heartbeat | submit =>
    cases hp
    rfl
  | unregister =>
    obtain ⟨w, -, rfl⟩ := Option.map_eq_some_iff.mp hp
    rfl
  | complete id taskId success now =>
    rw [successes, ended_complete]
    obtain ⟨hh, rfl⟩ | ⟨w, a, hh, rfl⟩ := prepared?_complete hp
    · simp [hh]
    · rw [hh]
      cases success <;> rfl
  | status => cases hp

theorem successes_of_unprepared (hp : s.prepared? op = none) : s.successes op = [] := by
  cases op with
  | complete => cases hp
  | register | heartbeat | unregister | submit | status => rfl

theorem latencies_apply (s : Scheduler) (op : Op) :
    (s.apply op).latencies = ((s.successes op).map latency).foldl keepLatency s.latencies := by
  rw [apply_eq]
  cases hp : s.prepared? op with
  | none =>
    rw [successes_of_unprepared hp]
    rfl
  | some p =>
    change p.latencies = _
    exact latencies_prepared hp

theorem latencies_foldl (s : Scheduler) (ops : List Op) :
    (s.run ops).latencies = ((gather successes s ops).map latency).foldl keepLatency s.latencies := by
  induction ops generalizing s with
  | nil => rfl
  | cons op rest ih =>
    rw [gather, List.map_append, List.foldl_append, ← latencies_apply]
    exact ih (s.apply op)

theorem latencies_eq (ops : List Op) :
    (empty.run ops).latencies = latest ((gather successes empty ops).map latency) :=
  (latencies_foldl empty ops).trans (foldl_keepLatency [] _)

theorem completed_apply (hk : s.Keyed) (op : Op) :
    (s.apply op).completed = s.completed + (s.successes op).length := by
  rw [apply_eq]
  cases hp : s.prepared? op with
  | none =>
    rw [successes_of_unprepared hp]
    rfl
  | some p =>
    rw [successes, List.length_map]
    exact (balance_prepared hk hp).completed

theorem completed_run (hk : s.Keyed) (ops : List Op) :
    (s.run ops).completed = s.completed + (gather successes s ops).length := by
  induction ops generalizing s with
  | nil => rfl
  | cons op rest ih =>
    rw [gather, List.length_append, ← Nat.add_assoc, ← completed_apply hk]
    exact ih (hk.apply op)

theorem mem_unfinished_of_successes {x : Assignment × Instant} (hx : x ∈ s.successes op) :
    x.1.toJob ∈ s.unfinished := by
  obtain ⟨a, ha, rfl⟩ := List.mem_map.mp hx
  cases op with
  | complete id taskId success now =>
    rw [ended_complete] at ha
    split at ha
    · obtain ⟨⟨w, b⟩, hh, rfl⟩ := Option.map_eq_some_iff.mp (Option.mem_toList.mp ha)
      obtain ⟨hw, hb⟩ := held?_eq_some.mp hh
      exact List.mem_append_right _ (List.mem_map_of_mem (mem_held hw hb))
    · cases ha
  | register | heartbeat | unregister | submit | status => cases ha

theorem submitted_of_successes (ops : List Op) {x : Assignment × Instant}
    (hx : x ∈ gather successes empty ops) :
    (gather submitted empty ops)[x.1.seq]? = some x.1.toJob := by
  induction ops using List.reverseRecOn with
  | nil => cases hx
  | append_singleton ops op ih =>
    rw [gather_concat] at hx ⊢
    have hold : (gather submitted empty ops)[x.1.seq]? = some x.1.toJob := by
      rcases List.mem_append.mp hx with hx | hx
      · exact ih hx
      · exact ((traced_run ops).getElem? (mem_unfinished_of_successes hx)).2
    rw [List.getElem?_append_left (List.getElem?_eq_some_iff.mp hold).1, hold]

/-- Along any operations the latencies are those of the latest 200 successes, or of all if they are fewer,
oldest first. Each runs from the submission of the job, however often it was handed out since, to its end,
and is zero if the clock went back behind the submission. What fails, and what is not held when it is
completed, adds nothing. -/
theorem latencies_recent (ops : List Op) :
    let s := empty.run ops
    let jobs := gather submitted empty ops
    let done := gather successes empty ops
    s.completed = done.length ∧ s.latencies.length = min 200 s.completed ∧
    s.latencies = (done.drop (s.completed - 200)).map latency ∧
    (∀ x ∈ done, jobs[x.1.seq]? = some x.1.toJob ∧
      (latency x : ℤ) = max 0 (x.2.nanosSince x.1.createdAt)) ∧
    ∀ id taskId success now, success = false ∨ s.held? id taskId = none →
      (s.complete id taskId success now).1.latencies = s.latencies := by
  intro s jobs done
  have hcompleted : s.completed = done.length :=
    (completed_run keyed_empty ops).trans (Nat.zero_add done.length)
  have hlatest : s.latencies = latest (done.map latency) := latencies_eq ops
  refine ⟨hcompleted, ?_, ?_,
    fun x hx => ⟨submitted_of_successes ops hx, Instant.elapsed_eq_max _ _⟩,
    fun id taskId success now hnone => ?_⟩
  · rw [hlatest, length_latest, List.length_map, hcompleted]
    rfl
  · rw [hlatest, latest, List.length_map, hcompleted, List.map_drop]
    rfl
  · have happly := latencies_apply s (.complete id taskId success now)
    rcases hnone with rfl | hh
    · exact happly
    · rwa [successes, ended_complete, hh, Option.map_none, Option.toList_none, ite_self] at happly

/-- The first of two workers leaves, and its job, submitted at the time 10, comes to the second one; it is
completed at 40 and, when that worker has no such job any more, again at 50. Another job fails, and a third
is completed while the clock has gone back. -/
theorem latencies_recent_requeued :
    let at_ := Instant.ofNanos
    let submit (taskId : String) (time : Int) : Op :=
      .submit taskId Dict.empty 0 Dict.empty (at_ time)
    let ops : List Op :=
      [.register "a" 1 0 (at_ 5), submit "t" 10, .register "b" 3 0 (at_ 20), .unregister "a" (at_ 30),
       submit "u" 30, submit "v" 30, .complete "b" "t" true (at_ 40), .complete "b" "t" true (at_ 50),
       .complete "b" "u" false (at_ 60), .complete "b" "v" true (at_ 20)]
    let s := empty.run ops
    let jobs := gather submitted empty ops
    s.completed = 2 ∧ s.latencies = [30, 0] ∧
      ∃ x ∈ gather successes empty ops, jobs[x.1.seq]? = some x.1.toJob ∧ x.1.assignedAt = at_ 30 ∧
        (30 : ℤ) = max 0 (x.2.nanosSince x.1.createdAt) := by
  intro at_ submit ops s jobs
  obtain ⟨-, -, hlatencies, hdone, -⟩ := latencies_recent ops
  have hcompleted : s.completed = 2 := by decide
  have hvalues : (gather successes empty ops).map latency = [30, 0] := by decide
  have hfirst : (gather successes empty ops)[0]?.map (fun x => x.1.assignedAt) = some (at_ 30) := by
    decide
  obtain ⟨x, hx, hassigned⟩ := Option.map_eq_some_iff.mp hfirst
  have hlatency : latency x = 30 := by
    have h := congrArg (·[0]?) hvalues
    rw [List.getElem?_map, hx] at h
    exact Option.some.inj h
  have hmem := List.mem_of_getElem? hx
  obtain ⟨hjob, hexact⟩ := hdone x hmem
  rw [hlatency] at hexact
  rw [hcompleted, Nat.sub_eq_zero_of_le (by omega), List.drop_zero, hvalues] at hlatencies
  exact ⟨hcompleted, hlatencies, x, hmem, hjob, hassigned, hexact⟩

end Scheduler

end AgentMesh
