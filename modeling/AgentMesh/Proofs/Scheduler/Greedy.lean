import AgentMesh.Proofs.Scheduler.Capacity
import AgentMesh.Proofs.Scheduler.Precedence
import Mathlib.Algebra.Order.Field.Basic
import Mathlib.Algebra.Order.Field.Rat
import Mathlib.Data.Multiset.ZeroCons
import Mathlib.Data.String.Basic

/-!
A sweep against a reference. The reference (`Scheduler.Greedy`) knows its workers and jobs in no order:
it hands the first of all jobs to the first of all workers that have room, by exact quotients, and goes
on with what is left. It leaves no choice (`Scheduler.Greedy.unique`) and a sweep follows it
(`Scheduler.greedy_sweep`), so it does not matter in which order a sweep looks at the workers
(`Scheduler.leastOf_congr`).
-/

namespace AgentMesh

theorem cons_inj_of_key_lt {α β : Type} [Preorder β] {P : α → Prop} (key : α → β) {a b : α}
    {s t : Multiset α} (h : a ::ₘ s = b ::ₘ t) (hpa : P a) (hpb : P b)
    (ha : ∀ x ∈ s, P x → key a < key x) (hb : ∀ x ∈ t, P x → key b < key x) :
    a = b ∧ s = t := by
  rcases Multiset.cons_eq_cons.mp h with heq | ⟨-, u, hs, ht⟩
  · exact heq
  · have hab : key a < key b := ha b (hs ▸ Multiset.mem_cons_self b u) hpb
    have hba : key b < key a := hb a (ht ▸ Multiset.mem_cons_self a u) hpa
    exact absurd hab hba.asymm

namespace Worker

/-- Whether a worker may be handed a job. Capacity zero counts as one. -/
def Free (w : Worker) : Prop := w.active = true ∧ w.assigned.size < max 1 w.capacity

/-- How busy a worker is: what it holds to its capacity, and one where that is zero. -/
def busy (w : Worker) : ℚ := if w.capacity = 0 then 1 else w.assigned.size / w.capacity

/-- The order in which workers come: the less busy, then that of higher priority, then that of the
lower identifier. -/
def rank (w : Worker) : Lex (ℚ × Lex (ℤᵒᵈ × String)) :=
  toLex (w.busy, toLex (OrderDual.toDual w.priority, w.id))

theorem load_pos (w : Worker) : 0 < w.load.2 := by
  unfold load
  split
  · exact Nat.one_pos
  · omega

theorem busy_eq (w : Worker) : w.busy = (w.load.1 : ℚ) / w.load.2 := by
  by_cases h : w.capacity = 0 <;> simp [busy, load, h]

theorem lessBusy_iff {a b : Worker} : a.lessBusy b = true ↔ a.busy < b.busy := by
  have ha : (0 : ℚ) < a.load.2 := Nat.cast_pos.mpr a.load_pos
  have hb : (0 : ℚ) < b.load.2 := Nat.cast_pos.mpr b.load_pos
  rw [lessBusy, decide_eq_true_iff, busy_eq, busy_eq, div_lt_div_iff₀ ha hb]
  exact_mod_cast Iff.rfl

theorem equallyBusy_iff {a b : Worker} : a.equallyBusy b = true ↔ a.busy = b.busy := by
  have ha : (a.load.2 : ℚ) ≠ 0 := Nat.cast_ne_zero.mpr a.load_pos.ne'
  have hb : (b.load.2 : ℚ) ≠ 0 := Nat.cast_ne_zero.mpr b.load_pos.ne'
  rw [equallyBusy, decide_eq_true_iff, busy_eq, busy_eq, div_eq_div_iff ha hb]
  exact_mod_cast Iff.rfl

theorem preferred_iff {a b : Worker} : a.preferred b = true ↔ a.rank ≤ b.rank := by
  simp only [preferred, rank, Prod.Lex.toLex_le_toLex, Bool.or_eq_true, Bool.and_eq_true,
    decide_eq_true_eq, lessBusy_iff, equallyBusy_iff, OrderDual.toDual_lt_toDual,
    EmbeddingLike.apply_eq_iff_eq]

theorem id_eq_of_rank {a b : Worker} (h : a.rank = b.rank) : a.id = b.id :=
  congrArg (fun r => (ofLex (ofLex r).2).2) h

end Worker

namespace Scheduler

/-- Jobs handed out as they should be: each to the first of all workers that have room, and each the
first of all that wait, until jobs or room run out. -/
inductive Greedy (now : Instant) : Multiset Worker → Multiset Job → List Assignment →
    Multiset Worker → Multiset Job → Prop
  | stop {pool : Multiset Worker} {jobs : Multiset Job}
      (hstop : jobs = 0 ∨ ∀ w ∈ pool, ¬w.Free) : Greedy now pool jobs [] pool jobs
  | turn {pool others pool' : Multiset Worker} {jobs rest jobs' : Multiset Job} {w : Worker}
      {j : Job} {made : List Assignment}
      (hpool : pool = w ::ₘ others) (hfree : w.Free)
      (hfirst : ∀ v ∈ others, v.Free → w.rank < v.rank)
      (hjobs : jobs = j ::ₘ rest) (hleast : ∀ i ∈ rest, j.key < i.key)
      (hmore : Greedy now
        ({ w with
            assigned := w.assigned.insert j.taskId (Assignment.ofJob j w.id now)
            lastHeartbeat := now } ::ₘ others) rest made pool' jobs') :
      Greedy now pool jobs (Assignment.ofJob j w.id now :: made) pool' jobs'

variable {s p : Scheduler} {now : Instant} {jobs : List Job} {w v : Worker}

theorem Greedy.unique {pool pool₁ pool₂ : Multiset Worker} {jobs jobs₁ jobs₂ : Multiset Job}
    {made₁ made₂ : List Assignment} (h₁ : Greedy now pool jobs made₁ pool₁ jobs₁)
    (h₂ : Greedy now pool jobs made₂ pool₂ jobs₂) :
    made₁ = made₂ ∧ pool₁ = pool₂ ∧ jobs₁ = jobs₂ := by
  induction h₁ generalizing made₂ pool₂ jobs₂ with
  | stop hstop =>
    cases h₂ with
    | stop => exact ⟨rfl, rfl, rfl⟩
    | turn hpool hfree hfirst hjobs =>
      rcases hstop with hnone | hfull
      · exact absurd (hjobs.symm.trans hnone) (Multiset.cons_ne_zero)
      · exact absurd hfree (hfull _ (hpool ▸ Multiset.mem_cons_self _ _))
  | turn hpool hfree hfirst hjobs hleast hmore ih =>
    cases h₂ with
    | stop hstop =>
      rcases hstop with hnone | hfull
      · exact absurd (hjobs.symm.trans hnone) (Multiset.cons_ne_zero)
      · exact absurd hfree (hfull _ (hpool ▸ Multiset.mem_cons_self _ _))
    | turn hpool₂ hfree₂ hfirst₂ hjobs₂ hleast₂ hmore₂ =>
      obtain ⟨rfl, rfl⟩ := cons_inj_of_key_lt Worker.rank (hpool.symm.trans hpool₂) hfree hfree₂
        hfirst hfirst₂
      obtain ⟨rfl, rfl⟩ := cons_inj_of_key_lt (P := fun _ => True) Job.key
        (hjobs.symm.trans hjobs₂) trivial trivial (fun i hi _ => hleast i hi)
        (fun i hi _ => hleast₂ i hi)
      obtain ⟨rfl, rfl, rfl⟩ := ih hmore₂
      exact ⟨rfl, rfl, rfl⟩

def leastOf (l : List Worker) : Option Worker :=
  (l.filter Worker.hasCapacity).foldr (fun w best => some (better w best)) none

theorem rank_better_le (w : Worker) (best : Option Worker) :
    (better w best).rank ≤ w.rank ∧ ∀ u ∈ best, (better w best).rank ≤ u.rank := by
  cases best with
  | none => exact ⟨le_rfl, fun u hu => nomatch hu⟩
  | some x =>
    have htotal : w.rank ≤ x.rank ∨ x.rank ≤ w.rank := le_total _ _
    by_cases hp : w.preferred x = true
    · simpa [better, hp] using Worker.preferred_iff.mp hp
    · simpa [better, hp] using htotal.resolve_left fun hle => hp (Worker.preferred_iff.mpr hle)

theorem rank_le_of_foldr_better {l : List Worker}
    (h : l.foldr (fun w best => some (better w best)) none = some w) (hv : v ∈ l) :
    w.rank ≤ v.rank := by
  induction l generalizing w v with
  | nil => cases hv
  | cons x r ih =>
    rw [List.foldr_cons, Option.some.injEq] at h
    obtain ⟨hx, hbest⟩ := rank_better_le x (r.foldr (fun w best => some (better w best)) none)
    rw [h] at hx hbest
    rcases List.mem_cons.mp hv with rfl | hr
    · exact hx
    · obtain ⟨u, hu⟩ : ∃ u, r.foldr (fun w best => some (better w best)) none = some u := by
        cases r with
        | nil => cases hr
        | cons y t => exact ⟨_, rfl⟩
      exact (hbest u hu).trans (ih hu hr)

theorem Keyed.eq_of_id (hk : s.Keyed) (hv : v ∈ s.workers.values) (hw : w ∈ s.workers.values)
    (hid : v.id = w.id) : v = w := by
  obtain ⟨k, hvk⟩ := Dict.mem_values.mp hv
  obtain ⟨k', hwk⟩ := Dict.mem_values.mp hw
  have hkey : k = k' := (hk k v hvk).1.symm.trans (hid.trans (hk k' w hwk).1)
  rw [hkey, hwk] at hvk
  exact (Option.some.inj hvk).symm

theorem leastOf_congr (hk : s.Keyed) {l : List Worker} (hl : l.Perm s.workers.values) :
    leastOf l = bestWorker? s.workers := by
  have hfree : (l.filter Worker.hasCapacity).Perm (s.workers.values.filter Worker.hasCapacity) :=
    hl.filter _
  cases hbest : bestWorker? s.workers with
  | none =>
    have hnone : s.workers.values.filter Worker.hasCapacity = [] := by
      rw [List.filter_eq_nil_iff]
      simpa using bestWorker?_eq_none_iff.mp hbest
    rw [hnone] at hfree
    rw [leastOf, hfree.eq_nil]
    rfl
  | some w =>
    have hw := bestWorker?_spec hbest
    have hwl : w ∈ l.filter Worker.hasCapacity :=
      hfree.mem_iff.mpr (List.mem_filter.mpr hw)
    cases hleast : leastOf l with
    | none =>
      rw [leastOf] at hleast
      cases hf : l.filter Worker.hasCapacity with
      | nil => simp [hf] at hwl
      | cons x r => simp [hf] at hleast
    | some v =>
      have hv : v ∈ l.filter Worker.hasCapacity := mem_of_foldr_better hleast
      have hvs := List.mem_filter.mp (hfree.mem_iff.mp hv)
      have hwv : w.rank ≤ v.rank := rank_le_of_foldr_better hbest (List.mem_filter.mpr hvs)
      have hvw : v.rank ≤ w.rank := rank_le_of_foldr_better hleast hwl
      exact congrArg some (hk.eq_of_id hvs.1 hw.1 (Worker.id_eq_of_rank (hvw.antisymm hwv)))

theorem Keyed.rank_lt_of_bestWorker (hk : s.Keyed) (hw : bestWorker? s.workers = some w)
    (hv : v ∈ (s.workers.erase w.id).values) (hfree : v.Free) : w.rank < v.rank := by
  obtain ⟨k, hvk⟩ := Dict.mem_values.mp hv
  rw [Dict.get?_erase] at hvk
  split at hvk
  · cases hvk
  · next hne =>
    have hid : v.id = k := (hk k v hvk).1
    have hmem : v ∈ s.workers.values.filter Worker.hasCapacity :=
      List.mem_filter.mpr ⟨Dict.mem_values.mpr ⟨k, hvk⟩, Worker.hasCapacity_iff.mpr hfree⟩
    have hle : w.rank ≤ v.rank := rank_le_of_foldr_better hw hmem
    exact hle.lt_of_ne fun he => hne ((Worker.id_eq_of_rank he).trans hid)

theorem Traced.key_lt_of_pending (ht : s.Traced jobs) {j : Job} {rest : List Job}
    (hj : s.pending.jobs = j :: rest) : ∀ i ∈ rest, j.key < i.key := by
  intro i hi
  have hordered := s.pending.ordered
  rw [hj] at hordered
  have hle : j.key ≤ i.key := Job.le_iff.mp ((List.pairwise_cons.mp hordered).1 i hi)
  have hnumbers : ((j :: rest).map Job.seq).Nodup := hj ▸ ht.nodup_pending
  have hne : j.seq ≠ i.seq := fun he =>
    (List.nodup_cons.mp hnumbers).1 (he ▸ List.mem_map_of_mem hi)
  exact hle.lt_of_ne fun he => hne (congrArg (fun key => (ofLex (ofLex key).2).2) he)

theorem greedy_sweep (hk : s.Keyed) (ht : s.Traced jobs) :
    Greedy now s.workers.values s.pending.jobs (s.sweep now).2
      (s.sweep now).1.workers.values (s.sweep now).1.pending.jobs := by
  induction s using sweep_induction now with
  | stop s h =>
    rw [sweep_of_none h]
    refine .stop ((assign?_eq_none_iff.mp h).imp (fun hj => by rw [hj]; rfl) fun hfull w hw hfree => ?_)
    have hfalse := hfull w (Multiset.mem_coe.mp hw)
    rw [Worker.hasCapacity_iff.mpr hfree] at hfalse
    cases hfalse
  | turn s a t h ih =>
    have hrest := ih (hk.assign h) (ht.assign hk h)
    obtain ⟨j, rest, w, hj, hw, rfl, ht'⟩ := assign?_eq_some h
    obtain ⟨hget, -, hcap⟩ := hk.bestWorker hw
    rw [sweep_of_some h]
    have hpool : (s.workers.values : Multiset Worker) = w ::ₘ ↑(s.workers.erase w.id).values :=
      Multiset.coe_eq_coe.mpr (Dict.values_erase hget)
    have hpool' : (t.workers.values : Multiset Worker) =
        w.take (Assignment.ofJob j w.id now) ::ₘ ↑(s.workers.erase w.id).values := by
      rw [ht']
      exact Multiset.coe_eq_coe.mpr (Dict.values_insert s.workers w.id _)
    have hjobs : (s.pending.jobs : Multiset Job) = j ::ₘ ↑rest.jobs := by rw [hj]; rfl
    have hjobs' : t.pending.jobs = rest.jobs := by rw [ht']; rfl
    rw [hpool', hjobs'] at hrest
    exact .turn hpool (Worker.hasCapacity_iff.mp hcap)
      (fun v hv hfree => hk.rank_lt_of_bestWorker hw (Multiset.mem_coe.mp hv) hfree)
      hjobs (ht.key_lt_of_pending hj) hrest

theorem traced_of_reached (ops : List Op)
    (hp : p = empty.run ops ∨ ∃ op, (empty.run ops).prepared? op = some p) :
    p.Keyed ∧ ∃ jobs, p.Traced jobs := by
  rcases hp with rfl | ⟨op, hp⟩
  · exact ⟨keyed_run ops, _, traced_run ops⟩
  · exact ⟨(keyed_run ops).prepared hp, _, (traced_run ops).prepared (keyed_run ops) hp⟩

theorem full_of_rank_lt (hzero : w.capacity = 0) (hrank : v.Free → w.rank < v.rank)
    (hactive : v.active = true) (hpos : 0 < v.capacity) : v.capacity ≤ v.assigned.size := by
  by_contra hroom
  have hfree : v.Free := ⟨hactive, by omega⟩
  have hlt : v.busy < w.busy := by
    have hcap : (0 : ℚ) < v.capacity := Nat.cast_pos.mpr hpos
    rw [Worker.busy, Worker.busy, if_neg hpos.ne', if_pos hzero, div_lt_one hcap]
    exact_mod_cast Nat.not_le.mp hroom
  have hbefore : v.rank < w.rank := Prod.Lex.toLex_lt_toLex.mpr (Or.inl hlt)
  exact absurd (hrank hfree) hbefore.asymm

/-- From every scheduler that operations reach, also within an operation, a sweep makes the assignments of
the reference in their order and leaves the same workers and jobs. Whatever the order in which the
workers are looked at, each assignment goes to the same one; and a worker of capacity zero is handed a
job only when no active worker of a greater capacity has room. -/
theorem sweep_greedy (ops : List Op)
    (hp : p = empty.run ops ∨ ∃ op, (empty.run ops).prepared? op = some p) (now : Instant) :
    (∀ made pool jobs, Greedy now p.workers.values p.pending.jobs made pool jobs ↔
      made = (p.sweep now).2 ∧ pool = (p.sweep now).1.workers.values ∧
        jobs = (p.sweep now).1.pending.jobs) ∧
    ∀ k a, (p.sweep now).2[k]? = some a →
      ∃ w, (p.stage now k).workers.get? a.worker = some w ∧
        (∀ l : List Worker, l.Perm (p.stage now k).workers.values → leastOf l = some w) ∧
        (w.capacity = 0 → ∀ id v, (p.stage now k).workers.get? id = some v → v.active = true →
          0 < v.capacity → v.capacity ≤ v.assigned.size) := by
  obtain ⟨hk, jobs, ht⟩ := traced_of_reached ops hp
  refine ⟨fun made pool rest => ⟨fun h => h.unique (greedy_sweep hk ht), ?_⟩, fun k a ha => ?_⟩
  · rintro ⟨rfl, rfl, rfl⟩
    exact greedy_sweep hk ht
  · rw [getElem?_sweep] at ha
    obtain ⟨⟨b, t⟩, hb, rfl⟩ := Option.map_eq_some_iff.mp ha
    have hstage : (p.stage now k).Keyed := stage_invariant (fun _ _ _ h => h.assign) hk k
    obtain ⟨j, rest, w, -, hw, rfl, -⟩ := assign?_eq_some hb
    refine ⟨w, (hstage.bestWorker hw).1, fun l hl => (leastOf_congr hstage hl).trans hw,
      fun hzero id v hv hactive hpos => ?_⟩
    by_cases hid : w.id = id
    · rw [← hid, (hstage.bestWorker hw).1] at hv
      have hcapacity : v.capacity = 0 := Option.some.inj hv ▸ hzero
      omega
    · refine full_of_rank_lt hzero (fun hfree => hstage.rank_lt_of_bestWorker hw ?_ hfree) hactive hpos
      exact Dict.mem_values.mpr ⟨id, by rw [Dict.get?_erase, if_neg hid, hv]⟩

/-- The jobs of a removed worker go to two others, and the last one to a third of capacity zero, which
has the highest priority of all. -/
theorem sweep_greedy_requeued :
    let now := Instant.ofNanos 0
    let submit (taskId : String) : Op := .submit taskId Dict.empty 0 Dict.empty now
    let ops : List Op :=
      [.register "big" 8 0 now, submit "s", submit "t", submit "u", submit "v", submit "w",
       submit "x", submit "y", submit "z", .register "a" 2 0 now, .register "b" 4 1 now,
       .register "c" 0 9 now]
    let op : Op := .unregister "big" (Instant.ofNanos 5)
    ∃ p, (empty.run ops).prepared? op = some p ∧
      (p.sweep op.now).2.map Assignment.worker = ["b", "a", "b", "b", "a", "b", "c"] ∧
      Greedy op.now p.workers.values p.pending.jobs (p.sweep op.now).2
        (p.sweep op.now).1.workers.values (p.sweep op.now).1.pending.jobs ∧
      ∃ w, (p.stage op.now 6).workers.get? "c" = some w ∧ w.capacity = 0 ∧
        ∀ id v, (p.stage op.now 6).workers.get? id = some v → v.active = true → 0 < v.capacity →
          v.capacity ≤ v.assigned.size := by
  intro now submit ops op
  have hp : ((empty.run ops).prepared? op).map
      (fun p => ((p.sweep op.now).2.map Assignment.worker,
        ((p.stage op.now 6).workers.get? "c").map Worker.capacity)) =
      some (["b", "a", "b", "b", "a", "b", "c"], some 0) := by decide
  obtain ⟨p, hp, hmade⟩ := Option.map_eq_some_iff.mp hp
  obtain ⟨hworkers, hzero⟩ := Prod.mk.inj hmade
  have hlast : ((p.sweep op.now).2[6]?).map Assignment.worker = some "c" := by
    rw [← List.getElem?_map, hworkers]
    rfl
  obtain ⟨a, ha, hc⟩ := Option.map_eq_some_iff.mp hlast
  obtain ⟨hgreedy, hpicked⟩ := sweep_greedy ops (Or.inr ⟨op, hp⟩) op.now
  obtain ⟨w, hw, -, hfull⟩ := hpicked 6 a ha
  rw [hc] at hw
  have hcapacity : w.capacity = 0 := by simpa [hw] using hzero
  exact ⟨p, hp, hworkers, (hgreedy _ _ _).mpr ⟨rfl, rfl, rfl⟩, w, hw, hcapacity, hfull hcapacity⟩

end Scheduler

end AgentMesh
