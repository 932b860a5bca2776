import AgentMesh.Proofs.Consensus.Eviction
import AgentMesh.Proofs.Sorting
import AgentMesh.Proofs.Time.Order
import Mathlib.Data.List.Nodup
import Mathlib.Data.Prod.Lex
import Mathlib.Data.String.Basic

/-!
Which final ballots go, and how many. The surplus is the oldest of those that are not too old
(`Retention.rel_of_mem_surplus`), of which as many stay as the limit allows
(`Retention.length_staying`). By time and identifier those that are too old come before the surplus
(`Retention.pairwise_chosen`), so but for the one that is kept the oldest go
(`Retention.key_lt_of_not_chosen`), unless there are leap seconds: the age of what was fixed in one is
less by a second from the next day on. The order in which the ballots are listed does not matter.
-/

namespace AgentMesh

namespace Finished

def key (f : Finished) : Lex (Instant × String) := toLex (f.2, f.1)

theorem le_iff {a b : Finished} : Finished.le a b = true ↔ key a ≤ key b := by
  simp only [Finished.le, key, Prod.Lex.toLex_le_toLex, Bool.or_eq_true, Bool.and_eq_true,
    decide_eq_true_eq]

theorem nodup_key {l : List Finished} (hnd : (l.map (·.1)).Nodup) : (l.map key).Nodup :=
  nodup_map_of_part (fun k => (ofLex k).2) hnd

theorem pairwise_key_sortBy {l : List Finished} (hnd : (l.map (·.1)).Nodup) :
    (sortBy Finished.le l).Pairwise fun a b => key a < key b :=
  pairwise_lt_sortBy (fun _ _ => le_iff) (nodup_key hnd)

theorem sortBy_congr {l l' : List Finished} (hnd : (l.map (·.1)).Nodup) (hp : l'.Perm l) :
    sortBy Finished.le l' = sortBy Finished.le l :=
  AgentMesh.sortBy_congr (fun _ _ => le_iff) (nodup_key hnd) hp

end Finished

namespace Retention

/-- Whether a ballot is too old: its age is not negative and has reached the limit. -/
def Overdue (r : Retention) (now : Instant) (keep : Option String) (f : Finished) : Prop :=
  keep ≠ some f.1 ∧
    ∃ ttl ∈ r.ttl, 0 ≤ now.nanosSince f.2 ∧ (ttl : Int) ≤ now.nanosSince f.2

instance (r : Retention) (now : Instant) (keep : Option String) (f : Finished) :
    Decidable (r.Overdue now keep f) :=
  inferInstanceAs (Decidable (_ ∧ ∃ ttl ∈ r.ttl, _))

/-- None of the times lies in a leap second, as no time does that was read off the clock. -/
def Clocked (now : Instant) (l : List Finished) : Prop :=
  now.leap = false ∧ ∀ f ∈ l, f.2.leap = false

instance (now : Instant) (l : List Finished) : Decidable (Clocked now l) :=
  inferInstanceAs (Decidable (_ ∧ _))

/-- How many of a number of ballots are beyond the limit. -/
def excess (r : Retention) (n : Nat) : Nat := r.maxFinalized.elim 0 fun m => n - max 1 m

variable {r : Retention} {now : Instant} {keep : Option String} {l : List Finished}
  {f g : Finished} {m : Nat}

theorem isExpired_iff {ttl : Nat} (h : r.ttl = some ttl) :
    isExpired ttl now keep f = true ↔ r.Overdue now keep f := by
  simp only [isExpired, Overdue, h, Bool.and_eq_true, decide_eq_true_eq, Option.mem_def,
    Option.some.injEq, exists_eq_left']
  refine and_congr_right fun _ => ?_
  unfold Instant.elapsed
  omega

theorem isExpired_eq {ttl : Nat} (h : r.ttl = some ttl) :
    isExpired ttl now keep f = decide (r.Overdue now keep f) :=
  Bool.eq_iff_iff.mpr ((isExpired_iff h).trans decide_eq_true_iff.symm)

theorem not_overdue_of_none (h : r.ttl = none) : ¬r.Overdue now keep f := by simp [Overdue, h]

theorem expired_eq : r.expired now keep l = l.filter fun f => decide (r.Overdue now keep f) := by
  unfold expired
  cases h : r.ttl with
  | none => simp [not_overdue_of_none h]
  | some ttl => exact List.filter_congr fun f _ => isExpired_eq h

theorem surviving_eq :
    r.surviving now keep l = l.filter fun f => decide (¬r.Overdue now keep f) := by
  unfold surviving
  cases h : r.ttl with
  | none => simp [not_overdue_of_none h]
  | some ttl => exact List.filter_congr fun f _ => by rw [isExpired_eq h, decide_not]

theorem mem_expired_iff : f ∈ r.expired now keep l ↔ f ∈ l ∧ r.Overdue now keep f := by
  simp [expired_eq]

theorem mem_surviving_iff : f ∈ r.surviving now keep l ↔ f ∈ l ∧ ¬r.Overdue now keep f := by
  simp [surviving_eq]

theorem surplus_sublist : (r.surplus keep l).Sublist l := by
  unfold surplus
  split
  · exact List.nil_sublist l
  · exact (List.take_sublist _ _).trans List.filter_sublist

theorem expired_sublist : (r.expired now keep l).Sublist l := by
  rw [expired_eq]
  exact List.filter_sublist

theorem surplus_surviving_sublist : (r.surplus keep (r.surviving now keep l)).Sublist l :=
  surplus_sublist.trans surviving_sublist

theorem nodup_chosen (hnd : (l.map (·.1)).Nodup) : (r.chosen now keep l).Nodup := by
  have hsorted : (sortBy Finished.le l).Nodup :=
    (sortBy_perm Finished.le l).nodup_iff.mpr (List.Nodup.of_map _ hnd)
  refine List.nodup_append.mpr ⟨hsorted.sublist expired_sublist,
    hsorted.sublist surplus_surviving_sublist, fun f hf g hg he => ?_⟩
  exact (mem_surviving_iff.mp (surplus_sublist.subset hg)).2 (he ▸ (mem_expired_iff.mp hf).2)

/-- What is too old is older than all that is not, except for what is kept. -/
theorem key_lt_of_overdue (hc : Clocked now l) (hfl : f ∈ l) (hgl : g ∈ l)
    (hf : r.Overdue now keep f) (hg : ¬r.Overdue now keep g) (hkeep : keep ≠ some g.1) :
    f.key < g.key := by
  obtain ⟨-, ttl, httl, hage, hold⟩ := hf
  have hyoung : ¬(0 ≤ now.nanosSince g.2 ∧ (ttl : Int) ≤ now.nanosSince g.2) :=
    fun h => hg ⟨hkeep, ttl, httl, h⟩
  have hages : now.nanosSince g.2 < now.nanosSince f.2 := by omega
  exact Prod.Lex.toLex_lt_toLex.mpr
    (Or.inl (Instant.lt_of_nanosSince_lt (hc.2 f hfl) (hc.2 g hgl) hc.1 hages))

theorem pairwise_chosen (hnd : (l.map (·.1)).Nodup) (hc : Clocked now l) :
    (r.chosen now keep l).Pairwise fun a b => a.key < b.key := by
  have hsorted := Finished.pairwise_key_sortBy hnd
  have hmem : ∀ f, f ∈ sortBy Finished.le l ↔ f ∈ l := fun _ => (sortBy_perm Finished.le l).mem_iff
  refine List.pairwise_append.mpr ⟨hsorted.sublist expired_sublist,
    hsorted.sublist surplus_surviving_sublist, fun f hf g hg => ?_⟩
  obtain ⟨hfl, hold⟩ := mem_expired_iff.mp hf
  obtain ⟨hgs, hkeep⟩ := mem_surplus hg
  obtain ⟨hgl, hyoung⟩ := mem_surviving_iff.mp hgs
  exact key_lt_of_overdue hc ((hmem f).mp hfl) ((hmem g).mp hgl) hold hyoung hkeep

theorem rel_of_mem_surplus {R : Finished → Finished → Prop} (hl : l.Pairwise R)
    (hf : f ∈ r.surplus keep l) (hg : g ∈ l) (hstays : g ∉ r.surplus keep l)
    (hkeep : keep ≠ some g.1) : R f g := by
  unfold surplus at hf hstays
  cases hm : r.maxFinalized with
  | none => simp [hm] at hf
  | some m =>
    simp only [hm] at hf hstays
    have hothers : g ∈ l.filter fun f => decide (keep ≠ some f.1) :=
      List.mem_filter.mpr ⟨hg, decide_eq_true hkeep⟩
    rw [← List.take_append_drop (l.length - max 1 m)
      (l.filter fun f => decide (keep ≠ some f.1))] at hothers
    have hsplit := hl.filter fun f => decide (keep ≠ some f.1)
    rw [← List.take_append_drop (l.length - max 1 m)
      (l.filter fun f => decide (keep ≠ some f.1))] at hsplit
    exact (List.pairwise_append.mp hsplit).2.2 f hf g
      ((List.mem_append.mp hothers).resolve_left hstays)

theorem key_lt_of_not_chosen (hnd : (l.map (·.1)).Nodup) (hc : Clocked now l)
    (hf : f ∈ r.chosen now keep l) (hg : g ∈ l) (hstays : g ∉ r.chosen now keep l)
    (hkeep : keep ≠ some g.1) : f.key < g.key := by
  have hgs : g ∈ sortBy Finished.le l := (sortBy_perm Finished.le l).mem_iff.mpr hg
  have hyoung : ¬r.Overdue now keep g := fun hold =>
    hstays (List.mem_append_left _ (mem_expired_iff.mpr ⟨hgs, hold⟩))
  rcases List.mem_append.mp hf with hold | hmore
  · exact key_lt_of_overdue hc (mem_chosen hf).1 hg (mem_expired_iff.mp hold).2 hyoung hkeep
  · exact rel_of_mem_surplus ((Finished.pairwise_key_sortBy hnd).sublist surviving_sublist) hmore
      (mem_surviving_iff.mpr ⟨hgs, hyoung⟩) (fun h => hstays (List.mem_append_right _ h)) hkeep

theorem length_le_length_filter_ne (hnd : (l.map (·.1)).Nodup) (keep : Option String) :
    l.length ≤ (l.filter fun f => decide (keep ≠ some f.1)).length + 1 := by
  cases keep with
  | none => simp
  | some k =>
    have hone : (l.map (·.1)).count k ≤ 1 := List.nodup_iff_count_le_one.mp hnd k
    have hcount : (l.map (·.1)).count k = (l.filter fun f => !decide (some k ≠ some f.1)).length := by
      rw [List.count, List.countP_map, List.countP_eq_length_filter]
      refine congrArg List.length (List.filter_congr fun f _ => ?_)
      by_cases hk : k = f.1
      · simp [hk]
      · simp [hk, Ne.symm hk]
    have hall := List.length_eq_length_filter_add (l := l) fun f => decide (some k ≠ some f.1)
    omega

/-- What is kept is one of those that may stay, so the others make up the whole surplus. -/
theorem length_surplus (hnd : (l.map (·.1)).Nodup) :
    (r.surplus keep l).length = r.excess l.length := by
  have hle := length_le_length_filter_ne hnd keep
  unfold surplus excess
  cases r.maxFinalized with
  | none => rfl
  | some m =>
    simp only [List.length_take, Option.elim_some]
    omega

def young (r : Retention) (now : Instant) (keep : Option String) (l : List Finished) :
    List Finished :=
  l.filter fun f => decide (¬r.Overdue now keep f)

def staying (r : Retention) (now : Instant) (keep : Option String) (l : List Finished) :
    List Finished :=
  l.filter fun f => decide (f.1 ∉ r.selectEvictions l now keep)

theorem mem_selectEvictions_iff (hnd : (l.map (·.1)).Nodup) (hf : f ∈ l) :
    f.1 ∈ r.selectEvictions l now keep ↔ f ∈ r.chosen now keep l := by
  rw [selectEvictions_eq, List.mem_map]
  constructor
  · rintro ⟨g, hg, hid⟩
    rwa [List.inj_on_of_nodup_map hnd (mem_chosen hg).1 hf hid] at hg
  · exact fun h => ⟨f, h, rfl⟩

theorem mem_staying_iff (hnd : (l.map (·.1)).Nodup) :
    f ∈ r.staying now keep l ↔ f ∈ l ∧ f ∉ r.chosen now keep l := by
  rw [staying, List.mem_filter, decide_eq_true_iff]
  exact and_congr_right fun hf => not_congr (mem_selectEvictions_iff hnd hf)

theorem staying_append_chosen (hnd : (l.map (·.1)).Nodup) :
    (r.staying now keep l ++ r.chosen now keep l).Perm l := by
  have hl : l.Nodup := List.Nodup.of_map _ hnd
  have happend : (r.staying now keep l ++ r.chosen now keep l).Nodup :=
    List.nodup_append.mpr ⟨hl.filter _, nodup_chosen hnd, fun f hf g hg he =>
      ((mem_staying_iff hnd).mp hf).2 (he ▸ hg)⟩
  refine (List.perm_ext_iff_of_nodup happend hl).mpr fun f => ?_
  rw [List.mem_append, mem_staying_iff hnd]
  constructor
  · rintro (h | h)
    · exact h.1
    · exact (mem_chosen h).1
  · exact fun hf => (em (f ∈ r.chosen now keep l)).symm.imp (fun h => ⟨hf, h⟩) id

theorem length_staying (hnd : (l.map (·.1)).Nodup) :
    (r.staying now keep l).length =
      (r.young now keep l).length - r.excess (r.young now keep l).length := by
  let sorted := sortBy Finished.le l
  have hsort : sorted.Perm l := sortBy_perm Finished.le l
  have hsorted : (sorted.map (·.1)).Nodup := ((hsort.map (·.1)).nodup_iff).mpr hnd
  have hyoung : (r.surviving now keep sorted).length = (r.young now keep l).length := by
    rw [surviving_eq]
    exact (hsort.filter _).length_eq
  have hold : (r.expired now keep sorted).length + (r.young now keep l).length = l.length := by
    rw [expired_eq, (hsort.filter _).length_eq, young]
    simpa only [decide_not] using
      (List.length_eq_length_filter_add (l := l) fun f => decide (r.Overdue now keep f)).symm
  have hmore : (r.surplus keep (r.surviving now keep sorted)).length =
      r.excess (r.young now keep l).length := by
    rw [length_surplus (hsorted.sublist (surviving_sublist.map _)), hyoung]
  have hall : (r.staying now keep l ++ r.chosen now keep l).length = l.length :=
    (staying_append_chosen hnd).length_eq
  have hchosen : (r.chosen now keep l).length = (r.expired now keep sorted).length +
      (r.surplus keep (r.surviving now keep sorted)).length := List.length_append
  rw [List.length_append] at hall
  omega

theorem nodup_selectEvictions (hnd : (l.map (·.1)).Nodup) :
    (r.selectEvictions l now keep).Nodup := by
  have hall : ((r.staying now keep l ++ r.chosen now keep l).map (·.1)).Nodup :=
    (((staying_append_chosen hnd).map (·.1)).nodup_iff).mpr hnd
  rw [List.map_append] at hall
  exact hall.of_append_right

theorem selectEvictions_congr {l' : List Finished} (hnd : (l.map (·.1)).Nodup) (hp : l'.Perm l) :
    r.selectEvictions l' now keep = r.selectEvictions l now keep := by
  rw [selectEvictions, selectEvictions, Finished.sortBy_congr hnd hp]

theorem selectEvictions_eq_nil (hnd : (l.map (·.1)).Nodup)
    (hyoung : ∀ f ∈ l, ¬r.Overdue now keep f) (hfew : r.excess l.length = 0) :
    r.selectEvictions l now keep = [] := by
  have hall : r.staying now keep l = l := by
    refine List.Sublist.eq_of_length List.filter_sublist ?_
    have hy : r.young now keep l = l :=
      List.filter_eq_self.mpr fun f hf => decide_eq_true (hyoung f hf)
    rw [length_staying hnd, hy, hfew, Nat.sub_zero]
  have hlen : (r.staying now keep l ++ r.chosen now keep l).length = l.length :=
    (staying_append_chosen hnd).length_eq
  rw [List.length_append, hall] at hlen
  rw [selectEvictions_eq, List.map_eq_nil_iff]
  exact List.eq_nil_of_length_eq_zero (by omega)

theorem excess_sub_excess (r : Retention) (n : Nat) : r.excess (n - r.excess n) = 0 := by
  unfold excess
  cases r.maxFinalized with
  | none => rfl
  | some m =>
    simp only [Option.elim_some]
    omega

/-- What stays would stay again. -/
theorem selectEvictions_staying (hnd : (l.map (·.1)).Nodup) :
    r.selectEvictions (r.staying now keep l) now keep = [] := by
  refine selectEvictions_eq_nil (hnd.sublist (List.filter_sublist.map _)) (fun f hf hold => ?_) ?_
  · obtain ⟨hl, hstays⟩ := (mem_staying_iff hnd).mp hf
    exact hstays (List.mem_append_left _
      (mem_expired_iff.mpr ⟨(sortBy_perm Finished.le l).mem_iff.mpr hl, hold⟩))
  · rw [length_staying hnd, excess_sub_excess]

/-- What was fixed half a second into a leap second is half a second old one second into the next day, and
what was fixed later, when that day began, is one second old. -/
example :
    let l : List Finished :=
      [("leap", ⟨86399500000000, true⟩), ("midnight", Instant.ofNanos 86400000000000)]
    let now := Instant.ofNanos 86401000000000
    l[0].key < l[1].key ∧
      selectEvictions ⟨none, some 700000000⟩ l now none = ["midnight"] := by decide

end Retention

end AgentMesh
