import AgentMesh.Proofs.Consensus.Selection

/-!
How many final ballots a box keeps: after a pruning no more than the limit allows
(`BallotBox.finals_prune_le`).
-/

namespace AgentMesh

namespace Retention

variable {r : Retention} {now : Instant} {keep : Option String} {l : List Finished} {m : Nat}

theorem length_unselected_le (hnd : (l.map (·.1)).Nodup) (hm : r.maxFinalized = some m) :
    (l.filter fun f => decide (f.1 ∉ r.selectEvictions l now keep)).length ≤ max 1 m := by
  have hlen : (r.staying now keep l).length =
      (r.young now keep l).length - r.excess (r.young now keep l).length := length_staying hnd
  simp only [staying, excess, hm, Option.elim_some] at hlen
  omega

end Retention

namespace BallotBox

variable {box : BallotBox} {keep : Option String} {now : Instant} {t : String}

def finals (box : BallotBox) : Nat := box.ballots.values.countP (·.isFinal)

theorem length_finished (hv : box.Valid) : box.finished.length = box.finals := by
  rw [finished, finals, List.length_filterMap_eq_countP]
  refine List.countP_congr fun b hb => ?_
  obtain ⟨t, ht⟩ := Dict.mem_values.mp hb
  simp [Ballot.isFinal, ← (hv t b ht).isSome_finalizedAt]

theorem mem_finished_iff (hv : box.Valid) {at_ : Instant} :
    (t, at_) ∈ box.finished ↔ ∃ b, box.get? t = some b ∧ b.finalizedAt = some at_ := by
  rw [finished, List.mem_filterMap]
  constructor
  · rintro ⟨b, hb, he⟩
    obtain ⟨k, hk⟩ := Dict.mem_values.mp hb
    obtain ⟨at', hat, hpair⟩ := Option.map_eq_some_iff.mp he
    obtain ⟨hid, rfl⟩ := Prod.mk.inj hpair
    have hkey : k = t := (hv k b hk).taskId_eq.symm.trans hid
    exact ⟨b, hkey ▸ hk, hat⟩
  · rintro ⟨b, hb, hat⟩
    refine ⟨b, Dict.mem_values.mpr ⟨t, hb⟩, ?_⟩
    rw [hat, Option.map_some, (hv t b hb).taskId_eq]

theorem nodup_finished (hv : box.Valid) : (box.finished.map (·.1)).Nodup := by
  have hkeys : box.finished.map (·.1) =
      box.ballots.entries.filterMap fun e => e.2.finalizedAt.map fun _ => e.1 := by
    rw [finished, Dict.values, List.filterMap_map, List.map_filterMap]
    refine List.filterMap_congr fun e he => ?_
    have hid : e.2.taskId = e.1 := (hv e.1 e.2 (Dict.get?_eq_some_iff.mpr he)).taskId_eq
    simp [Function.comp_def, hid]
  rw [hkeys]
  refine List.Pairwise.filterMap _ ?_ box.ballots.sorted
  rintro a b hlt x hx y hy
  obtain ⟨-, -, rfl⟩ := Option.map_eq_some_iff.mp hx
  obtain ⟨-, -, rfl⟩ := Option.map_eq_some_iff.mp hy
  exact String.ne_of_lt hlt

theorem Valid.prune (hv : box.Valid) (keep : Option String) (now : Instant) :
    (box.prune keep now).2.Valid := hv.apply (.prune keep now)

theorem finals_prune_le (hv : box.Valid) {m : Nat} (hm : box.retention.maxFinalized = some m) :
    (box.prune keep now).2.finals ≤ max 1 m := by
  have hbounded : box.retention.isUnbounded = false := by simp [Retention.isUnbounded, hm]
  have hsub : (box.prune keep now).2.finished ⊆
      box.finished.filter fun f => decide (f.1 ∉ box.evictions keep now) := by
    rintro ⟨t, at_⟩ hf
    obtain ⟨b, hb, hat⟩ := (mem_finished_iff (hv.prune keep now)).mp hf
    rw [get?_prune] at hb
    split at hb
    · cases hb
    · next hstays =>
      exact List.mem_filter.mpr
        ⟨(mem_finished_iff hv).mpr ⟨b, hb, hat⟩, decide_eq_true hstays⟩
  have hnodup := List.Nodup.of_map _ (nodup_finished (hv.prune keep now))
  have hle : (box.finished.filter fun f =>
      decide (f.1 ∉ box.retention.selectEvictions box.finished now keep)).length ≤ max 1 m :=
    Retention.length_unselected_le (nodup_finished hv) hm
  rw [← length_finished (hv.prune keep now)]
  refine le_trans (hnodup.subperm hsub).length_le ?_
  simpa only [evictions, hbounded, Bool.false_eq_true, if_false] using hle

theorem finals_put (box : BallotBox) (t : String) (b : Ballot) :
    (box.put t b).finals + (box.get? t).toList.countP (·.isFinal) =
      box.finals + b.isFinal.toNat := by
  have hp := (Dict.values_insert_append box.ballots t b).countP_eq (·.isFinal)
  rw [List.countP_append, List.countP_cons] at hp
  cases hf : b.isFinal <;> simpa [finals, put, get?, hf] using hp

end BallotBox

end AgentMesh
