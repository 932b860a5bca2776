import AgentMesh.Proofs.Consensus.Finality

/-!
What goes when a box is pruned: final ballots only, never the one that is kept, and nothing where there
are no limits (`BallotBox.mem_evictions`).
-/

namespace AgentMesh

namespace Retention

variable {r : Retention} {now : Instant} {keep : Option String} {l : List Finished} {f : Finished}

theorem mem_expired (h : f ∈ r.expired now keep l) : f ∈ l ∧ keep ≠ some f.1 := by
  unfold expired at h
  split at h
  · exact absurd h List.not_mem_nil
  · obtain ⟨hl, hold⟩ := List.mem_filter.mp h
    have hkeep := (Bool.and_eq_true_iff.mp hold).1
    exact ⟨hl, of_decide_eq_true hkeep⟩

theorem mem_surplus (h : f ∈ r.surplus keep l) : f ∈ l ∧ keep ≠ some f.1 := by
  unfold surplus at h
  split at h
  · exact absurd h List.not_mem_nil
  · obtain ⟨hl, hkeep⟩ := List.mem_filter.mp (List.mem_of_mem_take h)
    exact ⟨hl, of_decide_eq_true hkeep⟩

theorem surviving_sublist : (r.surviving now keep l).Sublist l := by
  unfold surviving
  split
  · exact List.Sublist.refl l
  · exact List.filter_sublist

def chosen (r : Retention) (now : Instant) (keep : Option String) (l : List Finished) :
    List Finished :=
  let sorted := sortBy Finished.le l
  r.expired now keep sorted ++ r.surplus keep (r.surviving now keep sorted)

theorem selectEvictions_eq : r.selectEvictions l now keep = (r.chosen now keep l).map (·.1) := rfl

theorem mem_chosen (h : f ∈ r.chosen now keep l) : f ∈ l ∧ keep ≠ some f.1 := by
  have hsorted : f ∈ sortBy Finished.le l ∧ keep ≠ some f.1 := by
    rcases List.mem_append.mp h with hold | hmore
    · exact mem_expired hold
    · obtain ⟨hs, hkeep⟩ := mem_surplus hmore
      exact ⟨surviving_sublist.subset hs, hkeep⟩
  exact ⟨(sortBy_perm Finished.le l).mem_iff.mp hsorted.1, hsorted.2⟩

theorem mem_selectEvictions {t : String} (h : t ∈ r.selectEvictions l now keep) :
    keep ≠ some t ∧ ∃ at_, (t, at_) ∈ l := by
  rw [selectEvictions_eq] at h
  obtain ⟨f, hf, rfl⟩ := List.mem_map.mp h
  obtain ⟨hl, hkeep⟩ := mem_chosen hf
  exact ⟨hkeep, f.2, hl⟩

end Retention

namespace BallotBox

variable {box : BallotBox} {keep : Option String} {now : Instant} {t : String}

theorem evictions_of_unbounded (h : box.retention.isUnbounded = true) :
    box.evictions keep now = [] := by rw [evictions, if_pos h]

theorem mem_finished (hv : box.Valid) {at_ : Instant} (h : (t, at_) ∈ box.finished) :
    ∃ b, box.get? t = some b ∧ b.isFinal = true := by
  obtain ⟨b, hb, hat⟩ := List.mem_filterMap.mp h
  obtain ⟨k, hk⟩ := Dict.mem_values.mp hb
  obtain ⟨at', hfinal, he⟩ := Option.map_eq_some_iff.mp hat
  have hvalid := hv k b hk
  have hkey : k = t := hvalid.taskId_eq.symm.trans (congrArg Prod.fst he)
  refine ⟨b, hkey ▸ hk, ?_⟩
  rw [Ballot.isFinal, ← hvalid.isSome_finalizedAt, hfinal]
  rfl

theorem mem_evictions (hv : box.Valid) (h : t ∈ box.evictions keep now) :
    box.retention.isUnbounded = false ∧ keep ≠ some t ∧
      ∃ b, box.get? t = some b ∧ b.isFinal = true := by
  cases hu : box.retention.isUnbounded with
  | true => simp [evictions_of_unbounded hu] at h
  | false =>
    rw [evictions, hu] at h
    obtain ⟨hkeep, at_, hmem⟩ := Retention.mem_selectEvictions h
    exact ⟨rfl, hkeep, mem_finished hv hmem⟩

end BallotBox

end AgentMesh
