import AgentMesh.Sorting
import Mathlib.Data.List.Nodup
import Mathlib.Order.Lattice

/-!
Sorting by a key. Where no two elements share a key, the order in which they are listed does not matter
(`sortBy_congr`), and what is sorted is in strict order (`pairwise_lt_sortBy`).
-/

namespace AgentMesh

theorem nodup_map_of_part {α κ ι : Type} {key : α → κ} {l : List α} (part : κ → ι)
    (h : (l.map fun a => part (key a)).Nodup) : (l.map key).Nodup :=
  List.Nodup.of_map part (by rwa [List.map_map])

variable {α κ : Type} [LinearOrder κ] {le : α → α → Bool} {key : α → κ} {l l' : List α}

theorem pairwise_le_sortBy (hle : ∀ a b, le a b = true ↔ key a ≤ key b) (l : List α) :
    (sortBy le l).Pairwise fun a b => key a ≤ key b := by
  have htrans : ∀ a b c, le a b = true → le b c = true → le a c = true := fun a b c hab hbc =>
    (hle a c).mpr (le_trans ((hle a b).mp hab) ((hle b c).mp hbc))
  have htotal : ∀ a b, le a b = true ∨ le b a = true := fun a b =>
    (le_total (key a) (key b)).imp (hle a b).mpr (hle b a).mpr
  exact (pairwise_sortBy htrans htotal l).imp fun {a b} h => (hle a b).mp h

theorem sortBy_eq_of_perm (hle : ∀ a b, le a b = true ↔ key a ≤ key b)
    (hinj : ∀ a ∈ l, ∀ b ∈ l, key a = key b → a = b) (hp : l'.Perm l)
    (hl : l.Pairwise fun a b => key a ≤ key b) : sortBy le l' = l := by
  have hsame : (sortBy le l').Perm l := (sortBy_perm le l').trans hp
  refine hsame.eq_of_pairwise (fun a b ha hb hab hba => ?_) (pairwise_le_sortBy hle l') hl
  exact hinj a (hsame.mem_iff.mp ha) b hb (le_antisymm hab hba)

theorem sortBy_congr (hle : ∀ a b, le a b = true ↔ key a ≤ key b) (hnd : (l.map key).Nodup)
    (hp : l'.Perm l) : sortBy le l' = sortBy le l := by
  have hkeys : ((sortBy le l).map key).Nodup := ((sortBy_perm le l).map key).nodup_iff.mpr hnd
  exact sortBy_eq_of_perm hle (fun a ha b hb => List.inj_on_of_nodup_map hkeys ha hb)
    (hp.trans (sortBy_perm le l).symm) (pairwise_le_sortBy hle l)

theorem pairwise_lt_sortBy (hle : ∀ a b, le a b = true ↔ key a ≤ key b) (hnd : (l.map key).Nodup) :
    (sortBy le l).Pairwise fun a b => key a < key b := by
  have hkeys : ((sortBy le l).map key).Nodup := ((sortBy_perm le l).map key).nodup_iff.mpr hnd
  exact ((pairwise_le_sortBy hle l).and (List.pairwise_map.mp hkeys)).imp fun h =>
    lt_of_le_of_ne h.1 h.2

end AgentMesh
