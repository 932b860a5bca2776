import AgentMesh.Time.Instant
import Mathlib.Order.Lattice

/-!
Instants in their order, and the time from one to another. Where there is no leap second, both are those
of the nanoseconds since 1970 (`Instant.le_iff_of_clock`, `Instant.nanosSince_of_clock`).
-/

namespace AgentMesh.Instant

instance : LinearOrder Instant where
  le_refl a := le_def.mpr (Or.inr ⟨rfl, Int.le_refl _⟩)
  le_trans a b c hab hbc := by
    rw [le_def] at *
    omega
  le_antisymm a b hab hba := by
    rw [le_def] at hab hba
    exact eq_iff.mpr (by omega)
  lt_iff_le_not_ge a b := by
    rw [lt_def, le_def, le_def]
    omega
  le_total a b := by
    rw [le_def, le_def]
    omega
  toDecidableLE := inferInstance
  toDecidableEq := inferInstance
  toDecidableLT := inferInstance

/-- A leap second comes after all of the second before it. -/
example : ofNanos 86399700000000 < ⟨86399200000000, true⟩ ∧
    ⟨86399200000000, true⟩ < ofNanos 86400000000000 := by decide

variable {since now : Instant}

theorem fraction_of_clock (h : now.leap = false) : now.fraction = now.nanos % 1000000000 := by
  simp [fraction, h]

theorem le_iff_of_clock (hsince : since.leap = false) (hnow : now.leap = false) :
    since ≤ now ↔ since.nanos ≤ now.nanos := by
  rw [le_def, fraction_of_clock hsince, fraction_of_clock hnow, wholeSeconds, wholeSeconds]
  omega

theorem nanosSince_of_clock (hsince : since.leap = false) (hnow : now.leap = false) :
    now.nanosSince since = now.nanos - since.nanos := by
  simp only [nanosSince, hsince, hnow, fraction_of_clock, wholeSeconds, Bool.false_eq_true, if_false,
    ite_self]
  omega

theorem elapsed_of_le (hsince : since.leap = false) (hnow : now.leap = false) (h : since ≤ now) :
    (elapsed since now : ℤ) = now.nanos - since.nanos := by
  rw [le_iff_of_clock hsince hnow] at h
  rw [elapsed, nanosSince_of_clock hsince hnow]
  omega

theorem elapsed_eq_max (since now : Instant) :
    (elapsed since now : ℤ) = max 0 (now.nanosSince since) := by
  rw [elapsed]
  omega

theorem lt_of_nanosSince_lt {a b : Instant} (ha : a.leap = false) (hb : b.leap = false)
    (hnow : now.leap = false) (h : now.nanosSince b < now.nanosSince a) : a < b := by
  rw [nanosSince_of_clock ha hnow, nanosSince_of_clock hb hnow] at h
  rw [← not_le, le_iff_of_clock hb ha]
  omega

end AgentMesh.Instant
