/-!
Insertion into sorted lists, and sorting by it. Equal elements keep their order.
-/

namespace AgentMesh

variable {α : Type}

def insertSorted (le : α → α → Bool) (a : α) : List α → List α
  | [] => [a]
  | b :: r => if le a b then a :: b :: r else b :: insertSorted le a r

def sortBy (le : α → α → Bool) : List α → List α
  | [] => []
  | a :: r => insertSorted le a (sortBy le r)

theorem insertSorted_perm (le : α → α → Bool) (a : α) (l : List α) :
    (insertSorted le a l).Perm (a :: l) := by
  induction l with
  | nil => exact List.Perm.refl _
  | cons b r ih =>
    unfold insertSorted
    split
    · exact List.Perm.refl _
    · exact (ih.cons b).trans (List.Perm.swap a b r)

theorem sortBy_perm (le : α → α → Bool) (l : List α) : (sortBy le l).Perm l := by
  induction l with
  | nil => exact List.Perm.refl _
  | cons a r ih => exact (insertSorted_perm le a _).trans (ih.cons a)

theorem mem_insertSorted {le : α → α → Bool} {a x : α} {l : List α} :
    x ∈ insertSorted le a l ↔ x = a ∨ x ∈ l := by
  rw [(insertSorted_perm le a l).mem_iff, List.mem_cons]

theorem pairwise_insertSorted {le : α → α → Bool}
    (htrans : ∀ a b c, le a b = true → le b c = true → le a c = true)
    (htotal : ∀ a b, le a b = true ∨ le b a = true) (a : α) {l : List α}
    (h : l.Pairwise (fun x y => le x y = true)) :
    (insertSorted le a l).Pairwise (fun x y => le x y = true) := by
  induction l with
  | nil => simp [insertSorted]
  | cons b r ih =>
    have hcons := List.pairwise_cons.mp h
    unfold insertSorted
    split
    · next hab =>
      refine List.pairwise_cons.mpr ⟨fun x hx => ?_, h⟩
      rcases List.mem_cons.mp hx with rfl | hx
      · exact hab
      · exact htrans _ _ _ hab (hcons.1 x hx)
    · next hab =>
      refine List.pairwise_cons.mpr ⟨fun x hx => ?_, ih hcons.2⟩
      rcases mem_insertSorted.mp hx with rfl | hx
      · exact (htotal x b).resolve_left hab
      · exact hcons.1 x hx

theorem pairwise_sortBy {le : α → α → Bool}
    (htrans : ∀ a b c, le a b = true → le b c = true → le a c = true)
    (htotal : ∀ a b, le a b = true ∨ le b a = true) (l : List α) :
    (sortBy le l).Pairwise (fun x y => le x y = true) := by
  induction l with
  | nil => simp [sortBy]
  | cons a r ih => exact pairwise_insertSorted htrans htotal a ih

end AgentMesh
