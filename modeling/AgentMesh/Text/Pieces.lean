/-!
Cutting text at a separator: into all its pieces (`pieces`), or in two at the first one (`cutAt`).
-/

namespace AgentMesh.Text

/-- The pieces of a text between the separators; there is always at least one. -/
def pieces (sep : Char) : List Char → List (List Char)
  | [] => [[]]
  | c :: r =>
    if c = sep then [] :: pieces sep r
    else match pieces sep r with
      | [] => [[c]]
      | p :: ps => (c :: p) :: ps

def cutAt (sep : Char) : List Char → Option (List Char × List Char)
  | [] => none
  | c :: r => if c = sep then some ([], r) else (cutAt sep r).map fun p => (c :: p.1, p.2)

def joinWith (sep : String) : List String → String
  | [] => ""
  | [s] => s
  | s :: t :: r => s ++ sep ++ joinWith sep (t :: r)

theorem pieces_ne_nil (sep : Char) (s : List Char) : pieces sep s ≠ [] := by
  cases s with
  | nil => simp [pieces]
  | cons c r =>
    unfold pieces
    split
    · simp
    · split <;> simp

theorem pieces_append (sep : Char) (s t : List Char) :
    pieces sep (s ++ sep :: t) = pieces sep s ++ pieces sep t := by
  induction s with
  | nil => simp [pieces]
  | cons c r ih =>
    by_cases h : c = sep
    · simp [pieces, h, ih]
    · simp only [List.cons_append, pieces, if_neg h, ih]
      cases hr : pieces sep r with
      | nil => exact absurd hr (pieces_ne_nil sep r)
      | cons p ps => simp

theorem pieces_of_not_mem {sep : Char} {s : List Char} (h : sep ∉ s) : pieces sep s = [s] := by
  induction s with
  | nil => rfl
  | cons c s ih =>
    rw [List.mem_cons, not_or] at h
    rw [pieces, if_neg (Ne.symm h.1), ih h.2]

theorem not_mem_of_mem_pieces {sep : Char} {s p : List Char} (h : p ∈ pieces sep s) : sep ∉ p := by
  induction s generalizing p with
  | nil => simp_all [pieces]
  | cons c s ih =>
    by_cases hc : c = sep
    · rw [pieces, if_pos hc, List.mem_cons] at h
      rcases h with rfl | h
      · simp
      · exact ih h
    · rw [pieces, if_neg hc] at h
      cases hs : pieces sep s with
      | nil => exact absurd hs (pieces_ne_nil sep s)
      | cons q ps =>
        simp only [hs, List.mem_cons] at h ih
        rcases h with rfl | h
        · simp [Ne.symm hc, ih (Or.inl rfl)]
        · exact ih (Or.inr h)

theorem cutAt_append {sep : Char} {a : List Char} (h : sep ∉ a) (b : List Char) :
    cutAt sep (a ++ sep :: b) = some (a, b) := by
  induction a with
  | nil => simp [cutAt]
  | cons c a ih =>
    rw [List.mem_cons, not_or] at h
    simp [cutAt, Ne.symm h.1, ih h.2]

theorem eq_of_cutAt {sep : Char} {s a b : List Char} (h : cutAt sep s = some (a, b)) :
    s = a ++ sep :: b ∧ sep ∉ a := by
  induction s generalizing a with
  | nil => cases h
  | cons c s ih =>
    by_cases hc : c = sep
    · rw [cutAt, if_pos hc] at h
      cases h
      simp [hc]
    · rw [cutAt, if_neg hc] at h
      obtain ⟨⟨a', b'⟩, h', he⟩ := Option.map_eq_some_iff.mp h
      cases he
      obtain ⟨rfl, hn⟩ := ih h'
      simp [Ne.symm hc, hn]

theorem not_mem_of_cutAt {sep : Char} {s : List Char} (h : cutAt sep s = none) : sep ∉ s := by
  induction s with
  | nil => simp
  | cons c s ih =>
    by_cases hc : c = sep
    · rw [cutAt, if_pos hc] at h
      cases h
    · rw [cutAt, if_neg hc, Option.map_eq_none_iff] at h
      simp [Ne.symm hc, ih h]

end AgentMesh.Text
