import AgentMesh.Text.Ending

/-!
Blank characters, and text with the blanks at its ends removed.
-/

namespace AgentMesh.Text

/-- The code points with the Unicode property White_Space, as closed ascending ranges. -/
def blankRanges : List (Nat × Nat) :=
  [(0x09, 0x0D), (0x20, 0x20), (0x85, 0x85), (0xA0, 0xA0), (0x1680, 0x1680), (0x2000, 0x200A),
   (0x2028, 0x2029), (0x202F, 0x202F), (0x205F, 0x205F), (0x3000, 0x3000)]

def isBlank (c : Char) : Bool :=
  blankRanges.any fun r => r.1 ≤ c.toNat && c.toNat ≤ r.2

def trimStart (s : List Char) : List Char := s.dropWhile isBlank

def trimEnd (s : List Char) : List Char := dropEndWhile isBlank s

def trim (s : List Char) : List Char := trimEnd (trimStart s)

def isBlankText (s : String) : Bool := s.toList.all isBlank

/-- Neither the first nor the last character is a blank. -/
def Tight (s : List Char) : Prop :=
  (∀ c ∈ s.head?, isBlank c = false) ∧ ∀ c ∈ s.getLast?, isBlank c = false

-- named, for the instance must not run through all characters
instance (s : List Char) : Decidable (Tight s) :=
  @instDecidableAnd _ _ s.head?.decidableForallMem s.getLast?.decidableForallMem

theorem tight_trim (s : List Char) : Tight (trim s) := by
  constructor
  · intro c hc
    obtain ⟨t, ht⟩ := isPrefix_dropEndWhile isBlank (trimStart s)
    have hstart : c ∈ (trimStart s).head? := by
      rw [← ht, List.head?_append]
      exact Option.or_eq_some_iff.mpr (Or.inl hc)
    exact not_of_mem_head?_dropWhile hstart
  · intro c hc
    rw [trim, trimEnd, dropEndWhile, List.getLast?_reverse] at hc
    exact not_of_mem_head?_dropWhile hc

theorem trim_sublist (s : List Char) : (trim s).Sublist s :=
  (isPrefix_dropEndWhile isBlank _).sublist.trans (List.dropWhile_sublist _)

theorem Tight.append {s t : List Char} (hs : Tight s) (ht : Tight t) (hsne : s ≠ []) (htne : t ≠ [])
    (middle : List Char) : Tight (s ++ middle ++ t) := by
  constructor
  · simpa [List.head?_append, List.head?_eq_some_head hsne] using hs.1
  · simpa [List.getLast?_append, List.getLast?_eq_some_getLast htne] using ht.2

/-- Blanks around a text are all that is trimmed. -/
theorem trim_append {a s b : List Char} (hs : Tight s) (hne : s ≠ [])
    (ha : ∀ c ∈ a, isBlank c = true) (hb : ∀ c ∈ b, isBlank c = true) : trim (a ++ s ++ b) = s := by
  have hhead : (s ++ b).head? = s.head? := by simp [List.head?_append, List.head?_eq_some_head hne]
  have hstart : trimStart (a ++ s ++ b) = s ++ b := by
    rw [List.append_assoc]
    exact dropWhile_append_of_head ha (hhead ▸ hs.1)
  rw [trim, hstart, trimEnd, dropEndWhile_append_of_last hb hs.2]

end AgentMesh.Text
