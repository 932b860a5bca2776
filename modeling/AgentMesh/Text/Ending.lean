/-!
Dropping characters at the end of a text. What is left ends in a character that stays, and nothing in
front of it is touched.
-/

namespace AgentMesh.Text

def dropEndWhile (p : Char → Bool) (s : List Char) : List Char :=
  (s.reverse.dropWhile p).reverse

def dropTrailing (x : Char) (s : List Char) : List Char := dropEndWhile (· == x) s

theorem isPrefix_dropEndWhile (p : Char → Bool) (s : List Char) : dropEndWhile p s <+: s := by
  rw [dropEndWhile, ← List.reverse_suffix, List.reverse_reverse]
  exact List.dropWhile_suffix p

theorem not_of_mem_head?_dropWhile {p : Char → Bool} {s : List Char} {c : Char}
    (h : c ∈ (s.dropWhile p).head?) : p c = false := by
  have hhead := List.head?_dropWhile_not p s
  rwa [Option.mem_def.mp h] at hhead

theorem dropWhile_append_of_head {p : Char → Bool} {a s : List Char} (ha : ∀ c ∈ a, p c = true)
    (hs : ∀ c ∈ s.head?, p c = false) : (a ++ s).dropWhile p = s := by
  rw [List.dropWhile_append_of_pos ha]
  cases s with
  | nil => rfl
  | cons c s => simp [hs c rfl]

theorem dropEndWhile_append_of_last {p : Char → Bool} {s b : List Char}
    (hb : ∀ c ∈ b, p c = true) (hs : ∀ c ∈ s.getLast?, p c = false) :
    dropEndWhile p (s ++ b) = s := by
  rw [dropEndWhile, List.reverse_append, dropWhile_append_of_head (by simpa using hb),
    List.reverse_reverse]
  simpa using hs

end AgentMesh.Text
