import AgentMesh.Json.Printer
import AgentMesh.Json.Reader

/-!
Printed lexemes are read back: a quoted text (`Json.readQuoted_escaped`) and an integer of 64 bits
(`Json.readNumber_intText`). A number ends where no number can go on; what is read off a whole text is
read off it with something behind it too (`Json.readNumber_append`).
-/

namespace AgentMesh.Json

def symbols (text : String) : List Symbol := text.toList.map some

/-- What may follow a value: nothing goes on with a number there. -/
inductive Ends : List Symbol → Prop
  | nothing : Ends []
  | comma (r : List Symbol) : Ends (some ',' :: r)
  | bracket (r : List Symbol) : Ends (some ']' :: r)
  | brace (r : List Symbol) : Ends (some '\x7d' :: r)

section Except

variable {ε α β : Type} {x : Except ε α} {b : β}

theorem bind_eq_ok {f : α → Except ε β} : (x >>= f) = .ok b ↔ ∃ a, x = .ok a ∧ f a = .ok b := by
  cases x with
  | error e => exact ⟨nofun, fun ⟨a, h, _⟩ => nomatch h⟩
  | ok a => exact ⟨fun h => ⟨a, rfl, h⟩, fun ⟨_, h, hf⟩ => Except.ok.inj h ▸ hf⟩

theorem map_eq_ok {f : α → β} : x.map f = .ok b ↔ ∃ a, x = .ok a ∧ f a = b := by
  cases x with
  | error e => exact ⟨nofun, fun ⟨a, h, _⟩ => nomatch h⟩
  | ok a => exact ⟨fun h => ⟨a, rfl, Except.ok.inj h⟩, fun ⟨_, h, hf⟩ => by cases h; rw [← hf]; rfl⟩

end Except

variable {s r rest : List Symbol}

def isBlank (c : Char) : Bool := c = ' ' || c = '\t' || c = '\n' || c = '\x0d'

theorem skipBlanks_of_not_blank {c : Char} (h : isBlank c = false) (r : List Symbol) :
    skipBlanks (some c :: r) = some c :: r := by
  simp only [isBlank, Bool.or_eq_false_iff, decide_eq_false_iff_not] at h
  obtain ⟨⟨⟨hspace, htab⟩, hline⟩, hreturn⟩ := h
  rw [skipBlanks]
  all_goals simp_all

theorem readQuoted_plain {c : Char} (hquote : c ≠ '"') (hslash : c ≠ '\\') (hc : ¬c.toNat < 0x20)
    (r : List Symbol) : readQuoted false (some c :: r) = withFront c (readQuoted false r) := by
  rw [readQuoted, readQuotedAfter]
  · rw [if_neg hc]
  all_goals simp_all

theorem readQuoted_word {a b c d : Symbol} {n : Nat} (h : hexWord? a b c d = some n)
    (hn : n < 0x20) (r : List Symbol) :
    readQuoted false (some '\\' :: some 'u' :: a :: b :: c :: d :: r) =
      withFront (Char.ofNat n) (readQuoted false r) := by
  have hlow : ¬(0xDC00 ≤ n ∧ n < 0xE000) := by omega
  have hhigh : ¬(0xD800 ≤ n ∧ n < 0xDC00) := by omega
  rw [readQuoted, readQuotedAfter.eq_def]
  simp only [h, if_neg hlow, if_neg hhigh, Bool.false_eq_true, if_false]

theorem hexWord?_hexDigit :
    ∀ n < 0x20, hexWord? (some '0') (some '0') (some (hexDigit (n / 16)))
      (some (hexDigit (n % 16))) = some n := by
  decide

theorem readQuoted_escape (c : Char) (r : List Symbol) :
    readQuoted false ((escaped c).map some ++ r) = withFront c (readQuoted false r) := by
  unfold escaped
  split
  case h_8 hquote hslash _ _ _ _ _ =>
    split
    · next hc =>
      have hword := readQuoted_word (hexWord?_hexDigit c.toNat hc) hc r
      rwa [Char.ofNat_toNat] at hword
    · next hc => exact readQuoted_plain hquote hslash hc r
  all_goals rfl

theorem readQuoted_escaped (cs : List Char) (r : List Symbol) :
    readQuoted false ((cs.flatMap escaped).map some ++ some '"' :: r) = .ok (cs, r) := by
  induction cs with
  | nil => rfl
  | cons c cs ih =>
    rw [List.flatMap_cons, List.map_append, List.append_assoc, readQuoted_escape, ih]
    rfl

theorem spanDigits_append (s : List Symbol) (hrest : Ends rest) :
    spanDigits (s ++ rest) = ((spanDigits s).1, (spanDigits s).2 ++ rest) := by
  induction s with
  | nil => cases hrest <;> rfl
  | cons a s ih =>
    cases a with
    | none => rfl
    | some c =>
      simp only [List.cons_append, spanDigits]
      split
      · rw [ih]
      · rfl

theorem spanDigits_digits {ds : List Char} (h : ∀ c ∈ ds, c.isDigit = true) :
    spanDigits (ds.map some) = (ds, []) := by
  induction ds with
  | nil => rfl
  | cons c ds ih =>
    rw [List.map_cons, spanDigits, if_pos (h c List.mem_cons_self),
      ih fun d hd => h d (List.mem_cons_of_mem c hd)]

theorem readDigits_append {ds : List Char} (h : readDigits s = .ok (ds, r)) (hrest : Ends rest) :
    readDigits (s ++ rest) = .ok (ds, r ++ rest) := by
  unfold readDigits at h ⊢
  rw [spanDigits_append s hrest]
  generalize spanDigits s = span at h ⊢
  obtain ⟨ds', r'⟩ := span
  cases ds' with
  | nil => cases h
  | cons d ds' =>
    cases h
    rfl

theorem readDigits_head {p : List Char × List Symbol} (h : readDigits s = .ok p) :
    ∃ c s', s = some c :: s' ∧ c.isDigit = true := by
  unfold readDigits at h
  cases s with
  | nil => cases h
  | cons a s =>
    cases a with
    | none => cases h
    | some c =>
      cases hc : c.isDigit with
      | true => exact ⟨c, s, rfl, hc⟩
      | false =>
        rw [spanDigits, hc] at h
        cases h

theorem readFraction_append {f : Option (List Char)} (h : readFraction s = .ok (f, r))
    (hrest : Ends rest) : readFraction (s ++ rest) = .ok (f, r ++ rest) := by
  unfold readFraction at h
  split at h
  · next s =>
    obtain ⟨p, hds, hp⟩ := map_eq_ok.mp h
    cases hp
    exact map_eq_ok.mpr ⟨_, readDigits_append hds hrest, rfl⟩
  · next hpoint =>
    cases h
    cases s with
    | nil => cases hrest <;> rfl
    | cons a s =>
      rw [List.cons_append, readFraction]
      rintro s' hs
      cases hs
      exact hpoint s rfl

theorem readPower_append {x : Int} (h : readPower s = .ok (x, r)) (hrest : Ends rest) :
    readPower (s ++ rest) = .ok (x, r ++ rest) := by
  unfold readPower at h
  split at h
  case h_1 | h_2 =>
    obtain ⟨p, hds, hp⟩ := map_eq_ok.mp h
    cases hp
    exact map_eq_ok.mpr ⟨_, readDigits_append hds hrest, rfl⟩
  case h_3 =>
    obtain ⟨p, hds, hp⟩ := map_eq_ok.mp h
    cases hp
    -- there is a digit in front, so there is no sign
    obtain ⟨c, s', rfl, hc⟩ := readDigits_head hds
    rw [List.cons_append, readPower]
    · exact map_eq_ok.mpr ⟨_, readDigits_append hds hrest, rfl⟩
    all_goals
      rintro s'' hs
      cases hs
      cases hc

theorem readExponent_append {x : Option Int} (h : readExponent s = .ok (x, r))
    (hrest : Ends rest) : readExponent (s ++ rest) = .ok (x, r ++ rest) := by
  unfold readExponent at h
  split at h
  · next c s =>
    rw [List.cons_append, readExponent]
    split at h
    · next hc =>
      obtain ⟨p, hpower, hp⟩ := map_eq_ok.mp h
      cases hp
      rw [if_pos hc]
      exact map_eq_ok.mpr ⟨_, readPower_append hpower hrest, rfl⟩
    · next hc =>
      cases h
      rw [if_neg hc]
      rfl
  · next hsome =>
    cases h
    cases s with
    | nil => cases hrest <;> rfl
    | cons a s =>
      cases a with
      | none => rfl
      | some c => exact absurd rfl (hsome c s)

theorem readUnsigned_append {negative : Bool} {n : Numeral}
    (h : readUnsigned negative s = .ok (n, r)) (hrest : Ends rest) :
    readUnsigned negative (s ++ rest) = .ok (n, r ++ rest) := by
  unfold readUnsigned at h ⊢
  rw [spanDigits_append s hrest]
  dsimp only at h ⊢
  split at h
  · cases h
  · next hleading =>
    rw [if_neg hleading]
    obtain ⟨⟨f, r₁⟩, hfraction, h⟩ := bind_eq_ok.mp h
    obtain ⟨⟨x, r₂⟩, hexponent, h⟩ := bind_eq_ok.mp h
    cases h
    refine bind_eq_ok.mpr ⟨(f, r₁ ++ rest), readFraction_append hfraction hrest, ?_⟩
    exact bind_eq_ok.mpr ⟨(x, r₂ ++ rest), readExponent_append hexponent hrest, rfl⟩

theorem readNumeral_append {n : Numeral} (h : readNumeral s = .ok (n, r)) (hrest : Ends rest) :
    readNumeral (s ++ rest) = .ok (n, r ++ rest) := by
  unfold readNumeral at h
  split at h
  · exact readUnsigned_append h hrest
  · next hsign =>
    cases s with
    | nil => cases h
    | cons a s =>
      rw [List.cons_append, readNumeral]
      · exact readUnsigned_append h hrest
      · rintro s' hs
        cases hs
        exact hsign s rfl

theorem readNumber_append {v : Json} (h : readNumber false s = .ok (v, r)) (hrest : Ends rest) :
    readNumber false (s ++ rest) = .ok (v, r ++ rest) := by
  obtain ⟨⟨n, r'⟩, hn, hv⟩ := bind_eq_ok.mp h
  refine bind_eq_ok.mpr ⟨(n, r' ++ rest), readNumeral_append hn hrest, ?_⟩
  dsimp only at hv ⊢
  split at hv
  · cases hv
    rfl
  · cases hv

theorem head?_toDigits {n : Nat} (h : 0 < n) : (Nat.toDigits 10 n).head? ≠ some '0' := by
  induction n using Nat.strongRecOn with
  | ind n ih =>
    by_cases hn : n < 10
    · rw [Nat.toDigits_of_lt_base hn, List.head?_cons, ne_eq, Option.some.injEq,
        Nat.digitChar_eq_zero]
      exact Nat.ne_of_gt h
    · have hhead := ih (n / 10) (by omega) (by omega)
      obtain ⟨c, cs, hcs⟩ := List.exists_cons_of_ne_nil (Nat.toDigits_ne_nil (n := n / 10) (b := 10))
      rw [Nat.toDigits_of_base_le (by decide) (Nat.not_lt.mp hn), hcs]
      rwa [hcs] at hhead

theorem readUnsigned_digits (negative : Bool) (n : Nat) :
    readUnsigned negative ((Nat.toDigits 10 n).map some) = .ok (⟨negative, n, 0, true⟩, []) := by
  have hspan : spanDigits ((Nat.toDigits 10 n).map some) = (Nat.toDigits 10 n, []) :=
    spanDigits_digits fun c hc => Nat.isDigit_of_mem_toDigits (by decide) (by decide) hc
  have hvalue : Text.digitsValue (Nat.toDigits 10 n) = n := Nat.ofDigitChars_ten_toDigits
  have hleading : ((Nat.toDigits 10 n).isEmpty ||
      ((Nat.toDigits 10 n).length > 1 && (Nat.toDigits 10 n).head? == some '0')) = false := by
    by_cases hn : n = 0
    · subst hn
      rfl
    · simp [Nat.toDigits_ne_nil, head?_toDigits (Nat.pos_of_ne_zero hn)]
  unfold readUnsigned
  rw [hspan]
  dsimp only
  rw [hleading]
  refine bind_eq_ok.mpr ⟨(none, []), rfl, bind_eq_ok.mpr ⟨(none, []), rfl, ?_⟩⟩
  simp only [Option.getD_none, List.append_nil, hvalue]
  rfl

theorem readNumeral_intText (i : Int) :
    readNumeral (symbols (intText i)) = .ok (⟨decide (i < 0), i.natAbs, 0, true⟩, []) := by
  have htext : ∀ n, symbols (digitsText n) = (Nat.toDigits 10 n).map some := fun n =>
    congrArg (List.map some) String.toList_ofList
  unfold intText
  split
  · next hi =>
    rw [symbols, String.toList_append, List.map_append, decide_eq_true hi]
    exact (congrArg (readUnsigned true) (htext _)).trans (readUnsigned_digits true _)
  · next hi =>
    rw [htext, decide_eq_false hi, readNumeral]
    · exact readUnsigned_digits false _
    · intro r hr
      have hminus : '-' ∈ Nat.toDigits 10 i.natAbs := by
        have hmem : some '-' ∈ (Nat.toDigits 10 i.natAbs).map some := hr ▸ List.mem_cons_self
        obtain ⟨c, hc, hsome⟩ := List.mem_map.mp hmem
        exact Option.some.inj hsome ▸ hc
      exact absurd (Nat.isDigit_of_mem_toDigits (by decide) (by decide) hminus) (by decide)

theorem value?_whole {n : Nat} (h : n < 18446744073709551616) :
    (⟨false, n, 0, true⟩ : Numeral).value? = some (.int n) := by
  simp [Numeral.value?, h]

theorem value?_negative {n : Nat} (hpos : 0 < n) (h : n ≤ 9223372036854775808) :
    (⟨true, n, 0, true⟩ : Numeral).value? = some (.int (-n)) := by
  simp [Numeral.value?, hpos, h]

theorem readNumber_intText {i : Int} (hlow : -9223372036854775808 ≤ i)
    (hhigh : i < 18446744073709551616) :
    readNumber false (symbols (intText i)) = .ok (.int i, []) := by
  have hvalue : (⟨decide (i < 0), i.natAbs, 0, true⟩ : Numeral).value? = some (.int i) := by
    by_cases hi : i < 0
    · have habs : -(i.natAbs : Int) = i := by omega
      rw [decide_eq_true hi, value?_negative (by omega) (by omega), habs]
    · have habs : (i.natAbs : Int) = i := by omega
      rw [decide_eq_false hi, value?_whole (by omega), habs]
  refine bind_eq_ok.mpr ⟨_, readNumeral_intText i, ?_⟩
  dsimp only
  rw [hvalue]
  rfl

end AgentMesh.Json
