import AgentMesh.Proofs.Time.Calendar
import AgentMesh.Time.Rfc3339
import Mathlib.Data.List.Induction
import Mathlib.Data.Nat.Digits.Defs

/-!
Printed instants are read back (`Rfc3339.parse?_render`): those whose year lies in the calendar's range
and, in a leap second, at the end of a minute. Only such instants are read
(`Rfc3339.expressible_of_parse?`), so whatever is read keeps its value once it is printed.
-/

namespace AgentMesh

namespace Text

theorem isDigit_bounds {c : Char} (h : c.isDigit = true) : 48 ≤ c.toNat ∧ c.toNat ≤ 57 := by
  simp only [Char.isDigit, Bool.and_eq_true, decide_eq_true_eq] at h
  exact ⟨UInt32.le_iff_toNat_le.mp h.1, UInt32.le_iff_toNat_le.mp h.2⟩

theorem not_isBlank_of_isDigit {c : Char} (h : c.isDigit = true) : isBlank c = false := by
  have hc := isDigit_bounds h
  simp [isBlank, blankRanges]
  omega

theorem trimStart_cons {c : Char} (h : isBlank c = false) (r : List Char) :
    trimStart (c :: r) = c :: r := by
  simp [trimStart, h]

theorem digitsValue_append (ds : List Char) (c : Char) :
    digitsValue (ds ++ [c]) = 10 * digitsValue ds + (c.toNat - 48) := by
  simp [digitsValue]

theorem digitsValue_zeros (k : Nat) (ds : List Char) :
    digitsValue (List.replicate k '0' ++ ds) = digitsValue ds := by
  induction k with
  | zero => rfl
  | succ k ih => exact ih

theorem digitsValue_lt {ds : List Char} (h : ∀ c ∈ ds, c.isDigit = true) :
    digitsValue ds < 10 ^ ds.length := by
  induction ds using List.reverseRecOn with
  | nil => exact Nat.one_pos
  | append_singleton ds c ih =>
    have hc := isDigit_bounds (h c (by simp))
    have hds := ih fun d hd => h d (List.mem_append_left _ hd)
    rw [digitsValue_append, List.length_append, List.length_singleton, Nat.pow_succ]
    omega

end Text

namespace Rfc3339

theorem toList_padded (width n : Nat) : (padded width n).toList =
    List.replicate (width - (Nat.toDigits 10 n).length) '0' ++ Nat.toDigits 10 n :=
  String.toList_ofList

theorem isDigit_of_mem_padded {width n : Nat} {c : Char} (h : c ∈ (padded width n).toList) :
    c.isDigit = true := by
  rw [toList_padded, List.mem_append] at h
  rcases h with h | h
  · rw [List.eq_of_mem_replicate h]
    decide
  · exact Nat.isDigit_of_mem_toDigits (by decide) (by decide) h

theorem digitsValue_padded (width n : Nat) : Text.digitsValue (padded width n).toList = n := by
  rw [toList_padded, Text.digitsValue_zeros]
  exact Nat.ofDigitChars_ten_toDigits

theorem length_padded {width n : Nat} (hwidth : 0 < width) (h : n < 10 ^ width) :
    (padded width n).toList.length = width := by
  have hle := Nat.toDigits_length 10 n width hwidth h
  rw [toList_padded, List.length_append, List.length_replicate]
  omega

theorem padded_eq_cons (width n : Nat) :
    ∃ d ds, (padded width n).toList = d :: ds ∧ d.isDigit = true := by
  have hne : (padded width n).toList ≠ [] := by simp [toList_padded, Nat.toDigits_ne_nil]
  obtain ⟨d, ds, h⟩ := List.exists_cons_of_ne_nil hne
  exact ⟨d, ds, h, isDigit_of_mem_padded (h ▸ List.mem_cons_self)⟩

theorem isEmpty_padded (width n : Nat) : (padded width n).toList.isEmpty = false := by
  obtain ⟨d, ds, h, -⟩ := padded_eq_cons width n
  rw [h]
  rfl

theorem takeWhile_padded (width n : Nat) {c : Char} (hc : c.isDigit = false) (rest : List Char) :
    ((padded width n).toList ++ c :: rest).takeWhile Char.isDigit = (padded width n).toList := by
  rw [List.takeWhile_append_of_pos fun _ h => isDigit_of_mem_padded h]
  simp [hc]

theorem number_padded {width n : Nat} (hwidth : 0 < width) (h : n < 10 ^ width)
    (rest : List Char) : number width ((padded width n).toList ++ rest) = some (n, rest) := by
  obtain ⟨d, ds, hds, hd⟩ := padded_eq_cons width n
  have hall : ∀ c ∈ d :: ds, c.isDigit = true := fun c hc => isDigit_of_mem_padded (hds ▸ hc)
  have hlength : (d :: ds).length = width := hds ▸ length_padded hwidth h
  have hvalue : Text.digitsValue (d :: ds) = n := hds ▸ digitsValue_padded width n
  have htake : ((d :: ds ++ rest).take width).takeWhile Char.isDigit = d :: ds := by
    rw [List.take_left' hlength, ← List.append_nil (d :: ds), List.takeWhile_append_of_pos hall]
    rfl
  rw [hds, number, List.cons_append, Text.trimStart_cons (Text.not_isBlank_of_isDigit hd),
    ← List.cons_append, htake, hvalue, List.drop_left' rfl]
  rfl

theorem mark_cons {c : Char} (hc : Text.isBlank c = false) (rest : List Char) :
    mark c (c :: rest) = some rest := by
  rw [mark, Text.trimStart_cons hc]
  exact if_pos rfl

theorem year_signed (n : Nat) (rest : List Char) :
    year ('-' :: ((padded 4 n).toList ++ '-' :: rest)) = some (-1 * (n : Int), '-' :: rest) ∧
      year ('+' :: ((padded 4 n).toList ++ '-' :: rest)) = some (1 * (n : Int), '-' :: rest) := by
  have hdash : '-'.isDigit = false := by decide
  constructor
  · have hstart := Text.trimStart_cons (c := '-') (by decide) ((padded 4 n).toList ++ '-' :: rest)
    simp only [year, hstart, takeWhile_padded 4 n hdash, digitsValue_padded, isEmpty_padded,
      List.drop_left, Bool.false_eq_true, if_false]
  · have hstart := Text.trimStart_cons (c := '+') (by decide) ((padded 4 n).toList ++ '-' :: rest)
    simp only [year, hstart, takeWhile_padded 4 n hdash, digitsValue_padded, isEmpty_padded,
      List.drop_left, Bool.false_eq_true, if_false]

theorem year_yearText (y : Int) (rest : List Char) :
    year ((yearText y).toList ++ '-' :: rest) = some (y, '-' :: rest) := by
  obtain ⟨hminus, hplus⟩ := year_signed y.natAbs rest
  unfold yearText
  split
  · next hy =>
    obtain ⟨d, ds, hds, hd⟩ := padded_eq_cons 4 y.toNat
    have hnumber : number 4 ((padded 4 y.toNat).toList ++ '-' :: rest) = some (y.toNat, '-' :: rest) :=
      number_padded (by decide) (by omega) _
    rw [hds, List.cons_append] at hnumber ⊢
    rw [year, Text.trimStart_cons (Text.not_isBlank_of_isDigit hd)]
    -- there is a digit in front, so there is no sign
    split
    · next heq => cases heq; cases hd
    · next heq => cases heq; cases hd
    · rw [hnumber, Option.map_some, Int.toNat_of_nonneg hy.1]
  · have hminusText : "-".toList = ['-'] := rfl
    have hplusText : "+".toList = ['+'] := rfl
    rw [String.toList_append, List.append_assoc]
    by_cases hneg : y < 0
    · have habs : -1 * (y.natAbs : Int) = y := by omega
      rw [if_pos hneg, hminusText, List.singleton_append, hminus, habs]
    · have habs : 1 * (y.natAbs : Int) = y := by omega
      rw [if_neg hneg, hplusText, List.singleton_append, hplus, habs]

theorem fraction_padded {k m : Nat} (hk : 0 < k) (hk' : k ≤ 9) (hm : m < 10 ^ k) (rest : List Char) :
    fraction (("." ++ padded k m).toList ++ 'Z' :: rest) =
      some (m * Nat.pow 10 (9 - k), 'Z' :: rest) := by
  have hlength := length_padded hk hm
  have hkept : (padded k m).toList.take 9 = (padded k m).toList :=
    List.take_of_length_le (hlength.le.trans hk')
  have hstart : ("." ++ padded k m).toList ++ 'Z' :: rest =
      '.' :: ((padded k m).toList ++ 'Z' :: rest) := by
    rw [String.toList_append]
    rfl
  have hend : 'Z'.isDigit = false := by decide
  simp only [hstart, fraction, takeWhile_padded k m hend, hkept, digitsValue_padded, isEmpty_padded,
    hlength, List.drop_left' hlength, Bool.false_eq_true, if_false]

theorem fraction_fractionText {n : Nat} (h : n < 1000000000) (rest : List Char) :
    fraction ((fractionText n).toList ++ 'Z' :: rest) = some (n, 'Z' :: rest) := by
  unfold fractionText
  split
  · next hn =>
    subst hn
    rfl
  split
  · next hmilli =>
    have hback : n / 1000000 * Nat.pow 10 (9 - 3) = n :=
      Nat.div_mul_cancel (Nat.dvd_of_mod_eq_zero hmilli)
    rw [fraction_padded (by decide) (by decide) (by omega), hback]
  split
  · next hmicro =>
    have hback : n / 1000 * Nat.pow 10 (9 - 6) = n :=
      Nat.div_mul_cancel (Nat.dvd_of_mod_eq_zero hmicro)
    rw [fraction_padded (by decide) (by decide) (by omega), hback]
  · have hback : n * Nat.pow 10 (9 - 9) = n := Nat.mul_one n
    rw [fraction_padded (by decide) (by decide) h, hback]

theorem fraction_lt {s r : List Char} {n : Nat} (h : fraction s = some (n, r)) : n < 1000000000 := by
  unfold fraction at h
  split at h
  · next s =>
    dsimp only at h
    split at h
    · cases h
    · cases h
      obtain ⟨kept, hkept⟩ : ∃ kept, kept = (s.takeWhile Char.isDigit).take 9 := ⟨_, rfl⟩
      have hlt : Text.digitsValue kept < 10 ^ kept.length :=
        Text.digitsValue_lt fun c hc =>
          List.all_eq_true.mp List.all_takeWhile c (List.mem_of_mem_take (hkept ▸ hc))
      have hle : kept.length ≤ 9 := hkept ▸ List.length_take_le _ _
      rw [← hkept]
      calc Text.digitsValue kept * 10 ^ (9 - kept.length)
        _ < 10 ^ kept.length * 10 ^ (9 - kept.length) :=
          Nat.mul_lt_mul_of_pos_right hlt (Nat.pow_pos (by decide))
        _ = 10 ^ 9 := by rw [← Nat.pow_add, Nat.add_sub_cancel' hle]
  · cases h
    decide

theorem offset_emod {s r : List Char} {shift : Int} (h : offset s = some (shift, r)) :
    shift % 60 = 0 := by
  unfold offset at h
  dsimp only at h
  split at h
  case h_1 | h_2 =>
    cases h
    rfl
  case h_3 | h_4 | h_5 =>
    split at h
    · split at h
      · split at h
        · cases h
          omega
        · cases h
      · cases h
    · cases h
  case h_6 =>
    split at h
    · cases h
      rfl
    · cases h
  case h_7 => cases h

end Rfc3339

namespace Instant

def date (t : Instant) : Calendar.Date := Calendar.ofDayNumber (t.wholeSeconds.fdiv 86400)

/-- The instants that have a text: the calendar has the year, and a leap second ends a minute. -/
structure Expressible (t : Instant) : Prop where
  year : Rfc3339.yearInRange t.date.year = true
  leap : t.leap = true → t.wholeSeconds % 60 = 59

theorem expressible_of_year {t : Instant} (hleap : t.leap = false) (h0 : 0 ≤ t.date.year)
    (h1 : t.date.year ≤ 9999) : t.Expressible := by
  constructor
  · simp only [Rfc3339.yearInRange, Bool.and_eq_true, decide_eq_true_eq]
    omega
  · rw [hleap]
    nofun

end Instant

namespace Rfc3339

variable {t : Instant}

theorem toList_render (t : Instant) : ∃ second : Nat,
    second = (t.wholeSeconds - t.wholeSeconds.fdiv 86400 * 86400).toNat ∧
    (render t).toList = (yearText t.date.year).toList ++ '-' :: ((padded 2 t.date.month).toList ++
      '-' :: ((padded 2 t.date.day).toList ++ 'T' :: ((padded 2 (second / 3600)).toList ++
      ':' :: ((padded 2 (second / 60 % 60)).toList ++
      ':' :: ((padded 2 (second % 60 + if t.leap then 1 else 0)).toList ++
      ((fractionText (t.nanos - t.wholeSeconds * 1000000000).toNat).toList ++ ['Z'])))))) := by
  refine ⟨_, rfl, ?_⟩
  have hdash : "-".toList = ['-'] := rfl
  have hcolon : ":".toList = [':'] := rfl
  have htime : "T".toList = ['T'] := rfl
  have hzone : "Z".toList = ['Z'] := rfl
  simp only [render, String.toList_append, hdash, hcolon, htime, hzone, List.append_assoc,
    List.cons_append, List.nil_append, Instant.date]

theorem wholeSeconds_split (t : Instant) :
    (0 ≤ t.nanos - t.wholeSeconds * 1000000000 ∧ t.nanos - t.wholeSeconds * 1000000000 < 1000000000) ∧
      0 ≤ t.wholeSeconds - t.wholeSeconds.fdiv 86400 * 86400 ∧
      t.wholeSeconds - t.wholeSeconds.fdiv 86400 * 86400 < 86400 := by
  have hsecond : t.wholeSeconds = t.nanos / 1000000000 := rfl
  have hday : t.wholeSeconds.fdiv 86400 = t.wholeSeconds / 86400 :=
    Int.fdiv_eq_ediv_of_nonneg _ (by decide)
  omega

theorem month_day_lt (t : Instant) : t.date.month < 10 ^ 2 ∧ t.date.day < 10 ^ 2 := by
  have hvalid := Calendar.isValid_ofDayNumber (t.wholeSeconds.fdiv 86400)
  simp only [Calendar.Date.isValid, Bool.and_eq_true, decide_eq_true_eq] at hvalid
  obtain ⟨⟨⟨-, hmonth⟩, -⟩, hday⟩ := hvalid
  have hlength : ∀ y m, Calendar.monthLength y m ≤ 31 := by
    intro y m
    unfold Calendar.monthLength
    split <;> split <;> omega
  exact ⟨by unfold Instant.date; omega, (hday.trans (hlength _ _)).trans_lt (by decide)⟩

theorem exists_shown {second : Nat} {leap : Bool} (h : leap = true → second % 60 = 59) :
    ∃ shown, shown = (second % 60 + if leap then 1 else 0) ∧ shown ≤ 60 ∧
      decide (shown = 60) = leap ∧ (if shown = 60 then 59 else shown) = second % 60 := by
  cases leap with
  | true =>
    have hlast := h rfl
    exact ⟨60, by simp [hlast], le_rfl, rfl, by simp [hlast]⟩
  | false =>
    have hlt : second % 60 < 60 := Nat.mod_lt _ (by decide)
    exact ⟨second % 60, by simp, hlt.le, by simp [hlt.ne], if_neg hlt.ne⟩

theorem parse?_render (h : t.Expressible) : parse? (render t) = some t := by
  obtain ⟨second, hsecond, htext⟩ := toList_render t
  obtain ⟨⟨hnanos, hnanos'⟩, hpos, hlt⟩ := wholeSeconds_split t
  obtain ⟨hmonth, hday⟩ := month_day_lt t
  have hvalid : t.date.isValid = true := Calendar.isValid_ofDayNumber _
  have hback : t.date.dayNumber = t.wholeSeconds.fdiv 86400 := Calendar.dayNumber_ofDayNumber _
  have hpast : (second : Int) = t.wholeSeconds - t.wholeSeconds.fdiv 86400 * 86400 := by
    rw [hsecond, Int.toNat_of_nonneg hpos]
  have hlast : t.leap = true → second % 60 = 59 := fun hl => by
    have hend := h.leap hl
    omega
  obtain ⟨shown, hshown, hshown60, hflag, hcounted⟩ := exists_shown hlast
  have hseconds : t.date.dayNumber * 86400 + (second / 3600 * 3600 + second / 60 % 60 * 60 : Nat) +
      (if shown = 60 then 59 else shown : Nat) - 0 = t.wholeSeconds := by
    rw [hcounted]
    omega
  rw [← hshown] at htext
  unfold parse?
  rw [htext]
  refine Option.bind_eq_some_iff.mpr ⟨_, year_yearText _ _, ?_⟩
  refine Option.bind_eq_some_iff.mpr ⟨_, mark_cons (by decide) _, ?_⟩
  refine Option.bind_eq_some_iff.mpr ⟨_, number_padded (by decide) hmonth _, ?_⟩
  refine Option.bind_eq_some_iff.mpr ⟨_, mark_cons (by decide) _, ?_⟩
  refine Option.bind_eq_some_iff.mpr ⟨_, number_padded (by decide) hday _, ?_⟩
  refine Option.bind_eq_some_iff.mpr ⟨_, rfl, ?_⟩
  refine Option.bind_eq_some_iff.mpr ⟨_, number_padded (by decide) (by omega) _, ?_⟩
  refine Option.bind_eq_some_iff.mpr ⟨_, mark_cons (by decide) _, ?_⟩
  refine Option.bind_eq_some_iff.mpr ⟨_, number_padded (by decide) (by omega) _, ?_⟩
  refine Option.bind_eq_some_iff.mpr ⟨_, mark_cons (by decide) _, ?_⟩
  refine Option.bind_eq_some_iff.mpr ⟨_, number_padded (by decide) (by omega) _, ?_⟩
  refine Option.bind_eq_some_iff.mpr ⟨_, fraction_fractionText (by omega) _, ?_⟩
  refine Option.bind_eq_some_iff.mpr ⟨(0, []), rfl, ?_⟩
  dsimp only
  rw [hseconds, hflag]
  have hhour : second / 3600 < 24 := by omega
  have hminute : second / 60 % 60 < 60 := Nat.mod_lt _ (by decide)
  refine Option.bind_eq_some_iff.mpr ⟨(), if_pos ?_, ?_⟩
  · simp [h.year, hvalid, hhour, hminute, hshown60]
  refine Option.bind_eq_some_iff.mpr ⟨(), if_pos rfl, ?_⟩
  refine Option.bind_eq_some_iff.mpr ⟨(), if_pos h.year, ?_⟩
  have hwhole : t.wholeSeconds * 1000000000 + ((t.nanos - t.wholeSeconds * 1000000000).toNat : Int) =
      t.nanos := by omega
  rw [hwhole]
  rfl

theorem parse?_eq_some {text : String} (h : parse? text = some t) : ∃ (seconds : Int) (nanos : Nat),
    t.nanos = seconds * 1000000000 + nanos ∧ nanos < 1000000000 ∧
      yearInRange (Calendar.ofDayNumber (seconds.fdiv 86400)).year = true ∧
      (t.leap = true → seconds % 60 = 59) := by
  unfold parse? at h
  obtain ⟨⟨y, s₁⟩, -, h⟩ := Option.bind_eq_some_iff.mp h
  obtain ⟨s₂, -, h⟩ := Option.bind_eq_some_iff.mp h
  obtain ⟨⟨month, s₃⟩, -, h⟩ := Option.bind_eq_some_iff.mp h
  obtain ⟨s₄, -, h⟩ := Option.bind_eq_some_iff.mp h
  obtain ⟨⟨day, s₅⟩, -, h⟩ := Option.bind_eq_some_iff.mp h
  dsimp only at h
  split at h
  case h_4 => cases h
  case h_1 | h_2 | h_3 =>
    obtain ⟨s₆, -, h⟩ := Option.bind_eq_some_iff.mp h
    obtain ⟨⟨hour, s₇⟩, -, h⟩ := Option.bind_eq_some_iff.mp h
    obtain ⟨s₈, -, h⟩ := Option.bind_eq_some_iff.mp h
    obtain ⟨⟨minute, s₉⟩, -, h⟩ := Option.bind_eq_some_iff.mp h
    obtain ⟨s₁₀, -, h⟩ := Option.bind_eq_some_iff.mp h
    obtain ⟨⟨second, s₁₁⟩, -, h⟩ := Option.bind_eq_some_iff.mp h
    obtain ⟨⟨nanos, s₁₂⟩, hnanos, h⟩ := Option.bind_eq_some_iff.mp h
    obtain ⟨⟨shift, s₁₃⟩, hshift, h⟩ := Option.bind_eq_some_iff.mp h
    obtain ⟨_, -, h⟩ := Option.bind_eq_some_iff.mp h
    obtain ⟨_, -, h⟩ := Option.bind_eq_some_iff.mp h
    obtain ⟨_, hrange, h⟩ := Option.bind_eq_some_iff.mp h
    cases h
    refine ⟨_, nanos, rfl, fraction_lt hnanos, (Option.guard_eq_some' _).mp hrange, fun hleap => ?_⟩
    have hoffset := offset_emod hshift
    rw [if_pos (of_decide_eq_true hleap)]
    omega

theorem expressible_of_parse? {text : String} (h : parse? text = some t) : t.Expressible := by
  obtain ⟨seconds, nanos, hnanos, hlt, hrange, hleap⟩ := parse?_eq_some h
  have hwhole : t.wholeSeconds = seconds := by
    rw [Instant.wholeSeconds]
    omega
  constructor
  · rwa [Instant.date, hwhole]
  · rwa [hwhole]

end Rfc3339

end AgentMesh
