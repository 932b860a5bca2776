import AgentMesh.Time.Calendar
import Mathlib.Tactic.IntervalCases

/-!
Dates and day numbers. Every day number has a date, which is a date of the calendar, and the date has
that day number (`Calendar.dayNumber_ofDayNumber`, `Calendar.isValid_ofDayNumber`).
-/

namespace AgentMesh.Calendar

/-- The century, the group of four years, the year and the day of the year of a day in a cycle of 400
years. A year has a day 365 only if it is the last of its group; of the groups that end a century only
the last one has such a year. -/
structure Places (d c q t u : Int) : Prop where
  eq : d = 36524 * c + 1461 * q + 365 * t + u
  century : 0 ≤ c ∧ c ≤ 3
  group : 0 ≤ q ∧ q ≤ 24
  year : 0 ≤ t ∧ t ≤ 3
  day : 0 ≤ u ∧ u ≤ 365
  leapDay : u = 365 → t = 3 ∧ (q = 24 → c = 3)

theorem exists_places {d : Int} (h0 : 0 ≤ d) (h1 : d < 146097) : ∃ c q t u, Places d c q t u := by
  obtain ⟨c, hc⟩ : ∃ c, c = min 3 (d / 36524) := ⟨_, rfl⟩
  obtain ⟨r, hr⟩ : ∃ r, r = d - 36524 * c := ⟨_, rfl⟩
  obtain ⟨t, ht⟩ : ∃ t, t = min 3 (r % 1461 / 365) := ⟨_, rfl⟩
  refine ⟨c, r / 1461, t, r % 1461 - 365 * t, ?_, ?_, ?_, ?_, ?_, ?_⟩ <;> omega

theorem Places.yearOfCycle_eq {d c q t u : Int} (h : Places d c q t u) :
    (d - d / 1460 + d / 36524 - d / 146096) / 365 = 100 * c + 4 * q + t := by
  obtain ⟨heq, hc, hq, ht, hu, hleap⟩ := h
  have hcentury : d / 36524 - d / 146096 = c := by
    obtain hlast | hr : d = 146096 ∨ 1461 * q + 365 * t + u < 36524 := by omega
    · omega
    · have hlt : d < 146096 := by omega
      omega
  have hgroup : d / 1460 = 25 * c + q ∧ u ≠ 365 ∨ d / 1460 = 25 * c + q + 1 ∧ 0 < u := by omega
  omega

theorem Places.dayOfYear_eq {d c q t u : Int} (h : Places d c q t u) :
    d - (365 * (100 * c + 4 * q + t) + (100 * c + 4 * q + t) / 4 - (100 * c + 4 * q + t) / 100) =
      u := by
  obtain ⟨heq, hc, hq, ht, hu, hleap⟩ := h
  omega

def dateFromMarch (year day : Int) : Date :=
  let monthFromMarch := (5 * day + 2) / 153
  let month := if monthFromMarch < 10 then monthFromMarch + 3 else monthFromMarch - 9
  { year := if month ≤ 2 then year + 1 else year, month := month.toNat,
    day := (day - (153 * monthFromMarch + 2) / 5 + 1).toNat }

theorem ofDayNumber_eq (n : Int) : ∃ cycle c q t u, Places (n + 719468 - cycle * 146097) c q t u ∧
    ofDayNumber n = dateFromMarch (100 * c + 4 * q + t + cycle * 400) u := by
  have hcycle : (n + 719468).fdiv 146097 = (n + 719468) / 146097 :=
    Int.fdiv_eq_ediv_of_nonneg _ (by decide)
  obtain ⟨c, q, t, u, h⟩ := exists_places (d := n + 719468 - (n + 719468) / 146097 * 146097)
    (by omega) (by omega)
  refine ⟨_, c, q, t, u, h, ?_⟩
  simp only [ofDayNumber, hcycle, h.yearOfCycle_eq, h.dayOfYear_eq]
  rfl

theorem dayNumber_dateFromMarch {cycle y u : Int} (h0 : 0 ≤ u) (h1 : u ≤ 365) (hy : 0 ≤ y)
    (hy' : y < 400) : (dateFromMarch (y + cycle * 400) u).dayNumber =
      cycle * 146097 + (y * 365 + y / 4 - y / 100 + u) - 719468 := by
  obtain ⟨m, hm⟩ : ∃ m, m = (5 * u + 2) / 153 := ⟨_, rfl⟩
  have hm0 : 0 ≤ m := by omega
  have hm1 : m < 12 := by omega
  have hday : 0 ≤ u - (153 * m + 2) / 5 := by omega
  have hcycle : (y + cycle * 400).fdiv 400 = cycle := by
    rw [Int.fdiv_eq_ediv_of_nonneg _ (by decide)]
    omega
  by_cases hlt : m < 10
  · have hmonth : ¬(m + 3 ≤ 2) := by omega
    have hmonth' : ¬((m + 3).toNat ≤ 2) := by omega
    have hback : (((m + 3).toNat : Int) + 9) % 12 = m := by omega
    simp only [Date.dayNumber, dateFromMarch, ← hm, if_pos hlt, if_neg hmonth, if_neg hmonth', hcycle,
      hback, Int.add_sub_cancel]
    omega
  · have hmonth : m - 9 ≤ 2 := by omega
    have hmonth' : (m - 9).toNat ≤ 2 := by omega
    have hback : (((m - 9).toNat : Int) + 9) % 12 = m := by omega
    simp only [Date.dayNumber, dateFromMarch, ← hm, if_neg hlt, if_pos hmonth, if_pos hmonth',
      Int.add_sub_cancel, hcycle, hback]
    omega

theorem isValid_dateFromMarch {year u : Int} (h0 : 0 ≤ u) (h1 : u ≤ 365)
    (hleap : u = 365 → isLeapYear (year + 1) = true) : (dateFromMarch year u).isValid = true := by
  obtain ⟨m, hm⟩ : ∃ m, m = (5 * u + 2) / 153 := ⟨_, rfl⟩
  have hm0 : 0 ≤ m := by omega
  have hm1 : m ≤ 11 := by omega
  simp only [Date.isValid, dateFromMarch, ← hm]
  by_cases hlast : m = 11
  · subst hlast
    simp only [monthLength]
    by_cases hday : u = 365
    · simp [hleap hday, hday]
    · simp
      omega
  · have hlt : m < 11 := by omega
    interval_cases m <;> simp [monthLength] <;> omega

theorem Places.isLeapYear {d c q t u : Int} (h : Places d c q t u) (hu : u = 365) (cycle : Int) :
    isLeapYear (100 * c + 4 * q + t + cycle * 400 + 1) = true := by
  obtain ⟨ht, hq⟩ := h.leapDay hu
  have hgroup := h.group
  simp only [Calendar.isLeapYear, Bool.and_eq_true, Bool.or_eq_true, decide_eq_true_eq]
  omega

theorem dayNumber_ofDayNumber (n : Int) : (ofDayNumber n).dayNumber = n := by
  obtain ⟨cycle, c, q, t, u, h, he⟩ := ofDayNumber_eq n
  have hd := h.dayOfYear_eq
  obtain ⟨heq, hc, hq, ht, hu, -⟩ := h
  rw [he, dayNumber_dateFromMarch hu.1 hu.2 (by omega) (by omega)]
  omega

theorem isValid_ofDayNumber (n : Int) : (ofDayNumber n).isValid = true := by
  obtain ⟨cycle, c, q, t, u, h, he⟩ := ofDayNumber_eq n
  rw [he]
  exact isValid_dateFromMarch h.day.1 h.day.2 fun hu => h.isLeapYear hu cycle

end AgentMesh.Calendar
