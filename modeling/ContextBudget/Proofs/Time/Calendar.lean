import ContextBudget.Time.Moment

/-!
# The calendar

A day that is found by its number has this number. The calendar repeats after an era of 400 years;
within one, a year is found by dividing the number of a day by 365, once the leap days before it
are taken away. The division is right at the first and at the last day of each year and goes up
with the days, so it is right between them.

- `toDays_ofDays`: the day that is found by a number has this number.
- `ofDays_isValid`: it is a day that the calendar has.
-/

namespace ContextBudget
namespace CalendarDay

theorem isLeapYear_iff {year : Int} :
    isLeapYear year = true ↔ year % 4 = 0 ∧ (year % 100 ≠ 0 ∨ year % 400 = 0) := by
  simp [isLeapYear]

theorem isLeapYear_add_era (year era : Int) : isLeapYear (year + era * 400) = isLeapYear year := by
  have hfour : (year + era * 400) % 4 = year % 4 := by omega
  have hcentury : (year + era * 400) % 100 = year % 100 := by omega
  rw [isLeapYear, hfour, hcentury, Int.add_mul_emod_self_right, isLeapYear]

/-! ## The years of an era -/

/-- The days of an era before its year `y`. -/
def yearStart (y : Int) : Int := 365 * y + y / 4 - y / 100

/-- The year of an era in which its day `d` lies. -/
def yearOfEra (d : Int) : Int := (d - d / 1460 + d / 36524 - d / 146096) / 365

theorem yearOfEra_mono {a b : Int} (ha : 0 ≤ a) (hab : a ≤ b) (hb : b < 146097) :
    yearOfEra a ≤ yearOfEra b := by
  have hfours : a - a / 1460 ≤ b - b / 1460 := by omega
  have hcenturies : a / 36524 - a / 146096 ≤ b / 36524 - b / 146096 := by omega
  rw [yearOfEra, yearOfEra]
  omega

theorem yearOfEra_start : ∀ y < 400, yearOfEra (yearStart (y : Nat)) = y := by decide +kernel

theorem yearOfEra_end : ∀ y < 399, yearOfEra (yearStart ((y + 1 : Nat) : Int) - 1) = (y : Nat) := by
  decide +kernel

/-- Day `r` of year `y` of an era, which is 365 on the leap day that ends the year. -/
structure DayOfEra (y r : Int) : Prop where
  year : 0 ≤ y ∧ y < 400
  day : 0 ≤ r ∧ r ≤ 365
  leap : r = 365 → isLeapYear (y + 1) = true

/-- A year begins no later than a day that is found in it: a day before the year's first one is at
most the last day of the year before. -/
theorem yearStart_le {d : Int} {n : Nat} (h0 : 0 ≤ d) (hd : d < 146097) (hn : n < 400)
    (hy : yearOfEra d = n) : yearStart n ≤ d := by
  refine Int.not_lt.mp fun hbefore => ?_
  have hpos : 1 ≤ n := by
    rw [yearStart] at hbefore
    omega
  have hend := yearOfEra_end (n - 1) (by omega)
  rw [Nat.sub_add_cancel hpos] at hend
  have hmono := yearOfEra_mono h0 (Int.le_sub_one_of_lt hbefore) (by rw [yearStart]; omega)
  omega

/-- The next year begins later: a day after the year's last one is at least the first day of the
year after. -/
theorem lt_yearStart_succ {d : Int} {n : Nat} (hd : d < 146097) (hn : n < 399)
    (hy : yearOfEra d = n) : d < yearStart (n + 1) := by
  refine Int.not_le.mp fun hafter => ?_
  have hstart : yearOfEra (yearStart (n + 1)) = n + 1 := yearOfEra_start (n + 1) (by omega)
  have hmono := yearOfEra_mono (by rw [yearStart]; omega) hafter hd
  omega

/-- A year of 366 days ends in a leap day. -/
theorem isLeapYear_of_long {y : Int} (hlong : yearStart y + 365 < yearStart (y + 1)) :
    isLeapYear (y + 1) = true := by
  rw [yearStart, yearStart] at hlong
  have hfour : (y + 1) % 4 = 0 := by
    refine Decidable.byContradiction fun hne => ?_
    have hsame : (y + 1) / 4 = y / 4 := by omega
    omega
  have hcentury : (y + 1) % 100 ≠ 0 := by
    intro hzero
    have hnext : (y + 1) / 100 = y / 100 + 1 := by omega
    omega
  exact isLeapYear_iff.mpr ⟨hfour, .inl hcentury⟩

theorem dayOfEra {d : Int} (h0 : 0 ≤ d) (hd : d < 146097) :
    DayOfEra (yearOfEra d) (d - yearStart (yearOfEra d)) := by
  have hyear : 0 ≤ yearOfEra d ∧ yearOfEra d < 400 := by
    rw [yearOfEra]
    omega
  generalize hy : yearOfEra d = y at hyear
  obtain ⟨n, rfl⟩ := Int.eq_ofNat_of_zero_le hyear.1
  have hfirst := yearStart_le h0 hd (by omega) hy
  by_cases hn : n < 399
  · have hlast := lt_yearStart_succ hd hn hy
    refine ⟨hyear, ?_, fun hday => isLeapYear_of_long (by omega)⟩
    rw [yearStart] at *
    omega
  · obtain rfl : n = 399 := by omega
    have hlast : d - yearStart 399 ≤ 365 := by
      rw [yearStart]
      omega
    exact ⟨hyear, ⟨Int.sub_nonneg.mpr hfirst, hlast⟩, fun _ => by decide⟩

/-! ## The months of a year -/

/-- The months that have passed since March on day `r` of a year. -/
def monthsPassed (r : Int) : Int := (5 * r + 2) / 153

/-- The month in which day `r` of a year lies. -/
def monthOf (r : Int) : Nat :=
  (if monthsPassed r < 10 then monthsPassed r + 3 else monthsPassed r - 9).toNat

/-- The day of its month that day `r` of a year is. -/
def dayOfMonth (r : Int) : Nat := (r - (153 * monthsPassed r + 2) / 5 + 1).toNat

theorem dayOfMonth_common : ∀ r < 365, 1 ≤ dayOfMonth (r : Nat) ∧
    dayOfMonth (r : Nat) ≤ monthLength 1 (monthOf (r : Nat)) := by decide +kernel

theorem monthLength_le (year : Int) (month : Nat) :
    monthLength 1 month ≤ monthLength year month := by
  by_cases h : month = 2
  · rw [monthLength, monthLength, if_pos h, if_pos h]
    cases isLeapYear year <;> decide
  · have hsame : monthLength 1 month = monthLength year month := by
      rw [monthLength, monthLength, if_neg h, if_neg h]
    exact Nat.le_of_eq hsame

theorem dayOfMonth_bounds {y r : Int} (h : DayOfEra y r) (era : Int) :
    1 ≤ dayOfMonth r ∧ dayOfMonth r ≤
      monthLength (y + era * 400 + (if monthOf r ≤ 2 then 1 else 0)) (monthOf r) := by
  obtain ⟨hr0, hr⟩ := h.day
  obtain ⟨n, rfl⟩ := Int.eq_ofNat_of_zero_le hr0
  by_cases hn : n < 365
  · obtain ⟨hfirst, hlast⟩ := dayOfMonth_common n hn
    exact ⟨hfirst, Nat.le_trans hlast (monthLength_le _ _)⟩
  · obtain rfl : n = 365 := by omega
    have hleap := h.leap rfl
    rw [← isLeapYear_add_era _ era, Int.add_right_comm] at hleap
    change 1 ≤ 29 ∧ 29 ≤ (if isLeapYear (y + era * 400 + 1) = true then 29 else 28)
    rw [hleap]
    decide

/-! ## Days by number -/

theorem ofDays_eq (days : Int) : ∃ era y r, DayOfEra y r ∧
    days + 719468 = era * 146097 + (yearStart y + r) ∧
    ofDays days =
      ⟨y + era * 400 + (if monthOf r ≤ 2 then 1 else 0), monthOf r, dayOfMonth r⟩ := by
  have h := dayOfEra (d := days + 719468 - (days + 719468) / 146097 * 146097)
    (by omega) (by omega)
  exact ⟨(days + 719468) / 146097, _, _, h, by omega, rfl⟩

/-- The day that is found by a number has this number. -/
theorem toDays_ofDays (days : Int) : (ofDays days).toDays = days := by
  obtain ⟨era, y, r, ⟨hyear, hday, -⟩, hdays, heq⟩ := ofDays_eq days
  rw [heq, toDays]
  have hmonths : 0 ≤ monthsPassed r ∧ monthsPassed r < 12 := by
    rw [monthsPassed]
    omega
  have hpassed : (if monthOf r ≤ 2 then (monthOf r : Int) + 9 else (monthOf r : Int) - 3) =
      monthsPassed r := by
    rw [monthOf]
    omega
  have hyears : (if monthOf r ≤ 2 then y + era * 400 + (if monthOf r ≤ 2 then 1 else 0) - 1
      else y + era * 400 + (if monthOf r ≤ 2 then 1 else 0)) = y + era * 400 := by
    split <;> omega
  have hnumber : (153 * monthsPassed r + 2) / 5 + (dayOfMonth r : Int) - 1 = r := by
    rw [dayOfMonth, monthsPassed]
    omega
  simp only [hpassed, hyears, hnumber]
  rw [yearStart] at hdays
  have hera : (y + era * 400) / 400 = era := by omega
  rw [hera, Int.add_sub_cancel]
  omega

/-- The day that is found by a number is a day of the calendar, if its year is one. -/
theorem ofDays_isValid (days : Int) (hfirst : -262143 ≤ (ofDays days).year)
    (hlast : (ofDays days).year ≤ 262142) : (ofDays days).isValid = true := by
  obtain ⟨era, y, r, h, -, heq⟩ := ofDays_eq days
  obtain ⟨hday, hlength⟩ := dayOfMonth_bounds h era
  have hmonth : 1 ≤ monthOf r ∧ monthOf r ≤ 12 := by
    have := h.day
    rw [monthOf, monthsPassed]
    omega
  rw [heq] at hfirst hlast ⊢
  simp [isValid, hfirst, hlast, hmonth, hday, hlength]

theorem lt_of_isValid {d : CalendarDay} (h : d.isValid = true) : d.month < 100 ∧ d.day < 100 := by
  have hlength : monthLength d.year d.month ≤ 31 := by
    rw [monthLength]
    split
    · split <;> decide
    · split <;> decide
  simp only [isValid, Bool.and_eq_true, decide_eq_true_eq] at h
  omega

/-- The number of a day lies within the eras of its year. -/
theorem days_bounds (days : Int) : (ofDays days).year * 146097 ≤ (days + 719468 + 146097) * 400 ∧
    (days + 719468) * 400 < ((ofDays days).year + 400) * 146097 := by
  obtain ⟨era, y, r, ⟨hyear, hday, -⟩, hdays, heq⟩ := ofDays_eq days
  rw [heq]
  rw [yearStart] at hdays
  constructor <;> dsimp only <;> split <;> omega

end CalendarDay
end ContextBudget
