import Mathlib.Tactic.IntervalCases
import Mathlib.Tactic.Ring
import Mathlib.Order.Basic

/-! Civil dates and day numbers counted from 1970-01-01, in both directions.
The years begin in March, so that the leap day is the last day of a year. -/

namespace CorpusFeed

structure CivilDate where
  year : Nat
  month : Nat
  day : Nat
deriving DecidableEq

def monthLength (year month : Nat) : Nat :=
  if month = 2 then
    if year % 4 = 0 ∧ (year % 100 ≠ 0 ∨ year % 400 = 0) then 29 else 28
  else if month = 4 ∨ month = 6 ∨ month = 9 ∨ month = 11 then 30
  else 31

namespace CivilDate

/-- A day of the calendar. -/
structure Valid (date : CivilDate) : Prop where
  month_pos : 1 ≤ date.month
  month_le : date.month ≤ 12
  day_pos : 1 ≤ date.day
  day_le : date.day ≤ monthLength date.year date.month

def Before (date other : CivilDate) : Prop :=
  date.year < other.year ∨ (date.year = other.year ∧
    (date.month < other.month ∨ (date.month = other.month ∧ date.day < other.day)))

theorem before_trichotomy (date other : CivilDate) : date.Before other ∨ date = other ∨ other.Before date := by
  obtain ⟨year, month, day⟩ := date
  obtain ⟨year', month', day'⟩ := other
  simp only [Before, CivilDate.mk.injEq]
  omega

end CivilDate

/-- Days from 1970-01-01 to a date. -/
def dayNumber (year month day : Int) : Int :=
  let y := if month ≤ 2 then year - 1 else year
  let mp := if 2 < month then month - 3 else month + 9
  365 * y + y / 4 - y / 100 + y / 400 + (153 * mp + 2) / 5 + day - 719469

def CivilDate.number (date : CivilDate) : Int := dayNumber date.year date.month date.day

theorem dayNumber_next_day (year month day : Int) (n : Int) :
    dayNumber year month (day + n) = dayNumber year month day + n := by
  unfold dayNumber
  dsimp only
  ring

theorem dayNumber_next_month (year month : Nat) (hpos : 1 ≤ month) (hlt : month < 12) :
    dayNumber year (month + 1 : Nat) 1 = dayNumber year month 1 + monthLength year month := by
  unfold dayNumber monthLength
  interval_cases month <;> simp <;> omega

theorem dayNumber_next_year (year : Nat) :
    dayNumber (year + 1 : Nat) (1 : Nat) 1 = dayNumber year (12 : Nat) 1 + 31 := by
  unfold dayNumber
  simp
  omega

theorem dayNumber_month_mono (year : Nat) {month month' : Nat} (hpos : 1 ≤ month) (h : month ≤ month')
    (hle : month' ≤ 12) : dayNumber year month 1 ≤ dayNumber year month' 1 := by
  induction month', h using Nat.le_induction with
  | base => exact le_refl _
  | succ month' hmonth ih =>
    have hstep := dayNumber_next_month year month' (by omega) (by omega)
    have hbefore := ih (by omega)
    omega

theorem dayNumber_year_mono {year year' : Nat} (h : year ≤ year') :
    dayNumber year (1 : Nat) 1 ≤ dayNumber year' (1 : Nat) 1 := by
  induction year', h using Nat.le_induction with
  | base => exact le_refl _
  | succ year' hyear ih =>
    have hstep := dayNumber_next_year year'
    have hmonths := dayNumber_month_mono year' (le_refl 1) (show 1 ≤ 12 by omega) (le_refl 12)
    omega

theorem dayNumber_month_lt (year : Nat) {month month' : Nat} (hpos : 1 ≤ month) (h : month < month') (hle : month' ≤ 12) :
    dayNumber year month 1 + monthLength year month ≤ dayNumber year month' 1 := by
  have hnext := dayNumber_next_month year month hpos (by omega)
  have hlater := dayNumber_month_mono year (show 1 ≤ month + 1 by omega) h hle
  omega

theorem dayNumber_year_lt {year year' month month' : Nat} (hpos : 1 ≤ month) (hle : month ≤ 12)
    (hpos' : 1 ≤ month') (hle' : month' ≤ 12) (h : year < year') :
    dayNumber year month 1 + monthLength year month ≤ dayNumber year' month' 1 := by
  have hend : dayNumber year month 1 + monthLength year month ≤ dayNumber (year + 1 : Nat) (1 : Nat) 1 := by
    have hlast := dayNumber_next_year year
    by_cases hmonth : month = 12
    · have hdays : monthLength year 12 = 31 := rfl
      rw [hmonth, hdays]
      omega
    · have hmonths := dayNumber_month_lt year hpos (show month < 12 by omega) (le_refl 12)
      omega
  have hyears := dayNumber_year_mono (show year + 1 ≤ year' by omega)
  have hmonths := dayNumber_month_mono year' (le_refl 1) hpos' hle'
  omega

namespace CivilDate

variable {date other : CivilDate}

theorem number_eq (date : CivilDate) : date.number = dayNumber date.year date.month 1 + (date.day - 1) := by
  unfold number
  rw [← dayNumber_next_day]
  congr 1
  omega

theorem Valid.number_lt (h : date.Valid) (h' : other.Valid) (hbefore : date.Before other) :
    date.number < other.number := by
  have hday := h.day_le
  have hday' := h'.day_pos
  rw [number_eq, number_eq]
  rcases hbefore with hyear | ⟨hyear, hmonth | ⟨hmonth, hday⟩⟩
  · have hyears := dayNumber_year_lt h.month_pos h.month_le h'.month_pos h'.month_le hyear
    omega
  · have hmonths := dayNumber_month_lt date.year h.month_pos hmonth h'.month_le
    rw [← hyear]
    omega
  · rw [← hyear, ← hmonth]
    omega

theorem Valid.number_inj (h : date.Valid) (h' : other.Valid) (heq : date.number = other.number) : date = other := by
  rcases before_trichotomy date other with hbefore | hsame | hbefore
  · have hlt := h.number_lt h' hbefore
    omega
  · exact hsame
  · have hlt := h'.number_lt h hbefore
    omega

theorem Valid.before_of_number_lt (h : date.Valid) (h' : other.Valid) (hlt : date.number < other.number) :
    date.Before other := by
  rcases before_trichotomy date other with hbefore | hsame | hbefore
  · exact hbefore
  · rw [hsame] at hlt
    omega
  · have hgt := h'.number_lt h hbefore
    omega

end CivilDate

/-- The year of a day within an era of 400 years. -/
def yearOfEra (doe : Nat) : Nat := (doe - doe / 1460 + doe / 36524 - doe / 146096) / 365

/-- The first day of a year of an era. -/
def startOfYear (yoe : Nat) : Nat := 365 * yoe + yoe / 4 - yoe / 100

theorem yearOfEra_mono {doe doe' : Nat} (h : doe ≤ doe') : yearOfEra doe ≤ yearOfEra doe' := by
  induction doe', h using Nat.le_induction with
  | base => exact le_refl _
  | succ doe' hle ih =>
    have hstep : yearOfEra doe' ≤ yearOfEra (doe' + 1) := by
      unfold yearOfEra
      omega
    exact ih.trans hstep

theorem yearOfEra_ends : ∀ yoe < 400, yearOfEra (startOfYear yoe) = yoe ∧
    (0 < yoe → yearOfEra (startOfYear yoe - 1) = yoe - 1) := by
  decide +kernel

theorem yearOfEra_lt {doe : Nat} (h : doe < 146097) : yearOfEra doe < 400 := by
  unfold yearOfEra
  omega

theorem yearOfEra_bounds {doe : Nat} (h : doe < 146097) :
    startOfYear (yearOfEra doe) ≤ doe ∧ (yearOfEra doe < 399 → doe < startOfYear (yearOfEra doe + 1)) := by
  have hyoe := yearOfEra_lt h
  constructor
  · by_contra hbefore
    have hpos : 0 < yearOfEra doe := by
      by_contra hzero
      have hstart : startOfYear (yearOfEra doe) = 0 := by simp [startOfYear, show yearOfEra doe = 0 by omega]
      omega
    have hend := (yearOfEra_ends _ hyoe).2 hpos
    have hmono := yearOfEra_mono (show doe ≤ startOfYear (yearOfEra doe) - 1 by omega)
    omega
  · intro hlast
    by_contra hafter
    have hstart := (yearOfEra_ends (yearOfEra doe + 1) (by omega)).1
    have hmono := yearOfEra_mono (show startOfYear (yearOfEra doe + 1) ≤ doe by omega)
    omega

/-- The date of a day, by the era of 400 years it lies in. -/
def civilFromDays (days : Nat) : CivilDate :=
  let z := days + 719468
  let era := z / 146097
  let doe := z - era * 146097
  let yoe := (doe - doe / 1460 + doe / 36524 - doe / 146096) / 365
  let year := yoe + era * 400
  let doy := doe - (365 * yoe + yoe / 4 - yoe / 100)
  let mp := (5 * doy + 2) / 153
  let day := doy - (153 * mp + 2) / 5 + 1
  let month := if mp < 10 then mp + 3 else mp - 9
  let year := if month ≤ 2 then year + 1 else year
  ⟨year, month, day⟩

/-- The date of a day of a year that begins in March. -/
def civilFromYearDay (marchYear doy : Nat) : CivilDate :=
  let mp := (5 * doy + 2) / 153
  let month := if mp < 10 then mp + 3 else mp - 9
  ⟨if month ≤ 2 then marchYear + 1 else marchYear, month, doy - (153 * mp + 2) / 5 + 1⟩

theorem civilFromDays_eq (days : Nat) : ∃ era yoe doy, yoe < 400 ∧ doy ≤ 365 ∧
    days + 719468 = era * 146097 + startOfYear yoe + doy ∧
    (yoe < 399 → startOfYear yoe + doy < startOfYear (yoe + 1)) ∧
    civilFromDays days = civilFromYearDay (yoe + era * 400) doy := by
  have hdoe : days + 719468 - (days + 719468) / 146097 * 146097 < 146097 := by omega
  obtain ⟨hstart, hend⟩ := yearOfEra_bounds hdoe
  have hyoe := yearOfEra_lt hdoe
  refine ⟨(days + 719468) / 146097, yearOfEra (days + 719468 - (days + 719468) / 146097 * 146097),
    (days + 719468 - (days + 719468) / 146097 * 146097) -
      startOfYear (yearOfEra (days + 719468 - (days + 719468) / 146097 * 146097)), hyoe, ?_, ?_, ?_, rfl⟩
  · by_cases hlast : yearOfEra (days + 719468 - (days + 719468) / 146097 * 146097) < 399
    · have hnext := hend hlast
      unfold startOfYear at hnext hstart ⊢
      omega
    · have heq : yearOfEra (days + 719468 - (days + 719468) / 146097 * 146097) = 399 := by omega
      rw [heq]
      unfold startOfYear
      omega
  · omega
  · intro hlast
    have hnext := hend hlast
    omega

theorem civilFromYearDay_early {marchYear doy : Nat} (h : (5 * doy + 2) / 153 < 10) :
    civilFromYearDay marchYear doy =
      ⟨marchYear, (5 * doy + 2) / 153 + 3, doy - (153 * ((5 * doy + 2) / 153) + 2) / 5 + 1⟩ := by
  unfold civilFromYearDay
  dsimp only
  rw [if_pos h, if_neg (by omega)]

theorem civilFromYearDay_late {marchYear doy : Nat} (h : 10 ≤ (5 * doy + 2) / 153) (hdoy : doy ≤ 365) :
    civilFromYearDay marchYear doy =
      ⟨marchYear + 1, (5 * doy + 2) / 153 - 9, doy - (153 * ((5 * doy + 2) / 153) + 2) / 5 + 1⟩ := by
  have hmonth : (5 * doy + 2) / 153 - 9 ≤ 2 := by omega
  simp only [civilFromYearDay, Nat.not_lt.mpr h, if_false, hmonth, if_true]

theorem civilFromYearDay_valid {era yoe doy : Nat} (hyoe : yoe < 400) (hdoy : doy ≤ 365)
    (hend : yoe < 399 → startOfYear yoe + doy < startOfYear (yoe + 1)) :
    (civilFromYearDay (yoe + era * 400) doy).Valid := by
  have hmp : (5 * doy + 2) / 153 ≤ 11 := by omega
  generalize hmonth : (5 * doy + 2) / 153 = mp at hmp
  have hlow : 153 * mp ≤ 5 * doy + 2 := by omega
  have hhigh : 5 * doy + 2 < 153 * (mp + 1) := by omega
  by_cases hlate : mp < 10
  · rw [civilFromYearDay_early (by omega), hmonth]
    refine ⟨show 1 ≤ mp + 3 by omega, show mp + 3 ≤ 12 by omega, Nat.succ_pos _, ?_⟩
    unfold monthLength
    interval_cases mp <;> simp <;> omega
  · rw [civilFromYearDay_late (by omega) hdoy, hmonth]
    refine ⟨show 1 ≤ mp - 9 by omega, show mp - 9 ≤ 12 by omega, Nat.succ_pos _, ?_⟩
    unfold monthLength
    by_cases hfebruary : mp = 11
    · -- the last day of a leap year is the 29th of February
      unfold startOfYear at hend
      subst hfebruary
      dsimp only
      split_ifs <;> omega
    · have hjanuary : mp = 10 := by omega
      subst hjanuary
      simp
      omega

theorem dayNumber_early {month : Int} (h : 2 < month) (year day : Int) :
    dayNumber year month day =
      365 * year + year / 4 - year / 100 + year / 400 + (153 * (month - 3) + 2) / 5 + day - 719469 := by
  unfold dayNumber
  dsimp only
  rw [if_neg (by omega), if_pos h]

theorem dayNumber_late {month : Int} (h : month ≤ 2) (year day : Int) :
    dayNumber year month day = 365 * (year - 1) + (year - 1) / 4 - (year - 1) / 100 + (year - 1) / 400 +
      (153 * (month + 9) + 2) / 5 + day - 719469 := by
  unfold dayNumber
  dsimp only
  rw [if_pos h, if_neg (by omega)]

theorem civilFromYearDay_number {era yoe doy : Nat} (hyoe : yoe < 400) (hdoy : doy ≤ 365) :
    (civilFromYearDay (yoe + era * 400) doy).number = era * 146097 + startOfYear yoe + doy - 719468 := by
  unfold startOfYear CivilDate.number
  by_cases hlate : (5 * doy + 2) / 153 < 10
  · rw [civilFromYearDay_early hlate, dayNumber_early (by dsimp only; omega)]
    dsimp only
    omega
  · rw [civilFromYearDay_late (by omega) hdoy, dayNumber_late (by dsimp only; omega)]
    dsimp only
    omega

theorem civilFromDays_valid (days : Nat) : (civilFromDays days).Valid := by
  obtain ⟨era, yoe, doy, hyoe, hdoy, _, hend, heq⟩ := civilFromDays_eq days
  rw [heq]
  exact civilFromYearDay_valid hyoe hdoy hend

theorem civilFromDays_number (days : Nat) : (civilFromDays days).number = days := by
  obtain ⟨era, yoe, doy, hyoe, hdoy, hdays, _, heq⟩ := civilFromDays_eq days
  rw [heq, civilFromYearDay_number hyoe hdoy]
  omega

/-- Every calendar day from 1970 on is the date of its number. -/
theorem civilFromDays_of_number {date : CivilDate} {days : Nat} (h : date.Valid) (hnumber : date.number = days) :
    civilFromDays days = date :=
  (civilFromDays_valid days).number_inj h ((civilFromDays_number days).trans hnumber.symm)

theorem civilFromDays_before {days days' : Nat} (h : days < days') :
    (civilFromDays days).Before (civilFromDays days') := by
  apply (civilFromDays_valid days).before_of_number_lt (civilFromDays_valid days')
  rw [civilFromDays_number, civilFromDays_number]
  exact_mod_cast h

end CorpusFeed
