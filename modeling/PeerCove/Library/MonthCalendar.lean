/-
Module: PeerCove.Library.MonthCalendar
Layer: Library
Purpose: The proleptic Gregorian calendar, with years that begin in March: the day on which a month
  begins, the year, month and day of month of a day, and that these come in the order of the days.
Trusted boundary: none
Main exports: MonthCalendar.monthStart, MonthCalendar.monthStart_strictMono, MonthCalendar.IsDay,
  MonthCalendar.isDay_yearMonth, MonthCalendar.IsDay.lt_or_same
-/
import Mathlib.Order.Monotone.Basic
import Mathlib.Order.Nat

namespace MonthCalendar

/-- The number of days, from the first of March of year 0, on which a year begins that begins in
March. -/
def yearStart (year : Nat) : Nat :=
  365 * year + year / 4 + year / 400 - year / 100

/-- The day on which a month begins, where months are counted from March of year 0. -/
def monthStart (month : Nat) : Nat :=
  yearStart (month / 12) + (153 * (month % 12) + 2) / 5

/-- A day lies in a month, as that day of it, counted from 0. -/
def IsDay (day month rank : Nat) : Prop :=
  day = monthStart month + rank ∧ day < monthStart (month + 1)

theorem monthStart_strictMono : StrictMono monthStart := by
  apply strictMono_nat_of_lt_succ
  intro month
  unfold monthStart yearStart
  by_cases wraps : month % 12 = 11
  · have year : (month + 1) / 12 = month / 12 + 1 := by omega
    have first : (month + 1) % 12 = 0 := by omega
    rw [wraps, year, first]
    generalize month / 12 = year
    omega
  · have year : (month + 1) / 12 = month / 12 := by omega
    have next : (month + 1) % 12 = month % 12 + 1 := by omega
    rw [year, next]
    omega

theorem monthStart_succ_le (month : Nat) : monthStart (month + 1) ≤ monthStart month + 31 := by
  unfold monthStart yearStart
  by_cases wraps : month % 12 = 11
  · have year : (month + 1) / 12 = month / 12 + 1 := by omega
    have first : (month + 1) % 12 = 0 := by omega
    rw [wraps, year, first]
    generalize month / 12 = year
    omega
  · have year : (month + 1) / 12 = month / 12 := by omega
    have next : (month + 1) % 12 = month % 12 + 1 := by omega
    rw [year, next]
    omega

/-- No month has more than 31 days. -/
theorem IsDay.rank_lt {day month rank : Nat} (isDay : IsDay day month rank) : rank < 31 := by
  obtain ⟨rfl, inside⟩ := isDay
  have longest := monthStart_succ_le month
  omega

/-- A later day is in a later month, or later in the same month. -/
theorem IsDay.lt_or_same {one two oneMonth twoMonth oneRank twoRank : Nat}
    (first : IsDay one oneMonth oneRank) (second : IsDay two twoMonth twoRank)
    (less : one < two) : oneMonth < twoMonth ∨ oneMonth = twoMonth ∧ oneRank < twoRank := by
  obtain ⟨rfl, _⟩ := first
  obtain ⟨rfl, inside⟩ := second
  rcases Nat.lt_trichotomy oneMonth twoMonth with before | same | after
  · exact Or.inl before
  · subst same
    exact Or.inr ⟨rfl, by omega⟩
  · have begins := monthStart_strictMono.monotone (show twoMonth + 1 ≤ oneMonth from after)
    omega

/-! ### The arithmetic of an era of 400 years -/

/-- The year of an era, computed from the day of the era with the leap days taken out. -/
def yearOfEra (day : Nat) : Nat :=
  (day - day / 1460 + day / 36524 - day / 146096) / 365

/-- The year of the day of an era, for a day given by its century, its four years and the rest. -/
theorem yearOfEra_split {century four rest : Nat} (centuries : century ≤ 3) (fours : four ≤ 24)
    (short : rest ≤ 1460) (shorter : four = 24 → rest ≤ 1459) :
    ∃ year, year ≤ 3 ∧
      yearOfEra (36524 * century + 1461 * four + rest) = 100 * century + 4 * four + year ∧
      365 * year ≤ rest ∧ (rest < 365 * (year + 1) ∨ year = 3) := by
  generalize whole : 36524 * century + 1461 * four + rest = day
  have last : day / 146096 = 0 := by omega
  have hundreds : day / 36524 = century := by omega
  have leaps : day / 1460 = 25 * century + four + (24 * century + four + rest) / 1460 := by omega
  refine ⟨(rest - (24 * century + four + rest) / 1460) / 365, ?_, ?_, ?_, ?_⟩
  · omega
  · rw [yearOfEra, last, hundreds, leaps, ← whole]
    omega
  · omega
  · omega

/-- A day of an era lies in the year that is computed for it. -/
theorem yearOfEra_bounds {day : Nat} (inside : day < 146097) :
    yearOfEra day < 400 ∧ yearStart (yearOfEra day) ≤ day ∧
      day < yearStart (yearOfEra day + 1) := by
  by_cases last : day = 146096
  · subst last
    decide
  · have centuries : day / 36524 ≤ 3 := by omega
    have fours : day % 36524 / 1461 ≤ 24 := by omega
    have short : day % 36524 % 1461 ≤ 1460 := by omega
    have shorter : day % 36524 / 1461 = 24 → day % 36524 % 1461 ≤ 1459 := by omega
    have whole : day
        = 36524 * (day / 36524) + 1461 * (day % 36524 / 1461) + day % 36524 % 1461 := by omega
    obtain ⟨extra, few, same, low, high⟩ := yearOfEra_split centuries fours short shorter
    rw [← whole] at same
    generalize day / 36524 = century at *
    generalize day % 36524 / 1461 = four at *
    generalize day % 36524 % 1461 = rest at *
    generalize yearOfEra day = year at *
    have quarter : year / 4 = 25 * century + four := by omega
    have hundredth : year / 100 = century := by omega
    unfold yearStart
    refine ⟨by omega, by omega, ?_⟩
    by_cases leap : extra = 3
    · have nextQuarter : (year + 1) / 4 = 25 * century + four + 1 := by omega
      by_cases ends : four = 24
      · have nextHundredth : (year + 1) / 100 = century + 1 := by omega
        omega
      · have nextHundredth : (year + 1) / 100 = century := by omega
        omega
    · have nextQuarter : (year + 1) / 4 = 25 * century + four := by omega
      have nextHundredth : (year + 1) / 100 = century := by omega
      omega

/-- The beginnings of the years repeat with the eras. -/
theorem yearStart_era (era year : Nat) :
    yearStart (400 * era + year) = 146097 * era + yearStart year := by
  unfold yearStart
  have fours : (400 * era + year) / 4 = 100 * era + year / 4 := by omega
  have hundreds : (400 * era + year) / 100 = 4 * era + year / 100 := by omega
  have eras : (400 * era + year) / 400 = era + year / 400 := by omega
  rw [fours, hundreds, eras]
  omega

/-- The month of a day of the year lies around it. -/
theorem monthOfYear_bounds {day : Nat} (inside : day ≤ 365) :
    (5 * day + 2) / 153 ≤ 11 ∧ (153 * ((5 * day + 2) / 153) + 2) / 5 ≤ day ∧
      day < (153 * ((5 * day + 2) / 153 + 1) + 2) / 5 := by
  refine ⟨by omega, by omega, by omega⟩

/-- The year, month and day of month of a day, as computed from its era. -/
theorem isDay_yearMonth (day : Nat) :
    let dayOfEra := day % 146097
    let year := yearOfEra dayOfEra
    let dayOfYear := dayOfEra - yearStart year
    let month := (5 * dayOfYear + 2) / 153
    month ≤ 11 ∧ IsDay day (12 * (400 * (day / 146097) + year) + month)
      (dayOfYear - (153 * month + 2) / 5) := by
  intro dayOfEra year dayOfYear month
  have inside : dayOfEra < 146097 := Nat.mod_lt _ (by decide)
  have whole : day = 146097 * (day / 146097) + dayOfEra := (Nat.div_add_mod day 146097).symm
  obtain ⟨inEra, begins, ends⟩ := yearOfEra_bounds inside
  have ends : dayOfEra < yearStart (year + 1) := ends
  have begins : yearStart year ≤ dayOfEra := begins
  have short : dayOfYear ≤ 365 := by
    have longest : yearStart (year + 1) ≤ yearStart year + 366 := by
      unfold yearStart
      omega
    omega
  obtain ⟨isMonth, monthBegins, monthEnds⟩ := monthOfYear_bounds short
  have isMonth : month ≤ 11 := isMonth
  refine ⟨isMonth, ?_, ?_⟩
  · have inYear : (12 * (400 * (day / 146097) + year) + month) / 12
        = 400 * (day / 146097) + year := by omega
    have ofYear : (12 * (400 * (day / 146097) + year) + month) % 12 = month := by omega
    rw [monthStart, inYear, ofYear, yearStart_era]
    omega
  · by_cases wraps : month = 11
    · have inYear : (12 * (400 * (day / 146097) + year) + month + 1) / 12
          = 400 * (day / 146097) + (year + 1) := by omega
      rw [monthStart, inYear, yearStart_era]
      omega
    · have inYear : (12 * (400 * (day / 146097) + year) + month + 1) / 12
          = 400 * (day / 146097) + year := by omega
      have ofYear : (12 * (400 * (day / 146097) + year) + month + 1) % 12 = month + 1 := by omega
      have monthEnds : dayOfYear < (153 * (month + 1) + 2) / 5 := monthEnds
      rw [monthStart, inYear, ofYear, yearStart_era]
      omega

end MonthCalendar
