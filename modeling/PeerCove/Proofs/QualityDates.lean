/-
Module: PeerCove.Proofs.QualityDates
Layer: Proofs
Purpose: The dates that name the files of the quality history are the dates of the calendar, and
  until the year 10000 their texts are ordered as their days.
Trusted boundary: none
Main exports: civilDay_isDay, CivilDay.text_lt, localDate_lt, le_localDay_of_not_lt
-/
import PeerCove.Library.MonthCalendar
import PeerCove.Ops.QualityStore

namespace PeerCove

open MonthCalendar PaddedDecimal

/-- The day of a time, from the first of January 1970. -/
def localDay (offset : Int) (unixMs : Nat) : Nat :=
  localTime offset unixMs / DAY_LENGTH_MS

/-- The date of a time is its date in the calendar. -/
theorem civilDay_isDay (unixMs : Nat) :
    ∃ month rank, IsDay (unixMs / DAY_LENGTH_MS + 719468) month rank ∧
      12 * (civilDay unixMs).year + (civilDay unixMs).month = month + 3 ∧
      1 ≤ (civilDay unixMs).month ∧ (civilDay unixMs).month ≤ 12 ∧
      (civilDay unixMs).day = rank + 1 := by
  generalize whole : unixMs / DAY_LENGTH_MS + 719468 = z
  have doe : z - z / 146097 * 146097 = z % 146097 := by omega
  have inside : z % 146097 < 146097 := Nat.mod_lt _ (by decide)
  obtain ⟨isMonth, isDay⟩ := isDay_yearMonth z
  obtain ⟨inEra, _⟩ := yearOfEra_bounds inside
  have begins : yearStart (yearOfEra (z % 146097))
      = 365 * yearOfEra (z % 146097) + yearOfEra (z % 146097) / 4
        - yearOfEra (z % 146097) / 100 := by
    unfold yearStart
    omega
  refine ⟨_, _, isDay, ?_⟩
  simp only [civilDay, whole, doe]
  rw [← yearOfEra, ← begins]
  -- the year begins in March here, and in January there
  generalize (5 * (z % 146097 - yearStart (yearOfEra (z % 146097))) + 2) / 153 = mp at *
  by_cases early : mp < 10
  · have late : ¬ mp + 3 ≤ 2 := by omega
    rw [if_pos early, if_neg late]
    exact ⟨by omega, by omega, by omega, rfl⟩
  · have late : mp - 9 ≤ 2 := by omega
    rw [if_neg early, if_pos late]
    exact ⟨by omega, by omega, by omega, rfl⟩

/-- Dates with a year of four digits are ordered by year, month and day. -/
theorem CivilDay.text_lt {one two : CivilDay} (oneMonth : 1 ≤ one.month ∧ one.month ≤ 12)
    (twoMonth : 1 ≤ two.month ∧ two.month ≤ 12) (twoDay : two.day ≤ 31)
    (year : two.year < 10000)
    (less : 12 * one.year + one.month < 12 * two.year + two.month ∨
      12 * one.year + one.month = 12 * two.year + two.month ∧ one.day < two.day) :
    one.text < two.text := by
  have oneYear : one.year < 10 ^ 4 := by omega
  have twoYear : two.year < 10 ^ 4 := by omega
  rw [String.lt_iff, CivilDay.text, CivilDay.text, String.toList_ofList, String.toList_ofList,
    List.append_assoc, List.append_assoc]
  by_cases sameYear : one.year = two.year
  · rw [sameYear]
    apply List.append_left_lt
    rw [List.cons_append, List.cons_append, List.cons_lt_cons_iff]
    refine Or.inr ⟨rfl, ?_⟩
    by_cases sameMonth : one.month = two.month
    · rw [sameMonth]
      apply List.append_left_lt
      rw [List.cons_lt_cons_iff]
      exact Or.inr ⟨rfl, padded_lt (by decide) (by omega) (by omega)⟩
    · apply append_lt_append
      · rw [length_padded (by decide) (by omega), length_padded (by decide) (by omega)]
      · exact padded_lt (by decide) (by omega) (by omega)
  · apply append_lt_append
    · rw [length_padded (by decide) oneYear, length_padded (by decide) twoYear]
    · exact padded_lt (by decide) (by omega) twoYear

/-- The dates of an earlier and of a later day. -/
theorem civilDay_lt {one two : Nat} (earlier : one / DAY_LENGTH_MS < two / DAY_LENGTH_MS)
    (year : (civilDay two).year < 10000) : civilDate one < civilDate two := by
  obtain ⟨oneMonth, oneRank, oneIs, oneSum, oneLow, oneHigh, oneDay⟩ := civilDay_isDay one
  obtain ⟨twoMonth, twoRank, twoIs, twoSum, twoLow, twoHigh, twoDay⟩ := civilDay_isDay two
  have oneShort := oneIs.rank_lt
  have twoShort := twoIs.rank_lt
  apply CivilDay.text_lt ⟨oneLow, oneHigh⟩ ⟨twoLow, twoHigh⟩ (by omega) year
  rcases oneIs.lt_or_same twoIs (Nat.add_lt_add_right earlier _) with before | ⟨same, inside⟩
  · exact Or.inl (by omega)
  · exact Or.inr ⟨by omega, by omega⟩

/-- The year does not fall with the days. -/
theorem civilDay_year_mono {one two : Nat} (ordered : one ≤ two) :
    (civilDay one).year ≤ (civilDay two).year := by
  obtain ⟨oneMonth, oneRank, oneIs, oneSum, oneLow, oneHigh, _⟩ := civilDay_isDay one
  obtain ⟨twoMonth, twoRank, twoIs, twoSum, twoLow, twoHigh, _⟩ := civilDay_isDay two
  have days := Nat.div_le_div_right (c := DAY_LENGTH_MS) ordered
  rcases Nat.lt_or_eq_of_le days with before | same
  · rcases oneIs.lt_or_same twoIs (Nat.add_lt_add_right before _) with first | ⟨equal, _⟩ <;> omega
  · have equal : civilDay one = civilDay two := by
      simp only [civilDay, same]
    rw [equal]

/-! ### Local dates -/

theorem localTime_mono {offset : Int} {one two : Nat} (ordered : one ≤ two) :
    localTime offset one ≤ localTime offset two := by
  unfold localTime
  omega

theorem localDay_mono {offset : Int} {one two : Nat} (ordered : one ≤ two) :
    localDay offset one ≤ localDay offset two :=
  Nat.div_le_div_right (localTime_mono ordered)

theorem localYear_mono {offset : Int} {one two : Nat} (ordered : one ≤ two) :
    (civilDay (localTime offset one)).year ≤ (civilDay (localTime offset two)).year :=
  civilDay_year_mono (localTime_mono ordered)

/-- An earlier local day has an earlier name. -/
theorem localDate_lt {offset : Int} {one two : Nat}
    (earlier : localDay offset one < localDay offset two)
    (year : (civilDay (localTime offset two)).year < 10000) :
    localDate offset one < localDate offset two :=
  civilDay_lt earlier year

/-- A name that does not come before another one is not of an earlier day. -/
theorem le_localDay_of_not_lt {offset : Int} {one two : Nat}
    (year : (civilDay (localTime offset two)).year < 10000)
    (after : ¬ localDate offset one < localDate offset two) :
    localDay offset two ≤ localDay offset one :=
  Nat.le_of_not_lt (fun earlier => after (localDate_lt earlier year))

/-- A day that is not earlier than another one has no earlier name. -/
theorem not_localDate_lt {offset : Int} {one two : Nat}
    (ordered : localDay offset two ≤ localDay offset one)
    (year : (civilDay (localTime offset one)).year < 10000) :
    ¬ localDate offset one < localDate offset two := by
  intro before
  rcases Nat.lt_or_eq_of_le ordered with earlier | same
  · exact lt_asymm before (localDate_lt earlier year)
  · have equal : localDate offset one = localDate offset two := by
      unfold localDay at same
      simp only [localDate, civilDate, civilDay, same]
    rw [equal] at before
    exact lt_irrefl _ before

end PeerCove
