import WebhookRelay.Time.Calendar

/-!
# Days and dates

Every day has a date, and the number of days up to that date is the day again.  The date
lies in the supported years if the day lies between the first and the last supported one.
-/

set_option autoImplicit false

namespace WebhookRelay.Calendar

theorem isLeapYear_iff (year : Int) :
    isLeapYear year = true ↔ year % 4 = 0 ∧ (year % 100 ≠ 0 ∨ year % 400 = 0) := by
  simp [isLeapYear]

/-! ## Years of an era -/

/-- The year of its era in which a day lies, both counted from zero. -/
def yearOfEra (dayOfEra : Int) : Int :=
  (dayOfEra - dayOfEra / 1460 + dayOfEra / 36524 - dayOfEra / 146096) / 365

def daysBefore (year : Int) : Int :=
  365 * year + year / 4 - year / 100

/-- Every day but the last of an era lies in the century that equal centuries give it. -/
theorem yearOfEra_div_hundred {day : Int} (nonneg : 0 ≤ day) (early : day < 146096) :
    yearOfEra day / 100 = day / 36524 := by
  unfold yearOfEra
  have last : day / 146096 = 0 := by omega
  have century :
      day / 36524 = 0 ∨ day / 36524 = 1 ∨ day / 36524 = 2 ∨ day / 36524 = 3 := by omega
  rw [last]
  obtain century | century | century | century := century
  all_goals
    rw [century]
    omega

/-- A day of an era lies within the year that is computed for it, and only a leap year has
a day 365. -/
theorem dayOfYear_bounds {day year : Int} (nonneg : 0 ≤ day) (within : day < 146097)
    (computed : year = yearOfEra day) :
    0 ≤ year ∧ year < 400 ∧ 0 ≤ day - daysBefore year ∧ day - daysBefore year ≤ 365 ∧
      (day - daysBefore year = 365 → isLeapYear (year + 1) = true) := by
  rw [isLeapYear_iff]
  by_cases early : day < 146096
  · have century := yearOfEra_div_hundred nonneg early
    rw [← computed] at century
    unfold yearOfEra at computed
    unfold daysBefore
    have last : day / 146096 = 0 := by omega
    have centuries : day / 36524 ≤ day / 1460 := by omega
    rw [last] at computed
    rw [century]
    have lower : 0 ≤ year := by omega
    have upper : year < 400 := by omega
    refine ⟨lower, upper, by omega, by omega, ?_⟩
    intro full
    have third : year % 4 = 3 := by omega
    refine ⟨by omega, ?_⟩
    by_cases hundredth : (year + 1) % 100 = 0
    · right
      omega
    · exact Or.inl hundredth
  · have last : day = 146096 := by omega
    subst last
    have whole : year = 399 := by rw [computed]; rfl
    subst whole
    decide

/-! ## Dates -/

/-- The date of a day of a year that starts in March, the day counted from zero. -/
def ofYearDay (year day : Int) : Date :=
  let monthFromMarch := (5 * day + 2) / 153
  let month := if monthFromMarch < 10 then monthFromMarch + 3 else monthFromMarch - 9
  { year := if month ≤ 2 then year + 1 else year
    month := month.toNat
    day := (day - (153 * monthFromMarch + 2) / 5 + 1).toNat }

/-- January and February belong to the next year of the calendar. -/
theorem year_ofYearDay {year day : Int} (first : 0 ≤ day) (last : day ≤ 365) :
    (ofYearDay year day).year = if day < 306 then year else year + 1 := by
  simp only [ofYearDay]
  split <;> split <;> omega

theorem ofDayNumber_eq (days : Int) :
    ∃ era year day : Int, 0 ≤ year ∧ year < 400 ∧ 0 ≤ day ∧ day ≤ 365 ∧
      (day = 365 → isLeapYear (year + 1) = true) ∧
      days + 719468 = era * 146097 + daysBefore year + day ∧
      Date.ofDayNumber days = ofYearDay (year + era * 400) day := by
  have nonneg : 0 ≤ (days + 719468) % 146097 := by omega
  have within : (days + 719468) % 146097 < 146097 := by omega
  obtain ⟨lower, upper, first, last, leap⟩ := dayOfYear_bounds nonneg within rfl
  exact ⟨(days + 719468) / 146097, _, _, lower, upper, first, last, leap, by omega, rfl⟩

theorem ofYearDay_bounds {year day : Int} (first : 0 ≤ day) (last : day ≤ 365)
    (leap : day = 365 → isLeapYear (year + 1) = true) :
    1 ≤ (ofYearDay year day).month ∧ (ofYearDay year day).month ≤ 12 ∧
      1 ≤ (ofYearDay year day).day ∧
      (ofYearDay year day).day ≤
        daysInMonth (ofYearDay year day).year (ofYearDay year day).month := by
  generalize found : (5 * day + 2) / 153 = month
  simp only [ofYearDay, found]
  by_cases early : month < 10
  · simp only [if_pos early, if_neg (show ¬ month + 3 ≤ 2 by omega)]
    refine ⟨by omega, by omega, by omega, ?_⟩
    unfold daysInMonth
    split
    · omega
    · split <;> omega
  · simp only [if_neg early, if_pos (show month - 9 ≤ 2 by omega)]
    refine ⟨by omega, by omega, by omega, ?_⟩
    unfold daysInMonth
    split
    · split
      · omega
      · rename_i february ordinary
        have short : day ≠ 365 := fun full => ordinary (leap full)
        omega
    · split <;> omega

theorem dayNumber_ofYearDay {era year day : Int} (lower : 0 ≤ year) (upper : year < 400)
    (first : 0 ≤ day) (last : day ≤ 365) :
    (ofYearDay (year + era * 400) day).dayNumber =
      era * 146097 + daysBefore year + day - 719468 := by
  generalize found : (5 * day + 2) / 153 = month
  simp only [ofYearDay, found, Date.dayNumber, daysBefore]
  by_cases early : month < 10
  · simp only [if_pos early, if_neg (show ¬ month + 3 ≤ 2 by omega),
      if_neg (show ¬ (month + 3).toNat ≤ 2 by omega)]
    omega
  · simp only [if_neg early, if_pos (show month - 9 ≤ 2 by omega),
      if_pos (show (month - 9).toNat ≤ 2 by omega)]
    omega

theorem dayNumber_ofDayNumber (days : Int) : (Date.ofDayNumber days).dayNumber = days := by
  obtain ⟨era, year, day, lower, upper, first, last, _, placed, date⟩ := ofDayNumber_eq days
  rw [date, dayNumber_ofYearDay lower upper first last]
  omega

/-- Every year of the calendar has the leap days of the same year of any other era. -/
theorem isLeapYear_add_eras (year era : Int) :
    isLeapYear (year + era * 400) = isLeapYear year := by
  rw [Bool.eq_iff_iff, isLeapYear_iff, isLeapYear_iff]
  omega

theorem daysInMonth_le (year : Int) (month : Nat) : daysInMonth year month ≤ 31 := by
  unfold daysInMonth
  split
  · split <;> omega
  · split <;> omega

theorem ofDayNumber_bounds (days : Int) :
    1 ≤ (Date.ofDayNumber days).month ∧ (Date.ofDayNumber days).month ≤ 12 ∧
      1 ≤ (Date.ofDayNumber days).day ∧
      (Date.ofDayNumber days).day ≤
        daysInMonth (Date.ofDayNumber days).year (Date.ofDayNumber days).month := by
  obtain ⟨era, year, day, _, _, first, last, leap, _, date⟩ := ofDayNumber_eq days
  rw [date]
  refine ofYearDay_bounds first last fun full => ?_
  have eras := isLeapYear_add_eras (year + 1) era
  rw [leap full] at eras
  rw [← eras]
  congr 1
  omega

def firstDay : Int := -96465292

def lastDay : Int := 95026236

theorem isValid_ofDayNumber {days : Int} (first : firstDay ≤ days) (last : days ≤ lastDay) :
    (Date.ofDayNumber days).isValid = true := by
  obtain ⟨era, year, day, lower, upper, start, stop, _, placed, date⟩ := ofDayNumber_eq days
  obtain ⟨monthLower, monthUpper, dayLower, dayUpper⟩ := ofDayNumber_bounds days
  have years : minYear ≤ (Date.ofDayNumber days).year ∧
      (Date.ofDayNumber days).year ≤ maxYear := by
    rw [date, year_ofYearDay start stop]
    unfold minYear maxYear
    unfold firstDay at first
    unfold lastDay at last
    unfold daysBefore at placed
    have eras : era ≤ 654 ∨ era = 655 ∨ 656 ≤ era := by omega
    obtain before | same | after := eras
    all_goals split <;> omega
  simp only [Date.isValid, Bool.and_eq_true, decide_eq_true_eq]
  exact ⟨⟨⟨⟨⟨years.1, years.2⟩, monthLower⟩, monthUpper⟩, dayLower⟩, dayUpper⟩

end WebhookRelay.Calendar
