/-
  ProfileMigration.Proofs.Time.Calendar

  The proleptic Gregorian calendar and the count of days:

    Time.yearOfEra_bounds       -- the days of an era fall into years, the longer of them leap years
    Time.Placed                 -- a day by its era, its year from March, and its day in that
    Time.exists_placed          -- every day has such a place, and its date is that of the place
    Time.daysOfDate_dateOfDays  -- the date of a day stands for that day
    Time.isValid_dateOfDays     -- and is one of the calendar, if its year is kept

  Years begin in March here, so that a leap year is known by its last day, and the lengths of months
  follow one rule that no year changes.
-/
import ProfileMigration.Time.Instant

namespace ProfileMigration.Time

/-! ## Years of an era -/

/-- The first day of a year of an era. -/
def yearStart (year : Int) : Int := 365 * year + year / 4 - year / 100

/-- The days of an era fall into years: a year has 365 days, and one more if it ends with the
    February of a leap year. -/
theorem yearOfEra_bounds {day year : Int} (hlow : 0 ≤ day) (hhigh : day < 146097)
    (hyear : year = (day - day / 1460 + day / 36524 - day / 146096) / 365) :
    0 ≤ year ∧ year < 400 ∧ yearStart year ≤ day ∧ day ≤ yearStart year + 365 ∧
      (day = yearStart year + 365 → year % 4 = 3 ∧ (year % 100 ≠ 99 ∨ year = 399)) := by
  have hrange : 0 ≤ year ∧ year < 400 := by omega
  refine ⟨hrange.1, hrange.2, ?_⟩
  -- With the centuries of the day and of the year known, everything is linear
  obtain ⟨century, hcentury⟩ : ∃ c, c = day / 36524 := ⟨_, rfl⟩
  obtain ⟨past, hpast⟩ : ∃ c, c = year / 100 := ⟨_, rfl⟩
  obtain ⟨last, hlast⟩ : ∃ l, l = day / 146096 := ⟨_, rfl⟩
  rw [← hcentury, ← hlast] at hyear
  rw [yearStart, ← hpast]
  have hcenturies : century = 0 ∨ century = 1 ∨ century = 2 ∨ century = 3 ∨ century = 4 := by omega
  have hpasts : past = 0 ∨ past = 1 ∨ past = 2 ∨ past = 3 := by omega
  have hlasts : last = 0 ∨ last = 1 := by omega
  rcases hcenturies with rfl | rfl | rfl | rfl | rfl <;>
    rcases hpasts with rfl | rfl | rfl | rfl <;> rcases hlasts with rfl | rfl <;> omega

/-! ## Days by their place -/

/-- A day by its place: the era, the year of the era from March, and the day of that year. -/
structure Placed (days era year day : Int) : Prop where
  days_eq : days + 719468 = era * 146097 + (yearStart year + day)
  year_nonneg : 0 ≤ year
  year_lt : year < 400
  day_nonneg : 0 ≤ day
  day_le : day ≤ 365
  /-- Only a year that ends with the February of a leap year has so many days. -/
  leap : day = 365 → year % 4 = 3 ∧ (year % 100 ≠ 99 ∨ year = 399)

/-- The month of a day of the year, from March. -/
def monthFromMarch (day : Int) : Int := (5 * day + 2) / 153

/-- The first day of a month. -/
def monthStart (month : Int) : Int := (153 * month + 2) / 5

/-- The month of the calendar that a month from March is. -/
def civilMonth (month : Int) : Int := if month < 10 then month + 3 else month - 9

/-- The date of a place. -/
def placedDate (era year day : Int) : Date :=
  let month := monthFromMarch day
  ⟨year + era * 400 + (if civilMonth month ≤ 2 then 1 else 0), (civilMonth month).toNat,
    (day - monthStart month + 1).toNat⟩

/-- Every day has a place, and its date is that of the place. -/
theorem exists_placed (days : Int) :
    ∃ era year day, Placed days era year day ∧ dateOfDays days = placedDate era year day := by
  obtain ⟨era, hera⟩ : ∃ e, e = (days + 719468) / 146097 := ⟨_, rfl⟩
  obtain ⟨dayOfEra, hday⟩ : ∃ d, d = days + 719468 - era * 146097 := ⟨_, rfl⟩
  obtain ⟨year, hyear⟩ : ∃ y, y = (dayOfEra - dayOfEra / 1460 + dayOfEra / 36524 -
    dayOfEra / 146096) / 365 := ⟨_, rfl⟩
  obtain ⟨hnonneg, hlt, hstart, hend, hleap⟩ :=
    yearOfEra_bounds (by omega) (by omega) hyear
  refine ⟨era, year, dayOfEra - yearStart year, ⟨?_, hnonneg, hlt, ?_, ?_, ?_⟩, ?_⟩
  · omega
  · omega
  · omega
  · exact fun h => hleap (by omega)
  · subst hyear hday hera
    rfl

/-! ## Dates -/

/-- A day of the year falls into one of twelve months, which is not longer than it should be. -/
theorem monthFromMarch_bounds {day : Int} (hnonneg : 0 ≤ day) (hle : day ≤ 365) :
    0 ≤ monthFromMarch day ∧ monthFromMarch day < 12 ∧ monthStart (monthFromMarch day) ≤ day := by
  rw [monthFromMarch, monthStart]
  omega

variable {days era year day : Int}

/-- The date of a place stands for its day. -/
theorem Placed.daysOfDate_placedDate (h : Placed days era year day) :
    daysOfDate (placedDate era year day) = days := by
  obtain ⟨hdays, hyear, hlt, hday, hle, -⟩ := h
  obtain ⟨hmonth, hmonths, hstart⟩ := monthFromMarch_bounds hday hle
  rw [yearStart] at hdays
  have hbegins : monthStart (monthFromMarch day) = (153 * monthFromMarch day + 2) / 5 := rfl
  -- Before March the year of the calendar is one ahead, and counting takes that back
  by_cases hearly : monthFromMarch day < 10
  · have hcivil : civilMonth (monthFromMarch day) = monthFromMarch day + 3 := if_pos hearly
    simp only [daysOfDate, placedDate, hcivil]
    rw [if_neg (by omega), if_neg (by omega), if_neg (by omega)]
    omega
  · have hcivil : civilMonth (monthFromMarch day) = monthFromMarch day - 9 := if_neg hearly
    simp only [daysOfDate, placedDate, hcivil]
    rw [if_pos (by omega), if_pos (by omega), if_pos (by omega)]
    omega

theorem daysOfDate_dateOfDays (days : Int) : daysOfDate (dateOfDays days) = days := by
  obtain ⟨era, year, day, hplaced, hdate⟩ := exists_placed days
  rw [hdate, hplaced.daysOfDate_placedDate]

/-! ## Months -/

theorem isLeap_iff {year : Int} :
    isLeap year = true ↔ year % 4 = 0 ∧ (year % 100 ≠ 0 ∨ year % 400 = 0) := decide_eq_true_iff

theorem daysInMonth_le (year : Int) (month : Nat) : daysInMonth year month ≤ 31 := by
  rw [daysInMonth]
  split
  · split <;> omega
  · split <;> omega

/-- All months from March to January are as long as it is from their first day to that of the
    next. -/
theorem daysInMonth_civilMonth {month : Int} (hnonneg : 0 ≤ month) (hlt : month < 11)
    (year : Int) :
    (daysInMonth year (civilMonth month).toNat : Int) =
      monthStart (month + 1) - monthStart month := by
  have hmonths : month = 0 ∨ month = 1 ∨ month = 2 ∨ month = 3 ∨ month = 4 ∨ month = 5 ∨
      month = 6 ∨ month = 7 ∨ month = 8 ∨ month = 9 ∨ month = 10 := by omega
  rcases hmonths with rfl | rfl | rfl | rfl | rfl | rfl | rfl | rfl | rfl | rfl | rfl <;> rfl

/-- A day of a month is not past its end. -/
theorem Placed.le_daysInMonth (h : Placed days era year day) :
    (placedDate era year day).day ≤
      daysInMonth (placedDate era year day).year (placedDate era year day).month := by
  obtain ⟨-, hyear, hlt, hday, hle, hleap⟩ := h
  obtain ⟨hmonth, hmonths, hstart⟩ := monthFromMarch_bounds hday hle
  have hnext : day < monthStart (monthFromMarch day + 1) := by
    rw [monthStart, monthFromMarch]
    omega
  simp only [placedDate]
  by_cases hjanuary : monthFromMarch day < 11
  · have hlength := daysInMonth_civilMonth hmonth hjanuary
      (year + era * 400 + (if civilMonth (monthFromMarch day) ≤ 2 then 1 else 0))
    omega
  · -- February ends with the year, and only that of a leap year has a twenty-ninth
    have hfebruary : monthFromMarch day = 11 := by omega
    have hfirst : monthStart 11 = 337 := rfl
    have hcivil : civilMonth 11 = 2 := rfl
    have htwo : Int.toNat 2 = 2 := rfl
    rw [hfebruary, hfirst, hcivil, if_pos (by omega), htwo, daysInMonth, if_pos rfl]
    by_cases hlast : day = 365
    · have hyears := hleap hlast
      rw [if_pos (isLeap_iff.mpr (by omega))]
      omega
    · split <;> omega

/-- The date of a day is one of the calendar, if its year is kept. -/
theorem isValid_dateOfDays {days : Int} (h : yearInRange (dateOfDays days).year = true) :
    (dateOfDays days).isValid = true := by
  obtain ⟨era, year, day, hplaced, hdate⟩ := exists_placed days
  obtain ⟨hmonth, hmonths, hstart⟩ := monthFromMarch_bounds hplaced.day_nonneg hplaced.day_le
  rw [hdate] at h ⊢
  have hcivil : 1 ≤ (placedDate era year day).month ∧ (placedDate era year day).month ≤ 12 := by
    simp only [placedDate, civilMonth]
    split <;> omega
  have hfirst : 1 ≤ (placedDate era year day).day := by
    simp only [placedDate]
    omega
  rw [Date.isValid, h, decide_eq_true hcivil, decide_eq_true ⟨hfirst, hplaced.le_daysInMonth⟩]
  rfl

end ProfileMigration.Time
