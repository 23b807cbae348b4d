import Mathlib.Logic.Function.Iterate
import Mathlib.Data.Fin.Basic
import Mathlib.Tactic.IntervalCases

/-!
# The Gregorian calendar

Dates of the proleptic Gregorian calendar from the year 0 on, and moments of a
date to the second.  The calendar is given by its successors: the date after a
date and the moment a second after a moment.  Counting days and seconds from
the beginning of the year 0 turns the successor into the addition of one, so
that a moment is so many seconds after another exactly when their numbers differ
by as many.
-/

namespace Skybase.Calendar

/-- The years with a 29th of February. -/
def IsLeap (year : Nat) : Prop := year % 4 = 0 ∧ (year % 100 ≠ 0 ∨ year % 400 = 0)

instance (year : Nat) : Decidable (IsLeap year) :=
  inferInstanceAs (Decidable (_ ∧ _))

/-- The length of a year. -/
def daysInYear (year : Nat) : Nat := if IsLeap year then 366 else 365

/-- The length of a month of a year. -/
def daysInMonth (year : Nat) : Nat → Nat
  | 1 | 3 | 5 | 7 | 8 | 10 | 12 => 31
  | 4 | 6 | 9 | 11 => 30
  | 2 => if IsLeap year then 29 else 28
  | _ => 0

/-- The days of the years before a year. -/
def daysBeforeYear : Nat → Nat
  | 0 => 0
  | year + 1 => daysBeforeYear year + daysInYear year

/-- The days of a year that are in the months before a month. -/
def daysBeforeMonth (year : Nat) : Nat → Nat
  | 0 => 0
  | month + 1 => daysBeforeMonth year month + daysInMonth year month

/-- A year whose number is a multiple of the period is counted once it is over. -/
theorem multiples_succ {period : Nat} (positive : 0 < period) (year : Nat) :
    (year + 1 + (period - 1)) / period =
      (year + (period - 1)) / period + if year % period = 0 then 1 else 0 := by
  have shift : year + 1 + (period - 1) = year + (period - 1) + 1 := by omega
  have whole : year + (period - 1) + 1 = year + period := by omega
  have multiple : period ∣ year + period ↔ year % period = 0 := by
    rw [Nat.dvd_add_self_right, Nat.dvd_iff_mod_eq_zero]
  rw [shift, Nat.succ_div, whole]
  simp only [multiple]

/-- The rule for leap years, as a sum. -/
theorem daysInYear_add (year : Nat) :
    daysInYear year + (if year % 100 = 0 then 1 else 0) =
      365 + (if year % 4 = 0 then 1 else 0) + if year % 400 = 0 then 1 else 0 := by
  have hundreds : year % 100 = 0 → year % 4 = 0 := by omega
  have fourHundreds : year % 400 = 0 → year % 100 = 0 := by omega
  unfold daysInYear IsLeap
  by_cases by400 : year % 400 = 0
  · simp [by400, fourHundreds by400, hundreds (fourHundreds by400)]
  · by_cases by100 : year % 100 = 0
    · simp [by400, by100, hundreds by100]
    · by_cases by4 : year % 4 = 0 <;> simp [by400, by100, by4]

/-- The days before a year, counted by the leap years among them. -/
theorem daysBeforeYear_add (year : Nat) :
    daysBeforeYear year + (year + 99) / 100 = 365 * year + (year + 3) / 4 + (year + 399) / 400 := by
  induction year with
  | zero => rfl
  | succ year ih =>
      have fours := multiples_succ (by decide : 0 < 4) year
      have hundreds := multiples_succ (by decide : 0 < 100) year
      have fourHundreds := multiples_succ (by decide : 0 < 400) year
      have length := daysInYear_add year
      rw [daysBeforeYear, fours, hundreds, fourHundreds, Nat.mul_succ]
      omega

theorem daysBeforeYear_mono {first second : Nat} (le : first ≤ second) :
    daysBeforeYear first ≤ daysBeforeYear second := by
  induction le with
  | refl => exact Nat.le_refl _
  | step _ ih => exact ih.trans (Nat.le_add_right _ _)

theorem daysBeforeMonth_mono {year first second : Nat} (le : first ≤ second) :
    daysBeforeMonth year first ≤ daysBeforeMonth year second := by
  induction le with
  | refl => exact Nat.le_refl _
  | step _ ih => exact ih.trans (Nat.le_add_right _ _)

/-- The twelve months make up the year. -/
theorem daysBeforeMonth_thirteen (year : Nat) : daysBeforeMonth year 13 = daysInYear year := by
  by_cases leap : IsLeap year <;> simp [daysBeforeMonth, daysInMonth, daysInYear, leap]

/-! ## Dates -/

/-- A date of the calendar. -/
@[ext]
structure Date where
  year : Nat
  month : Nat
  day : Nat
  month_pos : 1 ≤ month
  month_le : month ≤ 12
  day_pos : 1 ≤ day
  day_le : day ≤ daysInMonth year month
deriving DecidableEq

namespace Date

/-- Every month of a year has a first day. -/
theorem daysInMonth_pos {year month : Nat} (pos : 1 ≤ month) (le : month ≤ 12) :
    1 ≤ daysInMonth year month := by
  by_cases leap : IsLeap year <;> interval_cases month <;> simp [daysInMonth, leap]

/-- The first of January of a year. -/
def newYear (year : Nat) : Date where
  year := year
  month := 1
  day := 1
  month_pos := Nat.le_refl 1
  month_le := by decide
  day_pos := Nat.le_refl 1
  day_le := daysInMonth_pos (Nat.le_refl 1) (by decide)

/-- The date after a date. -/
def next (date : Date) : Date :=
  if inMonth : date.day < daysInMonth date.year date.month then
    { date with day := date.day + 1, day_pos := Nat.le_add_left 1 _, day_le := inMonth }
  else if inYear : date.month < 12 then
    { year := date.year
      month := date.month + 1
      day := 1
      month_pos := Nat.le_add_left 1 _
      month_le := inYear
      day_pos := Nat.le_refl 1
      day_le := daysInMonth_pos (Nat.le_add_left 1 _) inYear }
  else newYear (date.year + 1)

/-- The days before a date, from the first of January of the year 0 on. -/
def dayNumber (date : Date) : Nat :=
  daysBeforeYear date.year + daysBeforeMonth date.year date.month + (date.day - 1)

theorem dayNumber_next (date : Date) : date.next.dayNumber = date.dayNumber + 1 := by
  have day_pos := date.day_pos
  have day_le := date.day_le
  rw [next]
  split
  · simp only [dayNumber]
    omega
  · next outMonth =>
      have day : date.day = daysInMonth date.year date.month := by omega
      split
      · simp only [dayNumber, daysBeforeMonth]
        omega
      · next outYear =>
          have month : date.month = 12 := by have := date.month_le; omega
          have year := daysBeforeMonth_thirteen date.year
          rw [daysBeforeMonth, ← month] at year
          simp only [dayNumber, newYear, daysBeforeYear, daysBeforeMonth, daysInMonth]
          omega

/-- A date is in its year. -/
theorem dayNumber_lt (date : Date) : date.dayNumber < daysBeforeYear (date.year + 1) := by
  have day_pos := date.day_pos
  have day_le := date.day_le
  have month : daysBeforeMonth date.year (date.month + 1) ≤ daysBeforeMonth date.year 13 :=
    daysBeforeMonth_mono (Nat.succ_le_succ date.month_le)
  rw [daysBeforeMonth_thirteen, daysBeforeMonth] at month
  rw [dayNumber, daysBeforeYear]
  omega

theorem year_le_of_dayNumber_le {first second : Date} (le : first.dayNumber ≤ second.dayNumber) :
    first.year ≤ second.year := by
  by_contra later
  have before : daysBeforeYear (second.year + 1) ≤ daysBeforeYear first.year :=
    daysBeforeYear_mono (Nat.lt_of_not_le later)
  have bound := second.dayNumber_lt
  rw [dayNumber] at le
  omega

theorem month_le_of_dayNumber_le {first second : Date} (year : first.year = second.year)
    (le : first.dayNumber ≤ second.dayNumber) : first.month ≤ second.month := by
  by_contra later
  have before : daysBeforeMonth second.year (second.month + 1) ≤
      daysBeforeMonth second.year first.month :=
    daysBeforeMonth_mono (Nat.lt_of_not_le later)
  have day_pos := second.day_pos
  have day_le := second.day_le
  rw [daysBeforeMonth] at before
  rw [dayNumber, dayNumber, year] at le
  omega

/-- The number of a date determines it. -/
theorem dayNumber_inj {first second : Date} (same : first.dayNumber = second.dayNumber) :
    first = second := by
  have year : first.year = second.year :=
    Nat.le_antisymm (year_le_of_dayNumber_le same.le) (year_le_of_dayNumber_le same.ge)
  have month : first.month = second.month :=
    Nat.le_antisymm (month_le_of_dayNumber_le year same.le)
      (month_le_of_dayNumber_le year.symm same.ge)
  have first_pos := first.day_pos
  have second_pos := second.day_pos
  rw [dayNumber, dayNumber, year, month] at same
  exact Date.ext year month (by omega)

end Date

/-! ## Years from March on

Counted from the first of March, the months before one begin after the same
number of days in every year, and the day that a leap year adds is the last.
-/

/-- The days before the first of March of a year. -/
def daysBeforeMarch (year : Nat) : Nat := daysBeforeYear year + daysBeforeMonth year 3

theorem daysBeforeMarch_add (year : Nat) :
    daysBeforeMarch year + year / 100 = 365 * year + year / 4 + year / 400 + 60 := by
  -- the months from March on have as many days in every year
  have march : daysBeforeMonth year 3 + 306 = daysInYear year := by
    by_cases leap : IsLeap year <;> simp [daysBeforeMonth, daysInMonth, daysInYear, leap]
  have next := daysBeforeYear_add (year + 1)
  rw [daysBeforeYear] at next
  rw [daysBeforeMarch]
  omega

/-- The months from March to December begin at the same days of every year. -/
theorem daysBeforeMonth_march (year : Nat) {month : Nat} (lt : month < 10) :
    daysBeforeMonth year (month + 3) = daysBeforeMonth year 3 + (153 * month + 2) / 5 := by
  interval_cases month <;> simp [daysBeforeMonth, daysInMonth]

/-- The days of the months from March to December. -/
theorem daysInMonth_march (year : Nat) {month : Nat} (lt : month < 10) :
    daysInMonth year (month + 3) = (153 * (month + 1) + 2) / 5 - (153 * month + 2) / 5 := by
  interval_cases month <;> rfl

/-- January and February of a year end the year that begins in March before it. -/
theorem daysBeforeMonth_winter (year : Nat) {month : Nat} (le : month ≤ 1) :
    daysBeforeYear (year + 1) + daysBeforeMonth (year + 1) (month + 1) =
      daysBeforeMarch year + (153 * (month + 10) + 2) / 5 := by
  have december := daysBeforeMonth_march year (Nat.lt_succ_self 9)
  have year_eq := daysBeforeMonth_thirteen year
  rw [daysBeforeMonth, december] at year_eq
  have january : daysBeforeMonth (year + 1) (0 + 1) = 0 := rfl
  have february : daysBeforeMonth (year + 1) (1 + 1) = 31 := rfl
  simp only [daysInMonth] at year_eq
  rw [daysBeforeMarch, daysBeforeYear]
  interval_cases month <;> omega

/-- The month, from March on, of a day of a year that begins in March. -/
def monthOfDay (day : Nat) : Nat := (5 * day + 2) / 153

/-- The number in the calendar of a month that is counted from March on. -/
def calendarMonth (month : Nat) : Nat := if month < 10 then month + 3 else month - 9

theorem monthOfDay_lt {day : Nat} (le : day ≤ 365) : monthOfDay day < 12 := by
  rw [monthOfDay]
  omega

theorem monthOfDay_bounds (day : Nat) :
    (153 * monthOfDay day + 2) / 5 ≤ day ∧ day < (153 * (monthOfDay day + 1) + 2) / 5 := by
  rw [monthOfDay]
  omega

/-- A day of the year that begins in March, as a date. -/
def Date.ofMarch (year day : Nat) (le : day ≤ 365) (leap : day = 365 → IsLeap (year + 1)) :
    Date :=
  if spring : monthOfDay day < 10 then
    { year := year
      month := monthOfDay day + 3
      day := day - (153 * monthOfDay day + 2) / 5 + 1
      month_pos := by omega
      month_le := by omega
      day_pos := Nat.le_add_left 1 _
      day_le := by
        have bounds := monthOfDay_bounds day
        rw [daysInMonth_march year spring]
        omega }
  else
    { year := year + 1
      month := monthOfDay day - 9
      day := day - (153 * monthOfDay day + 2) / 5 + 1
      month_pos := by omega
      month_le := by have := monthOfDay_lt le; omega
      day_pos := Nat.le_add_left 1 _
      day_le := by
        have bounds := monthOfDay_bounds day
        have lt := monthOfDay_lt le
        generalize monthOfDay day = month at spring bounds lt ⊢
        obtain rfl | rfl : month = 10 ∨ month = 11 := by omega
        · simp only [daysInMonth]
          omega
        · by_cases isLeap : IsLeap (year + 1)
          · simp only [daysInMonth, if_pos isLeap]
            omega
          · have short : day ≠ 365 := fun last => isLeap (leap last)
            simp only [daysInMonth, if_neg isLeap]
            omega }

theorem Date.month_ofMarch {year day : Nat} (le : day ≤ 365)
    (leap : day = 365 → IsLeap (year + 1)) :
    (Date.ofMarch year day le leap).month = calendarMonth (monthOfDay day) := by
  rw [ofMarch, calendarMonth]
  split <;> rfl

theorem Date.year_ofMarch {year day : Nat} (le : day ≤ 365)
    (leap : day = 365 → IsLeap (year + 1)) :
    (Date.ofMarch year day le leap).year =
      if calendarMonth (monthOfDay day) ≤ 2 then year + 1 else year := by
  have lt := monthOfDay_lt le
  rw [ofMarch, calendarMonth]
  split
  · exact (if_neg (by omega)).symm
  · exact (if_pos (by omega)).symm

theorem Date.day_ofMarch {year day : Nat} (le : day ≤ 365)
    (leap : day = 365 → IsLeap (year + 1)) :
    (Date.ofMarch year day le leap).day = day - (153 * monthOfDay day + 2) / 5 + 1 := by
  rw [ofMarch]
  split <;> rfl

theorem Date.dayNumber_ofMarch {year day : Nat} (le : day ≤ 365)
    (leap : day = 365 → IsLeap (year + 1)) :
    (Date.ofMarch year day le leap).dayNumber = daysBeforeMarch year + day := by
  have bounds := monthOfDay_bounds day
  have lt := monthOfDay_lt le
  rw [ofMarch]
  split
  · next spring =>
      have month := daysBeforeMonth_march year spring
      simp only [dayNumber, daysBeforeMarch]
      omega
  · have winter := daysBeforeMonth_winter year (show monthOfDay day - 10 ≤ 1 by omega)
    rw [show monthOfDay day - 10 + 1 = monthOfDay day - 9 by omega,
      show monthOfDay day - 10 + 10 = monthOfDay day by omega] at winter
    simp only [dayNumber]
    omega

/-! ## Moments -/

/-- A moment of a date, to the second. -/
@[ext]
structure Moment where
  date : Date
  hour : Fin 24
  minute : Fin 60
  second : Fin 60
deriving DecidableEq

namespace Moment

instance neZeroHours : NeZero 24 := ⟨by decide⟩

instance neZeroMinutes : NeZero 60 := ⟨by decide⟩

/-- The moment one second later. -/
def tick (moment : Moment) : Moment :=
  if inMinute : moment.second.val + 1 < 60 then
    { moment with second := ⟨moment.second.val + 1, inMinute⟩ }
  else if inHour : moment.minute.val + 1 < 60 then
    { moment with minute := ⟨moment.minute.val + 1, inHour⟩, second := 0 }
  else if inDay : moment.hour.val + 1 < 24 then
    { moment with hour := ⟨moment.hour.val + 1, inDay⟩, minute := 0, second := 0 }
  else { date := moment.date.next, hour := 0, minute := 0, second := 0 }

/-- The seconds of the day before a moment. -/
def secondOfDay (moment : Moment) : Nat :=
  (moment.hour * 60 + moment.minute) * 60 + moment.second

/-- The seconds before a moment, from the beginning of the year 0 on. -/
def secondNumber (moment : Moment) : Nat :=
  moment.date.dayNumber * 86400 + moment.secondOfDay

theorem secondOfDay_lt (moment : Moment) : moment.secondOfDay < 86400 := by
  rw [secondOfDay]
  omega

theorem secondNumber_tick (moment : Moment) :
    moment.tick.secondNumber = moment.secondNumber + 1 := by
  rw [tick]
  split
  · simp only [secondNumber, secondOfDay]
    omega
  · split
    · simp only [secondNumber, secondOfDay, Fin.val_zero]
      omega
    · split
      · simp only [secondNumber, secondOfDay, Fin.val_zero]
        omega
      · simp only [secondNumber, secondOfDay, Fin.val_zero, Date.dayNumber_next]
        omega

theorem secondNumber_iterate_tick (count : Nat) (moment : Moment) :
    (tick^[count] moment).secondNumber = moment.secondNumber + count := by
  induction count with
  | zero => rw [Function.iterate_zero_apply, Nat.add_zero]
  | succ count ih => rw [Function.iterate_succ_apply', secondNumber_tick, ih, Nat.add_assoc]

/-- The number of a moment determines it. -/
theorem secondNumber_inj {first second : Moment} (same : first.secondNumber = second.secondNumber) :
    first = second := by
  have first_lt := first.secondOfDay_lt
  have second_lt := second.secondOfDay_lt
  rw [secondNumber, secondNumber] at same
  have date : first.date.dayNumber = second.date.dayNumber := by omega
  have time : first.secondOfDay = second.secondOfDay := by omega
  rw [secondOfDay, secondOfDay] at time
  exact Moment.ext (Date.dayNumber_inj date) (by omega) (by omega) (by omega)

/-- A moment is so many seconds after another exactly when its number says so. -/
theorem iterate_tick_eq_iff (count : Nat) (first second : Moment) :
    tick^[count] first = second ↔ second.secondNumber = first.secondNumber + count := by
  rw [← secondNumber_iterate_tick]
  exact ⟨fun same => same ▸ rfl, fun same => (secondNumber_inj same).symm⟩

end Moment

end Skybase.Calendar
