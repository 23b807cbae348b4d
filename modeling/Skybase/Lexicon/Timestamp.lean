import Skybase.Calendar.Core
import Skybase.Checked.Core
import Skybase.Integer

/-!
# The timestamp formatters

The two formatters of ISO-8601 timestamps compute a date from a number of
seconds by the same arithmetic on eras of four hundred years, one of them on
`u64` alone and the other across `i64`, `u64` and `u32`.  Both are evaluated
without an overflow on every number of seconds, to the fields of the moment so
many seconds after the beginning of 1970.
-/

namespace Skybase.Lexicon

open Calendar Checked
open Checked.Expr (is_of is_ofNat)

/-- The fields that a timestamp is formatted from. -/
structure CivilFields where
  year : Int
  month : Int
  day : Int
  hour : Int
  minute : Int
  second : Int
deriving DecidableEq

/-- The values of the expressions that are formatted, if all of them have one. -/
def CivilFields.evaluate {yearKind timeKind : Kind} (year : Expr yearKind)
    (month day : Expr u64) (hour minute second : Expr timeKind) : Option CivilFields := do
  return { year := ← year.value?, month := ← month.value?, day := ← day.value?,
           hour := ← hour.value?, minute := ← minute.value?, second := ← second.value? }

/-- The format `{:0width}` of an integer. -/
def padded (width : Nat) (number : Int) : String :=
  let sign := if number < 0 then "-" else ""
  let digits := number.natAbs.repr
  let zeros := List.replicate (width - (sign.length + digits.length)) '0'
  sign ++ String.ofList zeros ++ digits

/-- The fields as far as the seconds. -/
def CivilFields.text (fields : CivilFields) : String :=
  padded 4 fields.year ++ "-" ++ padded 2 fields.month ++ "-" ++ padded 2 fields.day ++ "T" ++
    padded 2 fields.hour ++ ":" ++ padded 2 fields.minute ++ ":" ++ padded 2 fields.second

/-- A `std::time::Duration`. -/
structure Duration where
  secs : U64
  nanos : Fin 1000000000
deriving DecidableEq

/-- `Duration::ZERO`. -/
def Duration.zero : Duration := ⟨0, 0⟩

/-- `Duration::subsec_millis`. -/
def Duration.subsecMillis (duration : Duration) : Nat := duration.nanos.val / 1000000

/-- A `std::time::SystemTime`, as `duration_since(UNIX_EPOCH)` reports it. -/
inductive SystemTime where
  | sinceEpoch (duration : Duration)
  | beforeEpoch (duration : Duration)

/-- `duration_since(UNIX_EPOCH).unwrap_or(Duration::ZERO)`. -/
def SystemTime.durationSinceEpoch : SystemTime → Duration
  | sinceEpoch duration => duration
  | beforeEpoch _ => .zero

/-- `format_system_time_iso8601` up to its `format!`: the fields and the milliseconds. -/
def systemTimeFields (time : SystemTime) : Option (CivilFields × Nat) :=
  let dur := time.durationSinceEpoch
  let totalSecs : Expr u64 := .of u64 dur.secs.toInt
  let millis := dur.subsecMillis
  let days := (totalSecs / 86400).cast i64
  let daySecs := (totalSecs % 86400).cast u32
  let hour := daySecs / 3600
  let minute := daySecs % 3600 / 60
  let second := daySecs % 60
  let z := days + 719468
  let era := z.branch (0 ≤ ·) z (z - 146096) / 146097
  let doe := (z - era * 146097).cast u64
  let yoe := (doe - doe / 1460 + doe / 36524 - doe / 146096) / 365
  let y := yoe.cast i64 + era * 400
  let doy := doe - (365 * yoe + yoe / 4 - yoe / 100)
  let mp := (5 * doy + 2) / 153
  let d := doy - (153 * mp + 2) / 5 + 1
  let m := mp.branch (· < 10) (mp + 3) (mp - 9)
  let year := m.branch (· ≤ 2) (y + 1) y
  (CivilFields.evaluate year m d hour minute second).map fun fields => (fields, millis)

/-- `format_system_time_iso8601`. -/
def formatSystemTimeIso8601 (time : SystemTime) : Option String :=
  (systemTimeFields time).map fun (fields, millis) =>
    fields.text ++ "." ++ padded 3 millis ++ "Z"

/-- `format_unix_secs_iso8601` up to its `format!`. -/
def unixSecsFields (secs : U64) : Option CivilFields :=
  let secs : Expr u64 := .of u64 secs.toInt
  let days := secs / 86400
  let daySecs := secs % 86400
  let hours := daySecs / 3600
  let mins := daySecs % 3600 / 60
  let seconds := daySecs % 60
  let days := days + 719468
  let era := days / 146097
  let doe := days - era * 146097
  let yoe := (doe - doe / 1460 + doe / 36524 - doe / 146096) / 365
  let y := yoe + era * 400
  let doy := doe - (365 * yoe + yoe / 4 - yoe / 100)
  let mp := (5 * doy + 2) / 153
  let d := doy - (153 * mp + 2) / 5 + 1
  let m := mp.branch (· < 10) (mp + 3) (mp - 9)
  let y := m.branch (· ≤ 2) (y + 1) y
  CivilFields.evaluate y m d hours mins seconds

/-- `format_unix_secs_iso8601`. -/
def formatUnixSecsIso8601 (secs : U64) : Option String :=
  (unixSecsFields secs).map fun fields => fields.text ++ "Z"

example :
    formatSystemTimeIso8601 (.sinceEpoch ⟨1790906400, 500000000⟩) =
      some "2026-10-02T02:00:00.500Z" := by
  decide +kernel

/-! ## The days of an era -/

/-- A day of an era by its century, its cycle of four years, its year and its day: the last
century of an era has a day more, and so has the last year of a cycle of four, unless it is
the last year of another century. -/
structure EraDay (day century cycle year rest : Nat) : Prop where
  century_le : century ≤ 3
  cycle_le : cycle ≤ 24
  year_le : year ≤ 3
  rest_le : rest ≤ 365
  day_eq : day = 36524 * century + 1461 * cycle + 365 * year + rest
  leap : rest = 365 → year = 3 ∧ (cycle = 24 → century = 3)

theorem exists_eraDay {day : Nat} (lt : day < 146097) :
    ∃ century cycle year rest, EraDay day century cycle year rest := by
  obtain ⟨century, inEra, centuries⟩ : ∃ century inEra, century ≤ 3 ∧
      day = 36524 * century + inEra ∧ inEra ≤ 36524 ∧ (inEra = 36524 → century = 3) :=
    ⟨min (day / 36524) 3, day - 36524 * min (day / 36524) 3, by omega⟩
  obtain ⟨year, rest, years⟩ : ∃ year rest, year ≤ 3 ∧ inEra % 1461 = 365 * year + rest ∧
      rest ≤ 365 ∧ (rest = 365 → year = 3) :=
    ⟨min (inEra % 1461 / 365) 3, inEra % 1461 - 365 * min (inEra % 1461 / 365) 3, by omega⟩
  exact ⟨century, inEra / 1461, year, rest, by omega, by omega, by omega, by omega, by omega,
    by omega⟩

/-! ## The steps of the formatters -/

theorem fits_u64 {number : Int} (nonneg : 0 ≤ number) (lt : number < 2 ^ 64) :
    u64.Fits number :=
  ⟨nonneg, Int.le_sub_one_of_lt lt⟩

theorem fits_i64 {number : Int} (nonneg : 0 ≤ number) (lt : number < 2 ^ 63) :
    i64.Fits number :=
  ⟨Int.le_trans (by decide) nonneg, Int.le_sub_one_of_lt lt⟩

theorem fits_u32 {number : Int} (nonneg : 0 ≤ number) (lt : number < 2 ^ 32) :
    u32.Fits number :=
  ⟨nonneg, Int.le_sub_one_of_lt lt⟩

theorem is_u64 (number : Nat) (fits : u64.Fits number) :
    Expr.Is (OfNat.ofNat number : Expr u64) number :=
  is_ofNat number fits

section EraSteps

variable {doe yoe doy mp : Expr u64} {day century cycle year rest month : Nat}

theorem is_yearOfEra (era : EraDay day century cycle year rest) (isDoe : doe.Is day) :
    ((doe - doe / 1460 + doe / 36524 - doe / 146096) / 365).Is
      (100 * century + 4 * cycle + year : Nat) := by
  obtain ⟨centuryLe, cycleLe, yearLe, restLe, dayEq, leap⟩ := era
  have fours : (doe / 1460).Is (day / 1460 : Int) :=
    isDoe.div (is_ofNat _ (by decide)) (by omega) (by decide)
  have centuries : (doe / 36524).Is (day / 36524 : Int) :=
    isDoe.div (is_ofNat _ (by decide)) (by omega) (by decide)
  have last : (doe / 146096).Is (day / 146096 : Int) :=
    isDoe.div (is_ofNat _ (by decide)) (by omega) (by decide)
  have years := ((isDoe.sub fours (fits_u64 (by omega) (by omega))).add centuries
    (fits_u64 (by omega) (by omega))).sub last (fits_u64 (by omega) (by omega))
  have quotient := years.div (is_ofNat 365 (by decide)) (by omega) (by decide)
  refine quotient.of_eq ?_
  -- what is left of the leap days of the cycles is at most one, and one on the last day
  have carry : day / 1460 = 25 * century + cycle ∧ rest ≤ 364 ∨
      day / 1460 = 25 * century + cycle + 1 ∧ 1 ≤ rest := by omega
  have closed : (day / 36524 : Int) - day / 146096 = century := by
    obtain within | final : 1461 * cycle + 365 * year + rest < 36524 ∨ day = 146096 := by omega
    · omega
    · omega
  omega

theorem is_dayOfYear (era : EraDay day century cycle year rest) (isDoe : doe.Is day)
    (isYoe : yoe.Is (100 * century + 4 * cycle + year : Nat)) :
    (doe - (365 * yoe + yoe / 4 - yoe / 100)).Is rest := by
  obtain ⟨centuryLe, cycleLe, yearLe, restLe, dayEq, leap⟩ := era
  have days := (is_u64 365 (by decide)).mul isYoe
    (fits_u64 (by omega) (by omega))
  have fours := isYoe.div (is_ofNat 4 (by decide)) (by omega) (by decide)
  have hundreds := isYoe.div (is_ofNat 100 (by decide)) (by omega) (by decide)
  have before := (days.add fours (fits_u64 (by omega) (by omega))).sub hundreds
    (fits_u64 (by omega) (by omega))
  exact (isDoe.sub before (fits_u64 (by omega) (by omega))).of_eq (by omega)

theorem is_monthOfDay {doy : Expr u64} (le : rest ≤ 365) (isDoy : doy.Is rest) :
    ((5 * doy + 2) / 153).Is (monthOfDay rest) := by
  have fives := (is_u64 5 (by decide)).mul isDoy
    (fits_u64 (by omega) (by omega))
  have shifted := fives.add (is_ofNat 2 (by decide))
    (fits_u64 (by omega) (by omega))
  have quotient := shifted.div (is_ofNat 153 (by decide)) (by omega) (by decide)
  exact quotient.of_eq (by rw [monthOfDay]; omega)

theorem is_dayOfMonth (le : rest ≤ 365) (isDoy : doy.Is rest) (isMp : mp.Is (monthOfDay rest)) :
    (doy - (153 * mp + 2) / 5 + 1).Is (rest - (153 * monthOfDay rest + 2) / 5 + 1 : Nat) := by
  have lt := monthOfDay_lt le
  have bounds := monthOfDay_bounds rest
  have days := (is_u64 153 (by decide)).mul isMp
    (fits_u64 (by omega) (by omega))
  have shifted := days.add (is_ofNat 2 (by decide)) (fits_u64 (by omega) (by omega))
  have before := shifted.div (is_ofNat 5 (by decide)) (by omega) (by decide)
  have zeroBased := isDoy.sub before (fits_u64 (by omega) (by omega))
  exact (zeroBased.add (is_ofNat 1 (by decide))
    (fits_u64 (by omega) (by omega))).of_eq (by omega)

theorem is_calendarMonth (lt : month < 12) (isMp : mp.Is month) :
    (mp.branch (· < 10) (mp + 3) (mp - 9)).Is (calendarMonth month) := by
  rw [isMp.branch, calendarMonth]
  by_cases spring : month < 10
  · rw [if_pos (by simpa using spring), if_pos spring]
    exact (isMp.add (is_ofNat 3 (by decide)) (fits_u64 (by omega) (by omega))).of_eq
      (by omega)
  · rw [if_neg (by simpa using spring), if_neg spring]
    exact (isMp.sub (is_ofNat 9 (by decide)) (fits_u64 (by omega) (by omega))).of_eq
      (by omega)

end EraSteps

/-! ## Both formatters give the moment -/

theorem isLeap_of_eraDay {day century cycle year : Nat} (era : Nat)
    (last : EraDay day century cycle year 365) :
    IsLeap (400 * era + (100 * century + 4 * cycle + year) + 1) := by
  have leap := last.leap rfl
  have cycle_le := last.cycle_le
  have century_le := last.century_le
  rw [IsLeap]
  omega

/-- The date of a day of an era. -/
def eraDate {day century cycle year rest : Nat} (era : Nat)
    (eraDay : EraDay day century cycle year rest) : Date :=
  Date.ofMarch (400 * era + (100 * century + 4 * cycle + year)) rest eraDay.rest_le
    (by rintro rfl; exact isLeap_of_eraDay era eraDay)

theorem dayNumber_eraDate {day century cycle year rest : Nat} (era : Nat)
    (eraDay : EraDay day century cycle year rest) :
    (eraDate era eraDay).dayNumber = 146097 * era + day + 60 := by
  have before := daysBeforeMarch_add (400 * era + (100 * century + 4 * cycle + year))
  obtain ⟨centuryLe, cycleLe, yearLe, restLe, dayEq, leap⟩ := eraDay
  rw [eraDate, Date.dayNumber_ofMarch]
  omega

/-- The time of a day of so many seconds. -/
def timeOfDay (date : Date) (seconds : Nat) (lt : seconds < 86400) : Moment where
  date := date
  hour := ⟨seconds / 3600, by omega⟩
  minute := ⟨seconds % 3600 / 60, by omega⟩
  second := ⟨seconds % 60, by omega⟩

/-- The beginning of 1970. -/
def unixEpoch : Moment where
  date := .newYear 1970
  hour := 0
  minute := 0
  second := 0

theorem secondNumber_unixEpoch : unixEpoch.secondNumber = 719528 * 86400 := by
  have before := daysBeforeYear_add 1970
  have january : daysBeforeMonth 1970 1 = 0 := rfl
  simp only [Moment.secondNumber, Moment.secondOfDay, unixEpoch, Date.newYear, Date.dayNumber,
    january]
  generalize daysBeforeYear 1970 = days at before ⊢
  omega

/-- The fields of a moment. -/
def CivilFields.of (moment : Moment) : CivilFields where
  year := moment.date.year
  month := moment.date.month
  day := moment.date.day
  hour := moment.hour.val
  minute := moment.minute.val
  second := moment.second.val

/-- A number of seconds has a day of an era, and the moment of its fields is so many seconds
after the beginning of 1970. -/
theorem iterate_tick_unixEpoch {secs era day century cycle year rest : Nat}
    (eraDay : EraDay day century cycle year rest)
    (days : secs / 86400 + 719468 = 146097 * era + day) :
    Moment.tick^[secs] unixEpoch =
      timeOfDay (eraDate era eraDay) (secs % 86400) (Nat.mod_lt _ (by decide)) := by
  have number := dayNumber_eraDate era eraDay
  rw [Moment.iterate_tick_eq_iff, secondNumber_unixEpoch]
  simp only [Moment.secondNumber, Moment.secondOfDay, timeOfDay, number]
  omega

theorem CivilFields.evaluate_eq {yearKind timeKind : Kind} {year : Expr yearKind}
    {month day : Expr u64} {hour minute second : Expr timeKind} (moment : Moment)
    (isYear : year.Is moment.date.year) (isMonth : month.Is moment.date.month)
    (isDay : day.Is moment.date.day) (isHour : hour.Is moment.hour.val)
    (isMinute : minute.Is moment.minute.val) (isSecond : second.Is moment.second.val) :
    CivilFields.evaluate year month day hour minute second = some (.of moment) := by
  rw [Expr.Is] at isYear isMonth isDay isHour isMinute isSecond
  simp only [CivilFields.evaluate, isYear, isMonth, isDay, isHour, isMinute, isSecond]
  rfl

section Date

variable {doe yoe doy mp m : Expr u64} {day century cycle year rest : Nat}

/-- The month and the day of the formatters are those of the date. -/
theorem is_date (era : Nat) (eraDay : EraDay day century cycle year rest) (isDoe : doe.Is day)
    (yoe_eq : yoe = (doe - doe / 1460 + doe / 36524 - doe / 146096) / 365)
    (doy_eq : doy = doe - (365 * yoe + yoe / 4 - yoe / 100)) (mp_eq : mp = (5 * doy + 2) / 153)
    (m_eq : m = mp.branch (· < 10) (mp + 3) (mp - 9)) :
    yoe.Is (100 * century + 4 * cycle + year : Nat) ∧ m.Is (eraDate era eraDay).month ∧
      (doy - (153 * mp + 2) / 5 + 1).Is (eraDate era eraDay).day := by
  have isYoe := is_yearOfEra eraDay isDoe
  rw [← yoe_eq] at isYoe
  have isDoy := is_dayOfYear eraDay isDoe isYoe
  rw [← doy_eq] at isDoy
  have isMp := is_monthOfDay eraDay.rest_le isDoy
  rw [← mp_eq] at isMp
  have isMonth := is_calendarMonth (monthOfDay_lt eraDay.rest_le) isMp
  rw [← m_eq] at isMonth
  rw [eraDate, Date.month_ofMarch, Date.day_ofMarch]
  exact ⟨isYoe, isMonth, is_dayOfMonth eraDay.rest_le isDoy isMp⟩

/-- The year of the formatters is that of the date. -/
theorem is_year {kind : Kind} {y : Expr kind} (era : Nat)
    (eraDay : EraDay day century cycle year rest) (isMonth : m.Is (eraDate era eraDay).month)
    (isYear : y.Is (400 * era + (100 * century + 4 * cycle + year) : Nat))
    (fits_one : kind.Fits 1)
    (fits : kind.Fits ((400 * era + (100 * century + 4 * cycle + year) : Nat) + 1)) :
    (m.branch (· ≤ 2) (y + 1) y).Is (eraDate era eraDay).year := by
  rw [isMonth.branch, eraDate, Date.year_ofMarch, Date.month_ofMarch]
  by_cases winter : calendarMonth (monthOfDay rest) ≤ 2
  · rw [if_pos (by simpa using winter), if_pos winter]
    exact isYear.add (is_ofNat 1 fits_one) fits
  · rw [if_neg (by simpa using winter), if_neg winter]
    exact isYear

theorem EraDay.yearOfEra_lt (era : EraDay day century cycle year rest) :
    100 * century + 4 * cycle + year < 400 := by
  obtain ⟨centuryLe, cycleLe, yearLe, restLe, dayEq, leap⟩ := era
  omega

/-- The time of the formatters is that of the day. -/
theorem is_timeOfDay {kind : Kind} {daySecs : Expr kind} (secs : Nat)
    (isDaySecs : daySecs.Is (secs % 86400 : Int)) (fits : kind.Fits 3600) :
    (daySecs / 3600).Is (secs % 86400 / 3600 : Nat) ∧
      (daySecs % 3600 / 60).Is (secs % 86400 % 3600 / 60 : Nat) ∧
      (daySecs % 60).Is (secs % 86400 % 60 : Nat) := by
  have isHour : Expr.Is (3600 : Expr kind) (3600 : Nat) := is_ofNat _ fits
  have isMinute : Expr.Is (60 : Expr kind) (60 : Nat) :=
    is_ofNat _ (fits.of_le (by decide) (by decide))
  have isRest := isDaySecs.mod isHour (by omega) (by decide)
  exact ⟨isDaySecs.div isHour (by omega) (by decide), isRest.div isMinute (by omega) (by decide),
    isDaySecs.mod isMinute (by omega) (by decide)⟩

end Date

/-- The first branch is the one taken: no day since 1970 is before the era of the year 0. -/
theorem is_era {z : Expr i64} {days : Int} (isZ : z.Is days) (nonneg : 0 ≤ days) :
    (z.branch (0 ≤ ·) z (z - 146096) / 146097).Is (days / 146097) := by
  rw [isZ.branch, if_pos (decide_eq_true nonneg)]
  exact isZ.div (is_ofNat 146097 (by decide)) nonneg (by decide)

theorem is_secs (secs : U64) : (Expr.of u64 secs.toInt).Is secs.val :=
  is_of (fits_u64 (Int.natCast_nonneg _) (Int.ofNat_lt.mpr secs.isLt))

/-- `format_unix_secs_iso8601` overflows nowhere and computes the fields of the moment. -/
theorem unixSecsFields_eq (secs : U64) :
    unixSecsFields secs = some (.of (Moment.tick^[secs.val] unixEpoch)) := by
  obtain ⟨century, cycle, year, rest, eraDay⟩ :=
    exists_eraDay (Nat.mod_lt (secs.val / 86400 + 719468) (show 0 < 146097 by decide))
  rw [iterate_tick_unixEpoch eraDay (Nat.div_add_mod _ _).symm]
  have lt := secs.isLt
  have yearOfEra := eraDay.yearOfEra_lt
  have isSecs := is_secs secs
  have isDays := (isSecs.div (is_ofNat 86400 (by decide)) (by omega) (by decide)).add
    (is_ofNat 719468 (by decide)) (fits_u64 (by omega) (by omega))
  have isDaySecs := isSecs.mod (is_ofNat 86400 (by decide)) (by omega) (by decide)
  have isEra := isDays.div (is_ofNat 146097 (by decide)) (by omega) (by decide)
  have isEraDays := isEra.mul (is_ofNat 146097 (by decide))
    (fits_u64 (by omega) (by omega))
  have isDoe := isDays.sub isEraDays (fits_u64 (by omega) (by omega))
  have isEraYears := isEra.mul (is_ofNat 400 (by decide))
    (fits_u64 (by omega) (by omega))
  obtain ⟨isYoe, isMonth, isDay⟩ := is_date ((secs.val / 86400 + 719468) / 146097) eraDay
    (isDoe.of_eq (by omega)) rfl rfl rfl rfl
  have isYear := isYoe.add isEraYears (fits_u64 (by omega) (by omega))
  obtain ⟨isHour, isMinute, isSecond⟩ := is_timeOfDay secs.val isDaySecs (by decide)
  exact CivilFields.evaluate_eq _
    (is_year _ eraDay isMonth (isYear.of_eq (by omega)) (by decide)
      (fits_u64 (by omega) (by omega)))
    isMonth isDay isHour isMinute isSecond

/-- `format_system_time_iso8601` computes the same fields across its casts. -/
theorem systemTimeFields_eq (duration : Duration) :
    systemTimeFields (.sinceEpoch duration) =
      some (CivilFields.of (Moment.tick^[duration.secs.val] unixEpoch), duration.subsecMillis) := by
  obtain ⟨secs, nanos⟩ := duration
  obtain ⟨century, cycle, year, rest, eraDay⟩ :=
    exists_eraDay (Nat.mod_lt (secs.val / 86400 + 719468) (show 0 < 146097 by decide))
  rw [iterate_tick_unixEpoch eraDay (Nat.div_add_mod _ _).symm]
  have lt := secs.isLt
  have yearOfEra := eraDay.yearOfEra_lt
  have isSecs := is_secs secs
  have isDays := (isSecs.div (is_ofNat 86400 (by decide)) (by omega)
    (by decide)).cast (fits_i64 (by omega) (by omega))
  have isDaySecs := (isSecs.mod (is_ofNat 86400 (by decide)) (by omega)
    (by decide)).cast (fits_u32 (by omega) (by omega))
  have isZ := isDays.add (is_ofNat 719468 (by decide))
    (fits_i64 (by omega) (by omega))
  have isEra := is_era isZ (by omega)
  have isEraDays := isEra.mul (is_ofNat 146097 (by decide))
    (fits_i64 (by omega) (by omega))
  have isDoe := (isZ.sub isEraDays (fits_i64 (by omega) (by omega))).cast
    (fits_u64 (by omega) (by omega))
  have isEraYears := isEra.mul (is_ofNat 400 (by decide))
    (fits_i64 (by omega) (by omega))
  obtain ⟨isYoe, isMonth, isDay⟩ := is_date ((secs.val / 86400 + 719468) / 146097) eraDay
    (isDoe.of_eq (by omega)) rfl rfl rfl rfl
  have isYear := (isYoe.cast (fits_i64 (by omega) (by omega))).add isEraYears
    (fits_i64 (by omega) (by omega))
  obtain ⟨isHour, isMinute, isSecond⟩ := is_timeOfDay secs.val isDaySecs (by decide)
  have fields := CivilFields.evaluate_eq
    (timeOfDay (eraDate _ eraDay) (secs.val % 86400) (Nat.mod_lt _ (by decide)))
    (is_year _ eraDay isMonth (isYear.of_eq (by omega)) (by decide)
      (fits_i64 (by omega) (by omega)))
    isMonth isDay isHour isMinute isSecond
  exact congrArg (Option.map fun fields => (fields, nanos.val / 1000000)) fields

/-- Both formatters give the moment that is so many seconds after the beginning of 1970. -/
theorem formatters_calendar (secs : U64) :
    unixSecsFields secs = some (.of (Moment.tick^[secs.val] unixEpoch)) ∧
      formatUnixSecsIso8601 secs =
        some ((CivilFields.of (Moment.tick^[secs.val] unixEpoch)).text ++ "Z") ∧
      ∀ nanos : Fin 1000000000,
        systemTimeFields (.sinceEpoch ⟨secs, nanos⟩) =
            (unixSecsFields secs).map (fun fields => (fields, nanos.val / 1000000)) ∧
          formatSystemTimeIso8601 (.sinceEpoch ⟨secs, nanos⟩) =
            some ((CivilFields.of (Moment.tick^[secs.val] unixEpoch)).text ++ "." ++
              padded 3 (nanos.val / 1000000 : Nat) ++ "Z") := by
  have unix := unixSecsFields_eq secs
  refine ⟨unix, by rw [formatUnixSecsIso8601, unix, Option.map_some], fun nanos => ?_⟩
  have system := systemTimeFields_eq ⟨secs, nanos⟩
  rw [formatSystemTimeIso8601, system, unix, Option.map_some, Option.map_some]
  exact ⟨rfl, rfl⟩

end Skybase.Lexicon
