import Mathlib

/-!
# Errors, instants and calendar days

- `ApiError`: the HTTP exceptions of the services, each with its message.
- Instants are JavaScript time values (milliseconds since the epoch) and calendar
  days are counted from the epoch, both as `ℤ`. The server runs with `TZ=UTC`, so
  the day arithmetic of `Date.UTC` and of `setHours` is the one below.
- `TehranZone`: the zone `Asia/Tehran` as the platform's time zone data gives it.
  Nothing but the size of its offsets is fixed; whatever is proved about days and
  fiscal years holds for the daylight saving rules of every year.
-/

namespace ArkanGold

/-- The exceptions of the services, with the message they carry. -/
inductive ApiError where
  | badRequest (message : String)
  | notFound (message : String)
  | conflict (message : String)
  | forbidden (message : String)
  | gone (message : String)
  | internal (message : String)
  deriving DecidableEq, Repr

/-- The milliseconds of a day. -/
def dayMs : ℤ := 86400000

/-- The milliseconds of a minute. -/
def minuteMs : ℤ := 60000

/-- `Date.UTC(y, m, d)` of a calendar day: its midnight in UTC. -/
def utcMidnight (d : ℤ) : ℤ := d * dayMs

/-- `storedDay`: the calendar day of an instant in UTC. -/
def storedDay (t : ℤ) : ℤ := t / dayMs

/-- `23:59:59.999` of a day in UTC. -/
def utcEndOfDay (d : ℤ) : ℤ := utcMidnight d + dayMs - 1

/-- `addDays` -/
def addDays (d : ℤ) (n : ℤ) : ℤ := d + n

/-- `isUtcMidnight` -/
def isUtcMidnight (t : ℤ) : Bool := t % dayMs == 0

/-- `isUtcEndOfDay` -/
def isUtcEndOfDay (t : ℤ) : Bool := (t + 1) % dayMs == 0

theorem utcMidnight_storedDay {t : ℤ} (h : isUtcMidnight t = true) :
    utcMidnight (storedDay t) = t := by
  simp only [isUtcMidnight, beq_iff_eq, utcMidnight, storedDay, dayMs] at *
  omega

theorem utcEndOfDay_storedDay {t : ℤ} (h : isUtcEndOfDay t = true) :
    utcEndOfDay (storedDay t) = t := by
  simp only [isUtcEndOfDay, beq_iff_eq, utcEndOfDay, utcMidnight, storedDay, dayMs] at *
  omega

theorem utcMidnight_le_iff {d : ℤ} {t : ℤ} : utcMidnight d ≤ t ↔ d ≤ storedDay t := by
  simp only [utcMidnight, storedDay, dayMs]
  omega

theorem le_utcEndOfDay_iff {d : ℤ} {t : ℤ} : t ≤ utcEndOfDay d ↔ storedDay t ≤ d := by
  simp only [utcEndOfDay, utcMidnight, storedDay, dayMs]
  omega

/-- The proleptic Gregorian date of a day: year, month and day of month. -/
def civilDate (d : ℤ) : ℤ × ℤ × ℤ :=
  let z := d + 719468
  let era := z / 146097
  let doe := z % 146097
  let yoe := (doe - doe / 1460 + doe / 36524 - doe / 146096) / 365
  let doy := doe - (365 * yoe + yoe / 4 - yoe / 100)
  let mp := (5 * doy + 2) / 153
  let m := if mp < 10 then mp + 3 else mp - 9
  (yoe + era * 400 + (if m ≤ 2 then 1 else 0), m, doy - (153 * mp + 2) / 5 + 1)

/-- `pad`: at least two digits. -/
def pad (n : ℤ) : String := if n < 10 then "0" ++ toString n else toString n

/-- `formatIsoDay`: a day as `YYYY-MM-DD`. -/
def formatIsoDay (d : ℤ) : String :=
  let (y, m, day) := civilDate d
  toString y ++ "-" ++ pad m ++ "-" ++ pad day

example : formatIsoDay 20168 = "2025-03-21" := by decide

/-- A date as a request carries it: `YYYY-MM-DD`, an ISO instant, or text that is no
date. -/
inductive DateInput where
  | day (d : ℤ)
  | instant (t : ℤ)
  | invalid
  deriving DecidableEq

/-- `new Date(v)` -/
def DateInput.toInstant : DateInput → Option ℤ
  | .day d => some (utcMidnight d)
  | .instant t => some t
  | .invalid => none

/-- `endOfDay`: the last millisecond of a plain day; an instant stands for itself. -/
def DateInput.endOfDay : DateInput → Option ℤ
  | .day d => some (utcEndOfDay d)
  | .instant t => some t
  | .invalid => none

/-! ## Tehran time -/

/-- The time zone data of `Asia/Tehran`: `offsetMinutes t` is the difference to UTC
at the instant `t`, ahead of UTC and by less than a day. -/
structure TehranZone where
  offsetMinutes : ℤ → ℤ
  nonneg : ∀ t, 0 ≤ offsetMinutes t
  lt_day : ∀ t, offsetMinutes t < 1440

namespace TehranZone

variable (tz : TehranZone)

/-- The zone with the standard offset of three and a half hours all year. -/
def standard : TehranZone := ⟨fun _ => 210, fun _ => by decide, fun _ => by decide⟩

/-- `tehranDayStart`: the instant of 00:00 in Tehran, from the guess `+03:30` and two
corrections by the offset at the instant guessed. -/
def tehranDayStart (d : ℤ) : ℤ :=
  let base := utcMidnight d
  let t₀ := base - 210 * minuteMs
  let t₁ := base - tz.offsetMinutes t₀ * minuteMs
  base - tz.offsetMinutes t₁ * minuteMs

/-- `tehranGregorian`: the calendar day of an instant in Tehran. -/
def tehranDay (t : ℤ) : ℤ := (t + tz.offsetMinutes t * minuteMs) / dayMs

/-- Midnight in Tehran is not after midnight of the same day in UTC. -/
theorem tehranDayStart_le (d : ℤ) : tz.tehranDayStart d ≤ utcMidnight d := by
  have h := tz.nonneg (utcMidnight d - tz.offsetMinutes (utcMidnight d - 210 * minuteMs) * minuteMs)
  simp only [tehranDayStart, minuteMs] at *
  omega

/-- Midnight in Tehran falls in the UTC day before. -/
theorem lt_tehranDayStart (d : ℤ) : utcMidnight (d - 1) < tz.tehranDayStart d := by
  have h := tz.lt_day (utcMidnight d - tz.offsetMinutes (utcMidnight d - 210 * minuteMs) * minuteMs)
  simp only [tehranDayStart, minuteMs, utcMidnight, dayMs] at *
  omega

theorem tehranDayStart_lt {d e : ℤ} (h : d < e) : tz.tehranDayStart d < tz.tehranDayStart e := by
  have h₁ := tz.tehranDayStart_le d
  have h₂ := tz.lt_tehranDayStart e
  simp only [utcMidnight, dayMs] at *
  omega

theorem tehranDayStart_mono {d e : ℤ} (h : d ≤ e) :
    tz.tehranDayStart d ≤ tz.tehranDayStart e := by
  rcases eq_or_lt_of_le h with rfl | hlt
  · exact le_refl _
  · exact (tz.tehranDayStart_lt hlt).le

/-- `startOfTehranDay`: midnight in Tehran, by the offset at the instant itself. -/
def startOfTehranDay (t : ℤ) : ℤ := utcMidnight (tz.tehranDay t) - tz.offsetMinutes t * minuteMs

/-- The offset never changes, as since the end of daylight saving time in Iran. -/
def Steady : Prop := ∀ t t', tz.offsetMinutes t = tz.offsetMinutes t'

theorem startOfTehranDay_le (t : ℤ) : tz.startOfTehranDay t ≤ t := by
  simp only [startOfTehranDay, tehranDay, utcMidnight, minuteMs, dayMs]
  omega

theorem startOfTehranDay_mono (h : tz.Steady) {t t' : ℤ} (ht : t ≤ t') :
    tz.startOfTehranDay t ≤ tz.startOfTehranDay t' := by
  have hoff := h t t'
  simp only [startOfTehranDay, tehranDay, utcMidnight, minuteMs, dayMs]
  rw [hoff]
  omega

end TehranZone

/-- The Jalali calendar as the platform's library gives it: the year and the day of the
month of a calendar day. From one day to the next the day of the month goes up by one or
starts again at the first. -/
structure JalaliCalendar where
  year : ℤ → ℤ
  dayOfMonth : ℤ → ℤ
  pos : ∀ d, 1 ≤ dayOfMonth d
  next : ∀ d, dayOfMonth (d + 1) = dayOfMonth d + 1 ∨ dayOfMonth (d + 1) = 1

namespace JalaliCalendar

variable (jalali : JalaliCalendar)

/-- The first day of the month of a day. -/
def monthStart (d : ℤ) : ℤ := d - (jalali.dayOfMonth d - 1)

theorem monthStart_le (d : ℤ) : jalali.monthStart d ≤ d := by
  have h := jalali.pos d
  simp only [monthStart]
  omega

theorem monthStart_mono {d e : ℤ} (h : d ≤ e) : jalali.monthStart d ≤ jalali.monthStart e := by
  induction e, h using Int.leInduction with
  | base => exact le_refl _
  | succ e _ ih =>
    refine ih.trans ?_
    have hpos := jalali.pos e
    simp only [monthStart]
    rcases jalali.next e with h | h <;> omega

/-- The calendar of the first half of 1404, whose months have 31 days, for examples. -/
def of1404 : JalaliCalendar where
  year d := 1404 + (d - 20168) / 365
  dayOfMonth d := (d - 20168) % 31 + 1
  pos d := by omega
  next d := by omega

end JalaliCalendar

/-- The calendars of the platform. -/
structure Calendar where
  tehran : TehranZone
  jalali : JalaliCalendar

namespace Calendar

/-- The calendars of the first half of 1404, for examples. -/
def of1404 : Calendar := ⟨.standard, .of1404⟩

variable (cal : Calendar)

/-- `startOfTehranDay` -/
def startOfTehranDay (t : ℤ) : ℤ := cal.tehran.startOfTehranDay t

/-- `startOfJalaliMonthTehran` -/
def startOfJalaliMonthTehran (t : ℤ) : ℤ :=
  cal.tehran.startOfTehranDay t - (cal.jalali.dayOfMonth (cal.tehran.tehranDay t) - 1) * dayMs

/-- `currentJalaliYear`: the year of the calendar day in UTC. -/
def currentJalaliYear (t : ℤ) : ℤ := cal.jalali.year (storedDay t)

theorem startOfJalaliMonthTehran_eq (t : ℤ) : cal.startOfJalaliMonthTehran t =
    utcMidnight (cal.jalali.monthStart (cal.tehran.tehranDay t)) -
      cal.tehran.offsetMinutes t * minuteMs := by
  simp only [startOfJalaliMonthTehran, TehranZone.startOfTehranDay, JalaliCalendar.monthStart,
    utcMidnight]
  ring

theorem startOfJalaliMonthTehran_le (t : ℤ) : cal.startOfJalaliMonthTehran t ≤ t := by
  have h₁ := cal.tehran.startOfTehranDay_le t
  have h₂ := cal.jalali.pos (cal.tehran.tehranDay t)
  simp only [startOfJalaliMonthTehran, dayMs]
  omega

theorem startOfJalaliMonthTehran_mono (h : cal.tehran.Steady) {t t' : ℤ} (ht : t ≤ t') :
    cal.startOfJalaliMonthTehran t ≤ cal.startOfJalaliMonthTehran t' := by
  have hoff := h t t'
  have hday : cal.tehran.tehranDay t ≤ cal.tehran.tehranDay t' := by
    simp only [TehranZone.tehranDay, minuteMs, dayMs, hoff]
    omega
  have hmonth := cal.jalali.monthStart_mono hday
  rw [startOfJalaliMonthTehran_eq, startOfJalaliMonthTehran_eq, hoff]
  simp only [utcMidnight, dayMs]
  omega

end Calendar

end ArkanGold
