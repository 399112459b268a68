/-
  The calendar of the years 1 to 9999.

  Days are numbered from 0, the first of January of the year 1, in the Gregorian calendar carried back to that
  year.  `dayNumber` counts the days before a date, `dateOf` goes back:

  1. **the year** is guessed from the mean length of a year, which is off by one at most, and then mended;
  2. **the month** is found by the lengths of the months before it.
-/
namespace Leasehold.Calendar

/-- A date by its parts. -/
structure Date where
  year : Nat
  month : Nat
  day : Nat
  deriving DecidableEq, Repr

/-- Every fourth year is a leap year, but of the full centuries only every fourth. -/
def isLeap (year : Nat) : Bool := year % 4 == 0 && (year % 100 != 0 || year % 400 == 0)

/-- The days before the first of January of a year from 1 on. -/
def daysBeforeYear (year : Nat) : Nat :=
  let y := year - 1
  365 * y + y / 4 - y / 100 + y / 400

/-- The days of a year before the first of a month. -/
def daysBeforeMonth (leap : Bool) (month : Nat) : Nat :=
  let extra := if leap && 2 < month then 1 else 0
  extra + match month with
    | 0 => 0 | 1 => 0 | 2 => 31 | 3 => 59 | 4 => 90 | 5 => 120 | 6 => 151
    | 7 => 181 | 8 => 212 | 9 => 243 | 10 => 273 | 11 => 304 | _ => 334

/-- The length of a month. -/
def daysInMonth (leap : Bool) (month : Nat) : Nat :=
  match month with
  | 2 => if leap then 29 else 28
  | 4 => 30 | 6 => 30 | 9 => 30 | 11 => 30
  | _ => 31

/-- The days before a date. -/
def dayNumber (d : Date) : Nat :=
  daysBeforeYear d.year + daysBeforeMonth (isLeap d.year) d.month + (d.day - 1)

/-- The year that a day falls into. -/
def yearOf (n : Nat) : Nat :=
  let guess := 400 * n / 146097 + 1
  if n < daysBeforeYear guess then guess - 1
  else if daysBeforeYear (guess + 1) ≤ n then guess + 1
  else guess

/-- The month that the day `k` of a year falls into. -/
def monthOf (leap : Bool) (k : Nat) : Nat :=
  if k < daysBeforeMonth leap 2 then 1
  else if k < daysBeforeMonth leap 3 then 2
  else if k < daysBeforeMonth leap 4 then 3
  else if k < daysBeforeMonth leap 5 then 4
  else if k < daysBeforeMonth leap 6 then 5
  else if k < daysBeforeMonth leap 7 then 6
  else if k < daysBeforeMonth leap 8 then 7
  else if k < daysBeforeMonth leap 9 then 8
  else if k < daysBeforeMonth leap 10 then 9
  else if k < daysBeforeMonth leap 11 then 10
  else if k < daysBeforeMonth leap 12 then 11
  else 12

/-- **The date of a day.** -/
def dateOf (n : Nat) : Date :=
  let year := yearOf n
  let k := n - daysBeforeYear year
  let month := monthOf (isLeap year) k
  { year := year, month := month, day := k - daysBeforeMonth (isLeap year) month + 1 }

/-- The days of the calendar. -/
def dayCount : Nat := 3652059

/-! ## Weeks

  The first week of a year is the one with its first Thursday; weeks start on Monday. -/

/-- The weekday of the first of January, Monday being 0. -/
def firstWeekday (year : Nat) : Nat := daysBeforeYear year % 7

/-- The day number, from 1, of the Monday of a year's first week; it may fall just before the calendar. -/
def firstMonday (year : Nat) : Int :=
  let first : Int := daysBeforeYear year + 1
  let weekday : Int := firstWeekday year
  if weekday ≤ 3 then first - weekday else first - weekday + 7

/-- Whether a year from 1 on has a week 53: it starts on a Thursday, or on a Wednesday and is a leap year. -/
def hasWeek53 (year : Nat) : Bool :=
  0 < year && (firstWeekday year == 3 || (firstWeekday year == 2 && isLeap year))

/-! ## Samples -/

example : dateOf 0 = ⟨1, 1, 1⟩ := by decide
example : dateOf 3652058 = ⟨9999, 12, 31⟩ := by decide
example : dateOf (dayNumber ⟨2024, 2, 29⟩) = ⟨2024, 2, 29⟩ := by decide
example : dayNumber ⟨10000, 1, 1⟩ = dayCount := by decide

end Leasehold.Calendar
