/-
  Dates with a time of day.

  * An **`Instant`** is a point of the calendar to the microsecond, counted from its start.  Read in UTC it is a
    moment; the whole protocol works on such moments, cut to milliseconds.
  * A **`DateTime`** is what a clock on the wall shows: an instant together with the clock's distance from UTC,
    or without one.  Callers hand these in; `toUtc` turns one into a moment, or finds that it leaves the calendar.
    The distance is fixed: it is the same at any other time of that clock.
  * A **`ZonedTime`** is what a clock on the wall shows in a `Zone`, whose distance from UTC may be another one at
    another time, as where clocks go back in autumn.

  A date and time without a distance counts as UTC when it is converted, but it cannot be compared with one that
  has a distance.
-/
import Leasehold.Time.Calendar
import Leasehold.Time.Duration
namespace Leasehold

/-- The microseconds of the calendar. -/
def calendarMicros : Nat := 315537897600000000

/-- A point of the calendar. -/
structure Instant where
  micros : Nat
  inCalendar : micros < calendarMicros
  deriving DecidableEq, Repr

namespace Instant

/-- The start of the calendar. -/
def first : Instant := ⟨0, by decide⟩

instance : Inhabited Instant := ⟨first⟩

/-- The instant so many microseconds after the start, if the calendar reaches it. -/
def ofMicros (micros : Int) : Except TimeFault Instant :=
  if h : 0 ≤ micros ∧ micros.toNat < calendarMicros then .ok ⟨micros.toNat, h.2⟩ else .error .outOfCalendar

/-- The microseconds within the day. -/
def timeOfDay (i : Instant) : Nat := i.micros % dayMicros

/-- The date. -/
def date (i : Instant) : Calendar.Date := Calendar.dateOf (i.micros / dayMicros)

def hour (i : Instant) : Nat := i.timeOfDay / 3600000000
def minute (i : Instant) : Nat := i.timeOfDay / 60000000 % 60
def second (i : Instant) : Nat := i.timeOfDay / 1000000 % 60
def microsecond (i : Instant) : Nat := i.micros % 1000000

/-- **The start of the millisecond** that an instant falls into. -/
def truncate (i : Instant) : Instant :=
  ⟨i.micros / 1000 * 1000, Nat.lt_of_le_of_lt (Nat.div_mul_le_self _ _) i.inCalendar⟩

/-- The instant a duration later. -/
def add (i : Instant) (d : Duration) : Except TimeFault Instant := ofMicros (i.micros + d.micros)

/-- The date and time of day by their parts, each checked. -/
def ofParts (date : Calendar.Date) (hour minute second micro : Nat) : Except TimeFault Instant :=
  if date.year < 1 || 9999 < date.year then .error (.yearOutOfRange date.year)
  else if date.month < 1 || 12 < date.month then .error (.partOutOfRange .month)
  else if date.day < 1 || Calendar.daysInMonth (Calendar.isLeap date.year) date.month < date.day then
    .error (.partOutOfRange .day)
  else if 23 < hour then .error (.partOutOfRange .hour)
  else if 59 < minute then .error (.partOutOfRange .minute)
  else if 59 < second then .error (.partOutOfRange .second)
  else ofMicros
    (((Calendar.dayNumber date * 24 + hour) * 60 + minute) * 60 * 1000000 + second * 1000000 + micro : Nat)

@[simp] theorem truncate_truncate (i : Instant) : i.truncate.truncate = i.truncate := by
  simp [truncate]

theorem truncate_le (i : Instant) : i.truncate.micros ≤ i.micros := Nat.div_mul_le_self _ _

end Instant

/-- A date and time with the distance from UTC in microseconds, east being positive, or without one. -/
structure DateTime where
  wall : Instant
  offset : Option Int
  deriving DecidableEq, Repr, Inhabited

namespace DateTime

/-- A moment as a date and time of UTC. -/
def utc (i : Instant) : DateTime := ⟨i, some 0⟩

/-- Whether the distance from UTC is known. -/
def isAware (t : DateTime) : Bool := t.offset.isSome

/-- **The moment of UTC** that a date and time stands for.  Without a distance it counts as UTC, but the first day of
the calendar is then out of reach, since the day before it is looked at. -/
def toUtc (t : DateTime) : Except TimeFault Instant :=
  match t.offset with
  | some o => Instant.ofMicros (t.wall.micros - o)
  | none => if t.wall.micros < dayMicros then .error (.yearOutOfRange 0) else .ok t.wall

/-- The moment cut to milliseconds. -/
def truncate (t : DateTime) : Except TimeFault Instant := t.toUtc.map Instant.truncate

/-- The date and time a duration later, at the same distance from UTC, which is a fixed one here. -/
def add (t : DateTime) (d : Duration) : Except TimeFault DateTime :=
  (t.wall.add d).map fun w => { t with wall := w }

/-- The distance in microseconds from the start of the calendar, seen from UTC; it may lie outside the calendar. -/
def position (t : DateTime) : Int := t.wall.micros - t.offset.getD 0

/-- Whether one comes before the other. -/
def before (s t : DateTime) : Except TimeFault Bool :=
  if s.isAware = t.isAware then .ok (s.position < t.position) else .error .zoneMismatch

/-- Whether two are the same; one with a distance is never the same as one without. -/
def same (s t : DateTime) : Bool := s.isAware == t.isAware && s.position == t.position

theorem truncate_utc (i : Instant) : (utc i).truncate = .ok i.truncate := by
  have h : (i.micros : Int) - 0 = i.micros := by omega
  simp [truncate, toUtc, utc, Instant.ofMicros, i.inCalendar, Except.map]

end DateTime

/-- **A zone**: how far its clocks are from UTC when they show a time, in microseconds.  A time that they show twice, as they
do when they go back, counts as the second one if the flag is set. -/
structure Zone where
  offset : Instant → Bool → Int
  withinDay : ∀ wall second, (offset wall second).natAbs < dayMicros

/-- The zone is shown without its table. -/
instance : Repr Zone := ⟨fun _ _ => "Zone"⟩

/-- A date and time in a zone; `second` tells the second of two times that are shown alike. -/
structure ZonedTime where
  zone : Zone
  wall : Instant
  second : Bool
  deriving Repr

namespace ZonedTime

/-- The date and time with the distance from UTC that the zone has then. -/
def dateTime (t : ZonedTime) : DateTime := ⟨t.wall, some (t.zone.offset t.wall t.second)⟩

/-- **What the clocks of the zone show when a duration is added to what they show now.**  More or less time may pass until
then: the distance from UTC is looked up anew, for the first time that is shown so. -/
def add (t : ZonedTime) (d : Duration) : Except TimeFault ZonedTime :=
  (t.wall.add d).map fun w => { t with wall := w, second := false }

end ZonedTime
end Leasehold
