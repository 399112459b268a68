/-
  Timestamps: how a moment is written down.

  Stores keep moments as text, `YYYY-MM-DDTHH:MM:SS.fffZ`, in UTC and to the millisecond.  Every field but the year
  has its fixed width; the YEAR IS NOT PADDED, so a year below 1000 makes a shorter text.  `DateTime.iso` is the
  fuller form, to the microsecond and with the distance from UTC.
-/
import Leasehold.Time.DateTime
namespace Leasehold

/-- Month, day and time of day, each of fixed width, behind the year's text. -/
def Instant.clockText (i : Instant) : String :=
  "-" ++ Text.padded 2 i.date.month ++ "-" ++ Text.padded 2 i.date.day ++ "T" ++ Text.padded 2 i.hour
    ++ ":" ++ Text.padded 2 i.minute ++ ":" ++ Text.padded 2 i.second

/-- **The timestamp of a moment.** -/
def Instant.timestamp (i : Instant) : String :=
  toString i.date.year ++ i.clockText ++ "." ++ Text.padded 3 (i.microsecond / 1000) ++ "Z"

namespace DateTime

/-- The timestamp of a date and time, if its moment is in the calendar. -/
def timestamp (t : DateTime) : Except TimeFault String := t.truncate.map Instant.timestamp

/-- A distance from UTC: sign, hours and minutes, seconds and microseconds if there are any. -/
def offsetText (o : Int) : String :=
  let n := o.natAbs
  let s := n / 1000000
  (if o < 0 then "-" else "+") ++ Text.padded 2 (s / 3600) ++ ":" ++ Text.padded 2 (s / 60 % 60)
    ++ (if s % 60 = 0 && n % 1000000 = 0 then "" else ":" ++ Text.padded 2 (s % 60))
    ++ (if n % 1000000 = 0 then "" else "." ++ Text.padded 6 (n % 1000000))

/-- The full text of a date and time. -/
def iso (t : DateTime) : String :=
  Text.padded 4 t.wall.date.year ++ t.wall.clockText ++ "." ++ Text.padded 6 t.wall.microsecond
    ++ (t.offset.map offsetText).getD ""

end DateTime

/-! ## Samples -/

example : Instant.first.timestamp = "1-01-01T00:00:00.000Z" := by decide
example : (DateTime.utc Instant.first).iso = "0001-01-01T00:00:00.000000+00:00" := by decide

end Leasehold
