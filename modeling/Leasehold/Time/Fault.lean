/-
  What can be wrong with a time.

  A fault is of one of three kinds: a value that is OUT OF RANGE of the calendar or of durations, a MALFORMED
  value, or two times that CANNOT BE COMPARED.
-/
import Leasehold.Text.Quoted
namespace Leasehold

/-- The part of a time of day or of a date that a bound was broken by. -/
inductive TimePart where
  | month
  | day
  | hour
  | minute
  | second
  deriving DecidableEq, Repr

/-- A fault in a time, a duration or its text. -/
inductive TimeFault where
  | outOfCalendar
  | daysOutOfRange (days : Int)
  | daysUncountable
  | endless
  | notANumber
  | yearOutOfRange (year : Nat)
  | partOutOfRange (part : TimePart)
  | notIso (text : String)
  | offsetTooWide (micros : Int)
  | clockWithoutZone
  | zoneMismatch
  deriving DecidableEq, Repr

namespace TimeFault

/-- The three kinds of faults. -/
inductive Kind where
  | outOfRange
  | malformed
  | incomparable
  deriving DecidableEq, Repr

def kind : TimeFault → Kind
  | outOfCalendar => .outOfRange
  | daysOutOfRange _ => .outOfRange
  | daysUncountable => .outOfRange
  | endless => .outOfRange
  | zoneMismatch => .incomparable
  | _ => .malformed

/-- A duration of so many microseconds as its components that are not zero: days, seconds, microseconds. -/
def componentText (micros : Int) : String :=
  let days := micros.fdiv 86400000000
  let rest := micros.fmod 86400000000
  let parts := [("days", days), ("seconds", rest / 1000000), ("microseconds", rest % 1000000)]
  ", ".intercalate ((parts.filter (·.2 != 0)).map fun p => p.1 ++ "=" ++ toString p.2)

/-- The words for a fault. -/
def message : TimeFault → String
  | outOfCalendar => "date value out of range"
  | daysOutOfRange days => "days=" ++ toString days ++ "; must have magnitude <= 999999999"
  | daysUncountable => "Python int too large to convert to C int"
  | endless => "cannot convert float infinity to integer"
  | notANumber => "cannot convert float NaN to integer"
  | yearOutOfRange year => "year " ++ toString year ++ " is out of range"
  | partOutOfRange .month => "month must be in 1..12"
  | partOutOfRange .day => "day is out of range for month"
  | partOutOfRange .hour => "hour must be in 0..23"
  | partOutOfRange .minute => "minute must be in 0..59"
  | partOutOfRange .second => "second must be in 0..59"
  | notIso text => "Invalid isoformat string: " ++ Text.quoted text
  | offsetTooWide micros =>
    "offset must be a timedelta strictly between -timedelta(hours=24) and timedelta(hours=24), not datetime.timedelta("
      ++ componentText micros ++ ")."
  | clockWithoutZone => "ManualClock needs a timezone-aware start time"
  | zoneMismatch => "can't compare offset-naive and offset-aware datetimes"

end TimeFault
end Leasehold
