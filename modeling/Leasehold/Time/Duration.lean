/-
  Durations, to the microsecond.

  A duration is a whole number of microseconds within 999999999 days either way.  A number of seconds becomes
  one exactly when it is whole; a double is split into whole seconds and a fraction, the fraction times a
  million is ROUNDED TO A DOUBLE, and that to the nearest whole number, a tie to the even one.
-/
import Leasehold.Number.Binary64
import Leasehold.Text.Digit
import Leasehold.Time.Fault
namespace Leasehold

/-- The microseconds of a day. -/
def dayMicros : Nat := 86400000000

/-- A duration. -/
structure Duration where
  micros : Int
  lower : -86399999913600000000 ≤ micros
  upper : micros < 86400000000000000000
  deriving DecidableEq, Repr

namespace Duration

/-- No time at all. -/
def zero : Duration := ⟨0, by decide, by decide⟩

instance : Inhabited Duration := ⟨zero⟩

/-- The whole days of a number of microseconds, rounded down. -/
def daysOf (micros : Int) : Int := micros.fdiv dayMicros

/-- **A duration of so many microseconds**, if its days can be counted. -/
def ofMicros (micros : Int) : Except TimeFault Duration :=
  if h : -86399999913600000000 ≤ micros ∧ micros < 86400000000000000000 then .ok ⟨micros, h.1, h.2⟩
  else
    let days := daysOf micros
    if -2147483648 ≤ days ∧ days ≤ 2147483647 then .error (.daysOutOfRange days)
    else .error .daysUncountable

/-- The microseconds of a double's seconds, without the sign. -/
def microsOfReal (mantissa : Nat) (exponent : Int) : Nat :=
  let (num, den) := Binary64.magnitude mantissa exponent
  let fraction := match Binary64.ofRatio false (num % den * 1000000) den with
    | .finite _ m e => let (n, d) := Binary64.magnitude m e; roundHalfEven n d
    | _ => 0
  num / den * 1000000 + fraction

/-- A duration of a whole number of seconds. -/
def ofSeconds (seconds : Int) : Except TimeFault Duration := ofMicros (seconds * 1000000)

/-- **A duration of a double's seconds.** -/
def ofReal : Binary64 → Except TimeFault Duration
  | .finite negative mantissa exponent =>
    let micros : Int := microsOfReal mantissa exponent
    ofMicros (if negative then -micros else micros)
  | .infinite _ => .error .endless
  | .nan => .error .notANumber

/-! ## Its parts and its text -/

/-- Whole days, rounded down. -/
def days (d : Duration) : Int := daysOf d.micros

/-- Whole seconds within the day. -/
def seconds (d : Duration) : Nat := (d.micros.fmod dayMicros).toNat / 1000000

/-- Microseconds within the second. -/
def microseconds (d : Duration) : Nat := (d.micros.fmod dayMicros).toNat % 1000000

/-- The text of a duration: days if there are any, hours, minutes, seconds, and microseconds if there are any. -/
def text (d : Duration) : String :=
  let dayPart :=
    if d.days = 0 then ""
    else toString d.days ++ (if d.days.natAbs = 1 then " day, " else " days, ")
  let s := d.seconds
  let clock := toString (s / 3600) ++ ":" ++ Text.padded 2 (s / 60 % 60) ++ ":" ++ Text.padded 2 (s % 60)
  let fraction := if d.microseconds = 0 then "" else "." ++ Text.padded 6 d.microseconds
  dayPart ++ clock ++ fraction

/-! ## Samples -/

example : (ofSeconds 5).toOption.map text = some "0:00:05" := by decide
example : (ofSeconds (-1)).toOption.map text = some "-1 day, 23:59:59" := by decide
example : (ofSeconds 86400000000000).toOption = none := by decide

end Duration
end Leasehold
