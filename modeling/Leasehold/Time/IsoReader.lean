/-
  Reading a timestamp.

  The reader takes more than `Instant.timestamp` writes: ISO 8601 dates in both spellings, week dates, any
  separator, times cut after the hour or the minute, fractions of any length, and distances from UTC.  It works on
  the UTF-8 bytes of the text by position, and a position past the end reads as the byte 0:

  1. **`separator?`** decides from a few bytes how long the date is;
  2. **`readDate`** reads a date of months or of weeks;
  3. **`readClock`** reads a time of day between two positions, and is used again for the distance from UTC;
  4. **`read`** puts them together, checks the ranges, and converts to UTC.

  A final `Z` stands for a distance of zero; a text that names no distance is in UTC.
-/
import Leasehold.Text.Utf8
import Leasehold.Time.Timestamp
namespace Leasehold.IsoReader

/-! ## Bytes by position -/

/-- The byte at a position, 0 past the end. -/
def byteAt (bs : List UInt8) (p : Nat) : UInt8 := bs.getD p 0

/-- The byte of an ASCII character. -/
def code (c : Char) : UInt8 := UInt8.ofNat c.toNat

def isDigit (b : UInt8) : Bool := 48 ≤ b && b ≤ 57

/-- The number that exactly `n` digits at a position spell. -/
def digits? (bs : List UInt8) (p n : Nat) : Option Nat :=
  let row := (bs.drop p).take n
  if row.length = n && row.all isDigit then some (row.foldl (fun a b => 10 * a + (b.toNat - 48)) 0) else none

/-- The first position from `p` on that holds no digit. -/
def skipDigits (bs : List UInt8) (p : Nat) : Nat := p + ((bs.drop p).takeWhile isDigit).length

/-! ## The date -/

/-- How long the date is. -/
def separator? (bs : List UInt8) : Option Nat :=
  let at_ := byteAt bs
  if bs.length = 7 then some 7
  else if at_ 4 = code '-' then
    if at_ 5 = code 'W' then
      if bs.length < 8 then none
      else if 8 < bs.length && at_ 8 = code '-' then
        if bs.length = 9 then none
        else if 10 < bs.length && isDigit (at_ 10) then some 8
        else some 10
      else some 8
    else some 10
  else if at_ 4 = code 'W' then
    let p := skipDigits bs 7
    if p < 9 then some p else if p % 2 = 0 then some 7 else some 8
  else some 8

/-- A date as it was read: by its parts, or as the number of a day counted from 1 that may lie before the
calendar. -/
inductive WrittenDate where
  | parts (date : Calendar.Date)
  | weekday (number : Int)

/-- A week date as the number of its day. -/
def weekDate? (year week day : Nat) : Option WrittenDate :=
  if day < 1 || 7 < day then none
  else if (1 ≤ week && week ≤ 52) || (week = 53 && Calendar.hasWeek53 year) then
    if year = 0 then some (.weekday 0)
    else some (.weekday (Calendar.firstMonday year + 7 * ((week : Int) - 1) + ((day : Int) - 1)))
  else none

/-- A date that is `length` bytes long. -/
def readDate? (bs : List UInt8) (length : Nat) : Option WrittenDate := do
  let year ← digits? bs 0 4
  let dashed := byteAt bs 4 = code '-'
  let p := if dashed then 5 else 4
  if byteAt bs p = code 'W' then
    let week ← digits? bs (p + 1) 2
    if p + 3 < length then
      if dashed then
        if byteAt bs (p + 3) ≠ code '-' then none
        else weekDate? year week (← digits? bs (p + 4) 1)
      else weekDate? year week (← digits? bs (p + 3) 1)
    else weekDate? year week 1
  else
    let month ← digits? bs p 2
    if dashed && byteAt bs (p + 2) ≠ code '-' then none
    else
      let day ← digits? bs (if dashed then p + 3 else p + 2) 2
      return .parts ⟨year, month, day⟩

/-- The date that was read, once its year is known to be in the calendar. -/
def WrittenDate.resolve : WrittenDate → Except TimeFault Calendar.Date
  | .parts date => .ok date
  | .weekday number =>
    if number < 1 then .error (.partOutOfRange .month)
    else if Calendar.dayCount < number.toNat then .error (.yearOutOfRange 10000)
    else .ok (Calendar.dateOf (number.toNat - 1))

/-! ## The time of day -/

/-- A time of day by its parts, not checked. -/
structure Clock where
  hour : Nat
  minute : Nat
  second : Nat
  micro : Nat
  deriving Inhabited

/-- Sets the part of a clock that comes `i`-th. -/
def Clock.set (c : Clock) (i v : Nat) : Clock :=
  match i with
  | 0 => { c with hour := v }
  | 1 => { c with minute := v }
  | _ => { c with second := v }

/-- The fraction of a second at `p`, in a time that ends at `stop`, and whether anything is left behind it. -/
def readFraction? (bs : List UInt8) (c : Clock) (p stop : Nat) : Option (Clock × Bool) := do
  let count := min 6 (stop - p)
  let v ← digits? bs p count
  let after := skipDigits bs (p + count)
  return ({ c with micro := v * Nat.pow 10 (6 - count) }, byteAt bs after ≠ 0)

/-- The parts of a time from the `i`-th on; `left` parts are still to come. -/
def readParts? (bs : List UInt8) (stop : Nat) (colon : Bool) (c : Clock) (p : Nat) :
    Nat → Nat → Option (Clock × Bool)
  | 0, _ => readFraction? bs c p stop
  | left + 1, i => do
    let c := c.set i (← digits? bs p 2)
    let next := byteAt bs (p + 2)
    let colon := if i = 0 then next = code ':' else colon
    if stop ≤ p + 3 then return (c, next ≠ 0)
    else if colon && next = code ':' then readParts? bs stop colon c (p + 3) left (i + 1)
    else if next = code '.' || next = code ',' then readFraction? bs c (p + 3) stop
    else if !colon then readParts? bs stop colon c (p + 2) left (i + 1)
    else none

/-- A time of day between two positions, and whether anything is left behind it. -/
def readClock? (bs : List UInt8) (p stop : Nat) : Option (Clock × Bool) :=
  readParts? bs stop true default p 3 0

/-! ## The whole text -/

/-- The length of the character that a byte opens. -/
def characterLength (b : UInt8) : Nat :=
  if b < 0x80 then 1
  else if b / 16 = 14 then 3
  else if b / 16 = 15 then 4
  else 2

/-- The distance from UTC that a clock spells, in microseconds; less than a second counts as no distance. -/
def Clock.distance (c : Clock) : Int :=
  let seconds := (c.hour * 60 + c.minute) * 60 + c.second
  if seconds = 0 then 0 else seconds * 1000000 + c.micro

/-- A time of day that starts at `p`, with its distance from UTC if one is named. -/
def readTime? (bs : List UInt8) (p : Nat) : Option (Clock × Option Int) := do
  let z := p + ((bs.drop p).takeWhile fun b => b ≠ code '+' && b ≠ code '-' && b ≠ code 'Z').length
  let (clock, rest) ← readClock? bs p z
  if bs.length ≤ z then if rest then none else return (clock, none)
  else if byteAt bs z = code 'Z' then
    if byteAt bs (z + 1) ≠ 0 then none else return (clock, some 0)
  else
    let (o, left) ← readClock? bs (z + 1) bs.length
    if left then none
    else return (clock, some (if byteAt bs z = code '-' then -o.distance else o.distance))

/-- A whole text by its parts. -/
def readParts (bs : List UInt8) : Option (WrittenDate × Clock × Option Int) := do
  if bs.length < 7 then none
  else
    let length ← separator? bs
    let date ← readDate? bs length
    if length < bs.length then
      let (clock, offset) ← readTime? bs (length + characterLength (byteAt bs length))
      return (date, clock, offset)
    else return (date, default, none)

/-- **The moment of UTC that a text spells.** -/
def readMoment (text : String) : Except TimeFault Instant :=
  match readParts (Text.Utf8.encode text.toList) with
  | none => .error (.notIso text)
  | some (written, clock, offset) =>
    let o := offset.getD 0
    if o ≤ -(dayMicros : Int) ∨ (dayMicros : Int) ≤ o then .error (.offsetTooWide o)
    else do
      let date ← written.resolve
      let wall ← Instant.ofParts date clock.hour clock.minute clock.second clock.micro
      Instant.ofMicros (wall.micros - o)

/-- A final `Z` spelled out as a distance of zero. -/
def spellZone (text : String) : String :=
  let cs := text.toList
  if cs.getLast? = some 'Z' then String.ofList (cs.dropLast ++ "+00:00".toList) else text

end IsoReader

/-- **Reads a timestamp** as the moment it stands for. -/
def Instant.ofTimestamp (text : String) : Except TimeFault Instant :=
  IsoReader.readMoment (IsoReader.spellZone text)

/-! ## Samples -/

example : (Instant.ofTimestamp "2024-01-01T00:00:00.000Z").toOption.map Instant.timestamp
    = some "2024-01-01T00:00:00.000Z" := by decide
example : (Instant.ofTimestamp "2024-01-01T02:00+02:00").toOption.map Instant.timestamp
    = some "2024-01-01T00:00:00.000Z" := by decide

end Leasehold
