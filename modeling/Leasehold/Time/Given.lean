/-
  Times and durations as callers give them.

  A caller may hand over anything: a date and time, a duration, or a value that is neither.  What an operation
  makes of it, or why it cannot, is decided here.
-/
import Leasehold.Error
namespace Leasehold

/-! ## Times -/

/-- A time as it was given: at a fixed distance from UTC or without one, in a zone, or no time at all. -/
inductive GivenTime where
  | time (t : DateTime)
  | zoned (t : ZonedTime)
  | other (v : Value)
  deriving Repr, Inhabited

namespace GivenTime

/-- No time at all. -/
def none : GivenTime := .other .null

/-- A moment of UTC, given as a time. -/
def moment (i : Instant) : GivenTime := .time (.utc i)

def isNone : GivenTime → Bool
  | .other v => v.isNull
  | .time _ | .zoned _ => false

def kindName : GivenTime → String
  | .time _ | .zoned _ => timeKindName
  | .other v => v.kindName

/-- The date and time, with its distance from UTC, if it is one. -/
def dateTime? : GivenTime → Option DateTime
  | .time t => some t
  | .zoned t => some t.dateTime
  | .other _ => Option.none

/-- A time whose distance from UTC is known. -/
def IsAware (g : GivenTime) : Prop := ∃ t, g.dateTime? = some t ∧ t.isAware = true

/-- **The moment of UTC, cut to milliseconds.** -/
def truncate : GivenTime → Except Error Instant
  | .time t => t.truncate.mapError Error.time
  | .zoned t => t.dateTime.truncate.mapError Error.time
  | .other v => .error (.noMember v.kindName "astimezone")

/-- The timestamp of a given time. -/
def timestamp (g : GivenTime) : Except Error String := g.truncate.map Instant.timestamp

/-- The given time a duration later. -/
def add (g : GivenTime) (d : Duration) : Except Error GivenTime :=
  match g with
  | .time t => (t.add d).map GivenTime.time |>.mapError Error.time
  | .zoned t => (t.add d).map GivenTime.zoned |>.mapError Error.time
  | .other v => .error (.mismatch (.addDuration v.kindName))

/-- Whether a time comes after the given one. -/
def isBefore (g : GivenTime) (t : DateTime) : Except Error Bool :=
  match g with
  | .time s => (s.before t).mapError Error.time
  | .zoned s => (s.dateTime.before t).mapError Error.time
  | .other v => .error (.mismatch (.order ">" timeKindName v.kindName))

/-- Whether the given time, as the clock's reading, comes before a time. -/
def reads (now : GivenTime) (t : DateTime) : Except Error Bool :=
  match now with
  | .time s => (s.before t).mapError Error.time
  | .zoned s => (s.dateTime.before t).mapError Error.time
  | .other v => .error (.mismatch (.order "<" v.kindName timeKindName))

/-- The text of a given time: the full form of a time, the value itself otherwise. -/
def shown : GivenTime → Value
  | .time t => .text t.iso
  | .zoned t => .text t.dateTime.iso
  | .other v => v

section

-- where a given time is only looked at, its date and time are all that counts
variable {g : GivenTime} {t : DateTime} (h : g.dateTime? = some t)
include h

theorem isNone_dateTime : g.isNone = false := by
  cases g with
  | other v => cases h
  | _ => rfl

theorem truncate_dateTime : g.truncate = t.truncate.mapError Error.time := by
  cases g with
  | other v => cases h
  | _ =>
    cases h
    rfl

theorem isBefore_dateTime (u : DateTime) : g.isBefore u = (t.before u).mapError Error.time := by
  cases g with
  | other v => cases h
  | _ =>
    cases h
    rfl

theorem reads_dateTime (u : DateTime) : g.reads u = (t.before u).mapError Error.time := by
  cases g with
  | other v => cases h
  | _ =>
    cases h
    rfl

end

/-- A time that is given is a date and time, or it is a value of another kind. -/
theorem dateTime?_cases (g : GivenTime) : (∃ t, g.dateTime? = some t) ∨ ∃ v, g = .other v := by
  cases g with
  | other v => exact .inr ⟨v, rfl⟩
  | _ => exact .inl ⟨_, rfl⟩

@[simp] theorem truncate_moment (i : Instant) : (moment i).truncate = .ok i.truncate := by
  show (DateTime.utc i).truncate.mapError Error.time = .ok i.truncate
  rw [DateTime.truncate_utc]
  rfl

end GivenTime

/-! ## Durations -/

/-- A duration as it was given: exactly, or as a value that counts seconds. -/
inductive GivenDuration where
  | exact (d : Duration)
  | value (v : Value)
  deriving Repr, Inhabited

namespace GivenDuration

/-- **The duration that was given.** -/
def resolve : GivenDuration → Except Error Duration
  | .exact d => .ok d
  | .value (.real x) => (Duration.ofReal x).mapError Error.time
  | .value v => match v.asInt? with
    | some seconds => (Duration.ofSeconds seconds).mapError Error.time
    | Option.none => .error (.mismatch (.seconds v.kindName))

end GivenDuration
end Leasehold
