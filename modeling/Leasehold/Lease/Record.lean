/-
  Lease records: what a store keeps about a lock.

  A `LeaseRecord` says until when a lock is taken; when and by whom it was taken is kept for people who look
  into trouble.  Its times are moments of UTC.  A `RecordDraft` is a record as a caller makes it up, with times at any
  distance from UTC and to the microsecond; `settle` turns a draft into a record, its times cut to milliseconds.

  1. **`fields`** — a record as an object, the form it has in JSON and in stores;
  2. **`ofValue`** — the record that such an object spells, or the first thing wrong with it;
  3. **`isLocked`** — whether the lock is taken at a moment.
-/
import Leasehold.Time.Given
import Leasehold.Time.IsoReader
namespace Leasehold

/-- What a store keeps about a lock. -/
structure LeaseRecord where
  name : Value
  lockUntil : Instant
  lockedAt : Option Instant
  lockedBy : Value
  deriving Repr

/-- A record as a caller makes it up. -/
structure RecordDraft where
  name : Value
  lockUntil : DateTime
  lockedAt : Option DateTime
  lockedBy : Value
  deriving Repr

/-! ## The names of the fields -/

def nameKey : String := "_id"
def lockUntilKey : String := "lockUntil"
def lockedAtKey : String := "lockedAt"
def lockedByKey : String := "lockedBy"

namespace LeaseRecord

/-- **A record as an object.** -/
def fields (r : LeaseRecord) : List (String × Value) :=
  [(nameKey, r.name), (lockUntilKey, .text r.lockUntil.timestamp)]
    ++ (match r.lockedAt with | some t => [(lockedAtKey, .text t.timestamp)] | none => [])
    ++ (if r.lockedBy.isNull then [] else [(lockedByKey, r.lockedBy)])

def toValue (r : LeaseRecord) : Value := .object r.fields

/-- The moment that a field spells. -/
def readTime : Value → Except Error Instant
  | .text s => (Instant.ofTimestamp s).mapError Error.time
  | v => .error (.noMember v.kindName "endswith")

/-- The field that has to be there. -/
def required (key : String) (fields : List (String × Value)) : Except Error Value :=
  match Value.field? key fields with
  | some v => .ok v
  | none => .error (.missingKey key)

/-- The moment of a field that may be missing or blank. -/
def readOptionalTime (key : String) (fields : List (String × Value)) : Except Error (Option Instant) :=
  match Value.field? key fields with
  | some v => if v.truthy then (readTime v).map some else .ok none
  | none => .ok none

/-- The record that the fields of an object spell. -/
def ofFields (fields : List (String × Value)) : Except Error LeaseRecord := do
  let name ← required nameKey fields
  let lockUntil ← readTime (← required lockUntilKey fields)
  let lockedAt ← readOptionalTime lockedAtKey fields
  return { name, lockUntil, lockedAt, lockedBy := (Value.field? lockedByKey fields).getD .null }

/-- **The record that a value spells.** -/
def ofValue : Value → Except Error LeaseRecord
  | .object fields => ofFields fields
  | v => .error (.noMember v.kindName "get")

/-- Whether the lock is taken at a moment. -/
def isLocked (r : LeaseRecord) (now : GivenTime) : Except Error Bool := now.reads (.utc r.lockUntil)

/-- The short text of a record. -/
def shown (r : LeaseRecord) : String :=
  "LeaseRecord(" ++ r.name.display ++ ", until=" ++ r.lockUntil.timestamp ++ ", by=" ++ r.lockedBy.display ++ ")"

end LeaseRecord

namespace RecordDraft

/-- A record as a draft. -/
def ofRecord (r : LeaseRecord) : RecordDraft :=
  ⟨r.name, .utc r.lockUntil, r.lockedAt.map .utc, r.lockedBy⟩

/-- The moment of a time that may be missing, cut to milliseconds. -/
def truncate? : Option DateTime → Except Error (Option Instant)
  | some t => (t.truncate.mapError Error.time).map some
  | none => .ok none

/-- **The record of a draft**, its times cut to milliseconds. -/
def settle (d : RecordDraft) : Except Error LeaseRecord := do
  let lockUntil ← d.lockUntil.truncate.mapError Error.time
  let lockedAt ← truncate? d.lockedAt
  return { name := d.name, lockUntil, lockedAt, lockedBy := d.lockedBy }

/-- The short text of a draft; only the time that it shows has to be in the calendar. -/
def shown (d : RecordDraft) : Except Error String := do
  let lockUntil ← d.lockUntil.truncate.mapError Error.time
  return LeaseRecord.shown { name := d.name, lockUntil, lockedAt := none, lockedBy := d.lockedBy }

/-- Whether two times, either of which may be missing, are the same. -/
def sameTime : Option DateTime → Option DateTime → Bool
  | some s, some t => s.same t
  | none, none => true
  | _, _ => false

/-- Whether a draft comes back the same after it was written as an object and read again. -/
def survivesWriting (d : RecordDraft) : Except Error Bool := do
  let again ← LeaseRecord.ofFields (← d.settle).fields
  return (DateTime.utc again.lockUntil).same d.lockUntil && sameTime (again.lockedAt.map .utc) d.lockedAt

/-- Whether the lock is taken at a moment. -/
def isLocked (d : RecordDraft) (now : GivenTime) : Except Error Bool := now.reads d.lockUntil

end RecordDraft
end Leasehold
