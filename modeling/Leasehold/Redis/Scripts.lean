/-
  The two scripts of the lease store on Redis.

  A script runs as one step of the server: it reads the end of the record, checks its condition, and either
  changes nothing and answers nothing, or sets fields and answers with all of them.

  Ends of records are compared as TEXTS, character by character.  Between timestamps of one width that is the
  order of time.
-/
import Leasehold.Redis.Database
namespace Leasehold.Redis

/-- Whether one text comes before another, character by character. -/
def textBefore (s t : String) : Bool := decide (s < t)

/-- What a script answers: nothing, or all the fields of the hash. -/
abbrev ScriptAnswer := Option (List (String × String))

/-- The values that an acquire sends. -/
structure AcquireWords where
  lockUntil : String
  lockedAt : String
  lockedBy : String
  availableAt : String
  deriving DecidableEq, Repr

/-- **The script of an acquire**: it writes unless the record ends after the time of the request. -/
def acquireScript (key : String) (words : AcquireWords) (db : Database) :
    Except ServerFault (Database × ScriptAnswer) := do
  let current ← db.hget key "lockUntil"
  if current.any (textBefore words.availableAt) then return (db, none)
  else
    let (db, _) ← db.hset key
      [("lockUntil", words.lockUntil), ("lockedAt", words.lockedAt), ("lockedBy", words.lockedBy)]
    return (db, some (← db.hgetall key))

/-- **The script of a release**: it writes only if the record ends at the text `heldUntil`; the empty text stands for
no condition. -/
def releaseScript (key lockUntil heldUntil : String) (db : Database) : Except ServerFault (Database × ScriptAnswer) := do
  let current ← db.hget key "lockUntil"
  if heldUntil ≠ "" ∧ current ≠ some heldUntil then return (db, none)
  else
    let (db, _) ← db.hset key [("lockUntil", lockUntil)]
    return (db, some (← db.hgetall key))

end Leasehold.Redis
