/-
  The lease store on Redis.

  Every lock has a hash of its own, under a prefix and its name; times are kept as timestamps.  The two conditional
  writes are scripts, so that the server checks and writes in one step.

  The store keeps its connection from call to call, and makes one when it has none.  An outage is noticed when a
  connection has to be made or a command is sent, not before: words that cannot be sent are told first where there
  is a connection.
-/
import Leasehold.Redis.Scripts
import Leasehold.Store.Contract
namespace Leasehold.Redis

/-- A store on Redis: the database, the prefix of its keys, and whether there is a connection. -/
structure RedisStore where
  database : Database
  keyPrefix : String
  isConnected : Bool
  deriving Repr

namespace RedisStore

/-- The key of a lock's hash. -/
def key (s : RedisStore) (name : Value) : String := s.keyPrefix ++ name.display

/-- The record of a lock from the fields of its hash. -/
def toRecord (name : Value) (fields : List (String × String)) : Except Error LeaseRecord :=
  let values := fields.foldl (fun acc f => Value.putField f.1 (.text f.2) acc) []
  LeaseRecord.ofFields (Value.putField nameKey name values)

/-- **A call on the server** with words to send.  During an outage the call fails, and the connection is lost. -/
def call {α ω : Type} (s : RedisStore) (words : Except ServerFault ω)
    (work : ω → Database → Except ServerFault (Database × α)) : RedisStore × Except ServerFault α :=
  match s.database.outage, s.isConnected, words with
  | some reason, false, _ => (s, .error (.down reason))
  | _, _, .error fault => ({ s with isConnected := true }, .error fault)
  | some reason, true, .ok _ => ({ s with isConnected := false }, .error (.down reason))
  | none, _, .ok sent => match work sent s.database with
    | .ok (database, a) => ({ s with database, isConnected := true }, .ok a)
    | .error fault => ({ s with isConnected := true }, .error fault)

/-- What the store makes of a script's answer. -/
def settle (name : Value) : ScriptAnswer → Except Error LeaseRecord
  | none => .error (.conditionNotMet name .store)
  | some fields => toRecord name fields

/-- A failed call as the store tells it. -/
def failure (fault : ServerFault) : Error := .callFailed .server (.server fault)

/-- A conditional write: the script, the journal if the call fails, and the record. -/
def write {ω : Type} (activity : String) (name : Value) (words : Except ServerFault ω)
    (work : ω → Database → Except ServerFault (Database × ScriptAnswer)) (w : World RedisStore) :
    World RedisStore × Outcome LeaseRecord :=
  match w.store.call words work with
  | (s, .ok answer) => ({ w with store := s }, .ofExcept (settle name answer))
  | (s, .error fault) =>
    (({ w with store := s } : World RedisStore).note .warning
      ("Redis error " ++ activity ++ " '" ++ name.display ++ "': " ++ fault.message), .failed (failure fault))

/-- The words of an acquire, its times written as timestamps; who asks for the lock is encoded by the call. -/
def acquireTimes (r : AcquireRequest) : Except Error (String × String × String) := do
  return (← r.lockUntil.timestamp, ← r.lockedAt.timestamp, ← r.availableAt.timestamp)

/-- **An acquire.** -/
def acquire (r : AcquireRequest) (w : World RedisStore) : World RedisStore × Outcome LeaseRecord :=
  match acquireTimes r with
  | .error e => (w, .failed e)
  | .ok (lockUntil, lockedAt, availableAt) =>
    write "acquiring" r.name
      ((Database.argument r.lockedBy).map fun lockedBy => { lockUntil, lockedAt, lockedBy, availableAt })
      (acquireScript (w.store.key r.name)) w

/-- The words of a release: the text of its condition, empty if there is none, and the new end. -/
def releaseTimes (r : ReleaseRequest) : Except Error (String × String) := do
  let held ← if r.heldUntil.isNone then .ok "" else r.heldUntil.timestamp
  return (held, ← r.lockUntil.timestamp)

/-- **A release.** -/
def release (r : ReleaseRequest) (w : World RedisStore) : World RedisStore × Outcome LeaseRecord :=
  match releaseTimes r with
  | .error e => (w, .failed e)
  | .ok (heldUntil, lockUntil) =>
    write "releasing" r.name (.ok ()) (fun _ => releaseScript (w.store.key r.name) lockUntil heldUntil) w

/-- The record that a hash holds; none if the hash has no end of a record. -/
def recordOf (name : Value) (fields : List (String × String)) : Except Error (Option LeaseRecord) :=
  if fields.any (·.1 == lockUntilKey) then (toRecord name fields).map some else .ok none

/-- **Reads a record.** -/
def read (name : Value) (w : World RedisStore) : World RedisStore × Outcome (Option LeaseRecord) :=
  match w.store.call (.ok ()) (fun _ db => (db.hgetall (w.store.key name)).map (db, ·)) with
  | (s, .ok fields) => ({ w with store := s }, .ofExcept (recordOf name fields))
  | (s, .error fault) => ({ w with store := s }, .failed (failure fault))

/-- Looks whether the server is there; hashes need no table. -/
def ping (w : World RedisStore) : World RedisStore × Outcome Unit :=
  match w.store.call (.ok ()) (fun _ db => .ok (db, ())) with
  | (s, .ok ()) => (({ w with store := s } : World RedisStore).note .info "Connected to Redis successfully", .answered ())
  | (s, .error fault) => ({ w with store := s }, .failed (.callFailed .serverConnection (.server fault)))

/-- A command as it is typed in. -/
def command (words : List Value) (s : RedisStore) : RedisStore × Except ServerFault Value :=
  s.call (words.mapM Database.argument) fun words db => db.runWords words

/-- **The store on Redis as a store of lease records.** -/
def store : LeaseStore RedisStore where
  tryUpdate := acquire
  update := release
  get := read
  createTable arguments w := match arguments with
    | [] => ping w
    | (name, _) :: _ => (w, .failed (.mismatch (.unexpectedArgument "RedisLeaseStore.create_lease_table" name)))
  close w := { w with store := { w.store with isConnected := false } }

end RedisStore
end Leasehold.Redis
