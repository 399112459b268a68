/-
  A Redis database, as far as lease records need one.

  A database maps keys to values of four types.  The commands on hashes fail on a key of another type; a hash that
  loses its last field is gone.  While there is an outage nobody can reach the database.

  The commands report what the server reports: how many fields, members or keys were new, gone or there.
-/
import Leasehold.Error
namespace Leasehold.Redis

/-- A value under a key. -/
inductive Datum where
  | hash (fields : List (String × String))
  | text (s : String)
  | list (items : List String)
  | set (members : List String)
  deriving DecidableEq, Repr

/-- A database, and the reason of the outage if there is one. -/
structure Database where
  entries : List (String × Datum)
  outage : Option String
  deriving DecidableEq, Repr

namespace Database

def empty : Database := ⟨[], none⟩

instance : Inhabited Database := ⟨empty⟩

/-! ## Association lists -/

/-- The value under a key. -/
def find? {α : Type} (key : String) (entries : List (String × α)) : Option α :=
  (entries.find? (·.1 == key)).map (·.2)

/-- Puts a value under a key: in its place if it has one, at the end if it is new. -/
def put {α : Type} (key : String) (v : α) : List (String × α) → List (String × α)
  | [] => [(key, v)]
  | (k, w) :: rest => if k == key then (k, v) :: rest else (k, w) :: put key v rest

/-- Takes a key away. -/
def drop {α : Type} (key : String) (entries : List (String × α)) : List (String × α) :=
  entries.filter (·.1 != key)

theorem find_put_self {α : Type} (key : String) (v : α) (entries : List (String × α)) :
    find? key (put key v entries) = some v := by
  induction entries with
  | nil => simp [put, find?]
  | cons e rest ih =>
    obtain ⟨k, w⟩ := e
    by_cases h : k == key
    · simp [put, find?, h]
    · simpa [put, find?, h] using ih

theorem find_put_other {α : Type} {key other : String} (h : other ≠ key) (v : α)
    (entries : List (String × α)) : find? other (put key v entries) = find? other entries := by
  induction entries with
  | nil => simp [put, find?, Ne.symm h]
  | cons e rest ih =>
    obtain ⟨k, w⟩ := e
    by_cases hk : k = key
    · subst hk; simp [put, find?, Ne.symm h]
    · by_cases ho : k = other
      · subst ho; simp [put, find?, hk]
      · simp only [find?] at ih
        simp [put, find?, hk, ho, ih]

/-! ## Commands on hashes -/

/-- The fields of the hash under a key; a missing key has none. -/
def fieldsOf (db : Database) (key : String) : Except ServerFault (List (String × String)) :=
  match find? key db.entries with
  | none => .ok []
  | some (.hash fields) => .ok fields
  | some _ => .error .wrongType

/-- The value of a field, if it is there. -/
def hget (db : Database) (key field : String) : Except ServerFault (Option String) :=
  (db.fieldsOf key).map (find? field)

/-- Sets fields, and tells how many of them were new. -/
def hset (db : Database) (key : String) (pairs : List (String × String)) : Except ServerFault (Database × Nat) :=
  (db.fieldsOf key).map fun fields =>
    let (all, new) := pairs.foldl
      (fun (acc : List (String × String) × Nat) p =>
        (put p.1 p.2 acc.1, if (find? p.1 acc.1).isSome then acc.2 else acc.2 + 1)) (fields, 0)
    ({ db with entries := put key (.hash all) db.entries }, new)

/-- All fields of a hash. -/
def hgetall (db : Database) (key : String) : Except ServerFault (List (String × String)) := db.fieldsOf key

/-- Takes fields away, and tells how many were there. -/
def hdel (db : Database) (key : String) (names : List String) : Except ServerFault (Database × Nat) :=
  (db.fieldsOf key).map fun fields =>
    let left := fields.filter fun f => !(names.contains f.1)
    let entries := if left.isEmpty then drop key db.entries else put key (.hash left) db.entries
    ({ db with entries }, fields.length - left.length)

/-! ## Commands on keys of other types -/

/-- Takes keys away, and tells how many were there. -/
def del (db : Database) (keys : List String) : Database × Nat :=
  let left := db.entries.filter fun e => !(keys.contains e.1)
  ({ db with entries := left }, db.entries.length - left.length)

/-- How many of the keys are there. -/
def countKeys (db : Database) (keys : List String) : Nat :=
  (keys.filter fun k => (find? k db.entries).isSome).length

/-- Adds items to the end of a list, and tells its new length. -/
def rpush (db : Database) (key : String) (items : List String) : Except ServerFault (Database × Nat) :=
  let extend (old : List String) : Database × Nat :=
    ({ db with entries := put key (.list (old ++ items)) db.entries }, (old ++ items).length)
  match find? key db.entries with
  | none => .ok (extend [])
  | some (.list old) => .ok (extend old)
  | some _ => .error .wrongType

/-- Adds members to a set, and tells how many were new. -/
def sadd (db : Database) (key : String) (members : List String) : Except ServerFault (Database × Nat) :=
  let extend (old : List String) : Database × Nat :=
    let all := members.foldl (fun acc m => if acc.contains m then acc else acc ++ [m]) old
    ({ db with entries := put key (.set all) db.entries }, all.length - old.length)
  match find? key db.entries with
  | none => .ok (extend [])
  | some (.set old) => .ok (extend old)
  | some _ => .error .wrongType

/-- Puts a text under a key, whatever stood there. -/
def set (db : Database) (key value : String) : Database :=
  { db with entries := put key (.text value) db.entries }

/-- The hashes of a database. -/
def hashes (db : Database) : List (String × List (String × String)) :=
  db.entries.filterMap fun e => match e.2 with
    | .hash fields => some (e.1, fields)
    | _ => none

/-! ## Commands as they are sent -/

/-- A value as it is sent: texts and numbers only. -/
def argument : Value → Except ServerFault String
  | .text s => .ok s
  | .int i => .ok (toString i)
  | .real x => .ok x.toText
  | v => .error (.badArgument v.kindName)

/-- The words of a command as pairs. -/
def pairs? : List String → Option (List (String × String))
  | [] => some []
  | [_] => none
  | a :: b :: rest => (pairs? rest).map ((a, b) :: ·)

/-- Carries out a command whose first word is in capitals; a number or the word true comes back. -/
def runCapital (db : Database) : List String → Except ServerFault (Database × Value)
  | ["SET", key, value] => .ok (db.set key value, .bool true)
  | "HSET" :: key :: rest => match rest, pairs? rest with
    | _ :: _, some pairs => (db.hset key pairs).map fun (db, n) => (db, .int n)
    | _, _ => .error (.arity "hset")
  | "HDEL" :: key :: name :: names => (db.hdel key (name :: names)).map fun (db, n) => (db, .int n)
  | "DEL" :: key :: keys => let (db, n) := db.del (key :: keys); .ok (db, .int n)
  | "EXISTS" :: key :: keys => .ok (db, .int (db.countKeys (key :: keys)))
  | "RPUSH" :: key :: item :: items => (db.rpush key (item :: items)).map fun (db, n) => (db, .int n)
  | "SADD" :: key :: member :: members => (db.sadd key (member :: members)).map fun (db, n) => (db, .int n)
  | word :: _ => .error (.arity word.toLower)
  | [] => .error (.arity "")

/-- **Carries out a command**, its first word in letters of any case. -/
def runWords (db : Database) : List String → Except ServerFault (Database × Value)
  | word :: rest => db.runCapital (word.toUpper :: rest)
  | [] => db.runCapital []

end Database
end Leasehold.Redis
