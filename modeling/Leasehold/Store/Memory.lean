/-
  The store in memory.

  It keeps its records in the order in which their names first came, and every conditional write is one step.  For
  trying out trouble it can be told to let the next requests hang or fail: a request that hangs is never
  answered, one that fails has changed nothing.  Hanging is looked at first.
-/
import Leasehold.Store.Contract
namespace Leasehold

/-- A store in memory. -/
structure Memory where
  records : List (Value × LeaseRecord)
  hanging : Int
  failing : Int
  writesApplied : Nat
  conditionsFailed : Nat
  deriving Repr

namespace Memory

/-- No records, and no trouble ahead. -/
def empty : Memory := ⟨[], 0, 0, 0, 0⟩

instance : Inhabited Memory := ⟨empty⟩

/-! ## Records by name -/

/-- The record of a name. -/
def find? (m : Memory) (name : Value) : Option LeaseRecord :=
  (m.records.find? (·.1.sameKey name)).map (·.2)

/-- The record of a name, which has to be able to name something. -/
def lookup (m : Memory) (name : Value) : Except Error (Option LeaseRecord) :=
  if name.isKey then .ok (m.find? name) else .error (.mismatch (.key name.kindName))

/-- Puts a record in the place of its name, or at the end. -/
def putRecord (name : Value) (record : LeaseRecord) : List (Value × LeaseRecord) → List (Value × LeaseRecord)
  | [] => [(name, record)]
  | (k, r) :: rest => if k.sameKey name then (k, record) :: rest else (k, r) :: putRecord name record rest

/-- The names whose locks are taken at a moment. -/
def lockedNames (m : Memory) (now : GivenTime) : Except Error (List Value) := do
  let flags ← m.records.mapM fun (name, record) => (record.isLocked now).map fun b => (name, b)
  return (flags.filter (·.2)).map (·.1)

/-! ## Trouble -/

/-- What happens to a request on its way. -/
inductive Passage where
  | through
  | lost
  | stuck
  deriving DecidableEq, Repr

/-- **The way of the next request**, and the trouble that is left after it. -/
def pass (m : Memory) : Memory × Passage :=
  if m.hanging ≠ 0 then ({ m with hanging := m.hanging - 1 }, .stuck)
  else if m.failing ≠ 0 then ({ m with failing := m.failing - 1 }, .lost)
  else (m, .through)

/-- Lets the next requests fail. -/
def failNext (m : Memory) (count : Int) : Memory := { m with failing := m.failing + count }

/-- Lets the next requests hang. -/
def hangNext (m : Memory) (count : Int) : Memory := { m with hanging := m.hanging + count }

/-! ## The writes -/

/-- Carries a decision out. -/
def apply (m : Memory) (name : Value) : Except Error Decision → Memory × Except Error LeaseRecord
  | .error e => (m, .error e)
  | .ok .rejected => ({ m with conditionsFailed := m.conditionsFailed + 1 }, .error (.conditionNotMet name .store))
  | .ok (.written record) =>
    ({ m with records := putRecord name record m.records, writesApplied := m.writesApplied + 1 }, .ok record)

/-- **The conditional write of an acquire.** -/
def writeAcquire (m : Memory) (r : AcquireRequest) : Memory × Except Error LeaseRecord :=
  m.apply r.name do Decision.forAcquire (← m.lookup r.name) r

/-- **The conditional write of a release.** -/
def writeRelease (m : Memory) (r : ReleaseRequest) : Memory × Except Error LeaseRecord :=
  m.apply r.name do Decision.forRelease (← m.lookup r.name) r

/-! ## The store -/

/-- Sends a request on its way; what gets through does its work. -/
def transport {α : Type} (work : Memory → Memory × Except Error α) (m : Memory) : Memory × Outcome α :=
  match m.pass with
  | (m, .stuck) => (m, .silent)
  | (m, .lost) => (m, .failed .injected)
  | (m, .through) => let (m, r) := work m; (m, .ofExcept r)

/-- The journal of a write that was applied. -/
def noteApplied (o : Outcome LeaseRecord) (ledger : Ledger) : Ledger :=
  match o with
  | .answered record => ledger.note .debug ("Applied " ++ record.shown)
  | _ => ledger

/-- A write in the world: the request on its way, the write, and the journal. -/
def write (work : Memory → Memory × Except Error LeaseRecord) (w : World Memory) :
    World Memory × Outcome LeaseRecord :=
  let (m, o) := w.store.transport work
  (⟨m, noteApplied o w.ledger⟩, o)

/-- Reads a record. -/
def read (name : Value) (w : World Memory) : World Memory × Outcome (Option LeaseRecord) :=
  let (m, o) := w.store.transport fun m => (m, m.lookup name)
  ({ w with store := m }, o)

/-- A table is created without any arguments, and there is nothing to do for it. -/
def createNothing (function : String) (arguments : List (String × Value)) : Outcome Unit :=
  match arguments with
  | [] => .answered ()
  | (name, _) :: _ => .failed (.mismatch (.unexpectedArgument function name))

/-- **The store in memory as a store of lease records.** -/
def store : LeaseStore Memory where
  tryUpdate r w := write (·.writeAcquire r) w
  update r w := write (·.writeRelease r) w
  get name w := read name w
  createTable arguments w := (w, createNothing "LeaseStore.create_lease_table" arguments)
  close w := w

end Memory
end Leasehold
