/-
  What every store of lease records has to do.

  A store holds one record per name and offers two conditional writes and a read:

  * **`tryUpdate`** writes a whole record if there is none for the name, or the one there is has run out;
  * **`update`** moves the end of a record, if the record still ends when the caller believes it does;
  * **`get`** reads.

  Nobody reads a record in order to write it: both conditions are checked by the store, at the moment of the write.
  A call is answered, or fails, or is never answered at all (`Outcome`).  A store works inside a `World`, where it
  keeps its own state and reports to the ledger of the process.

  `Decision.forAcquire` and `Decision.forRelease` are the two conditions, told of a single record: every store
  comes down to them.
-/
import Leasehold.Lease.Record
import Leasehold.Report.Ledger
namespace Leasehold

/-! ## Calls -/

/-- What an acquire asks of a store. -/
structure AcquireRequest where
  name : Value
  lockUntil : GivenTime
  lockedAt : GivenTime
  lockedBy : Value
  availableAt : GivenTime
  deriving Repr

/-- What a release asks of a store.  Without `heldUntil` it asks unconditionally. -/
structure ReleaseRequest where
  name : Value
  lockUntil : GivenTime
  heldUntil : GivenTime
  deriving Repr

/-- How a call ends: with an answer, with a failure, or never. -/
inductive Outcome (α : Type) where
  | answered (a : α)
  | failed (e : Error)
  | silent
  deriving Repr

namespace Outcome

/-- The outcome of a call that ends. -/
def ofExcept {α : Type} : Except Error α → Outcome α
  | .ok a => .answered a
  | .error e => .failed e

/-- The outcome as its caller sees it when the caller gives up waiting with a failure. -/
def orElse {α : Type} (giveUp : Error) : Outcome α → Except Error α
  | .answered a => .ok a
  | .failed e => .error e
  | .silent => .error giveUp

def map {α β : Type} (f : α → β) : Outcome α → Outcome β
  | .answered a => .answered (f a)
  | .failed e => .failed e
  | .silent => .silent

end Outcome

/-- A store's state with the ledger of its process. -/
structure World (σ : Type) where
  store : σ
  ledger : Ledger

namespace World

variable {σ : Type}

/-- Adds an entry to the journal. -/
def note (level : Level) (text : String) (w : World σ) : World σ :=
  { w with ledger := w.ledger.note level text }

/-- Counts something. -/
def count (f : Metrics → Metrics) (w : World σ) : World σ := { w with ledger := w.ledger.count f }

@[simp] theorem store_note (level : Level) (text : String) (w : World σ) : (w.note level text).store = w.store := rfl

@[simp] theorem store_count (f : Metrics → Metrics) (w : World σ) : (w.count f).store = w.store := rfl

end World

/-- **A store of lease records** with states `σ`. -/
structure LeaseStore (σ : Type) where
  tryUpdate : AcquireRequest → World σ → World σ × Outcome LeaseRecord
  update : ReleaseRequest → World σ → World σ × Outcome LeaseRecord
  get : Value → World σ → World σ × Outcome (Option LeaseRecord)
  createTable : List (String × Value) → World σ → World σ × Outcome Unit
  close : World σ → World σ

/-! ## The two conditions -/

/-- What becomes of a conditional write. -/
inductive Decision where
  | rejected
  | written (record : LeaseRecord)
  deriving Repr

namespace Decision

/-- **An acquire** is written if there is no record, or its end does not lie after the time of the request. -/
def forAcquire (existing : Option LeaseRecord) (r : AcquireRequest) : Except Error Decision := do
  let taken ← match existing with
    | some record => r.availableAt.isBefore (.utc record.lockUntil)
    | none => .ok false
  if taken then return .rejected
  else
    let lockUntil ← r.lockUntil.truncate
    let lockedAt ← r.lockedAt.truncate
    return .written { name := r.name, lockUntil, lockedAt := some lockedAt, lockedBy := r.lockedBy }

/-- Whether a release may write: its condition names the very end that the record has. -/
def mayRelease (existing : Option LeaseRecord) (heldUntil : GivenTime) : Except Error Bool :=
  if heldUntil.isNone then .ok true
  else match existing with
    | none => .ok false
    | some record => heldUntil.truncate.map fun held => record.lockUntil = held

/-- **A release** moves the end of the record; who took the lock, and when, stays. -/
def forRelease (existing : Option LeaseRecord) (r : ReleaseRequest) : Except Error Decision := do
  if ← mayRelease existing r.heldUntil then
    let lockUntil ← r.lockUntil.truncate
    return .written
      { name := r.name
        lockUntil
        lockedAt := existing.bind (·.lockedAt)
        lockedBy := (existing.map (·.lockedBy)).getD .null }
  else return .rejected

end Decision
end Leasehold
