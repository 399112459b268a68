/-
  The lease store on a table.

  Every lock has an item of its own; times are kept as timestamps.  An acquire is an update under the condition
  that the item has no end of a record, or one that does not lie after the time of the request; a release is one
  under the condition that the end is the one the caller holds.

  What the service answers is data from outside: `toRecord` and `recordOf` take nothing for granted about it.
-/
import Leasehold.Dynamo.Service
import Leasehold.Store.Contract
namespace Leasehold.Dynamo

/-- A store on a table: the service, the table's name, and the capacities it is created with. -/
structure DynamoStore where
  service : Service
  table : String
  readCapacity : Int
  writeCapacity : Int
  deriving Repr

namespace DynamoStore

/-! ## Reading what the service answers -/

/-- The field of an answer that has to be there. -/
def answerField (key : String) : Value → Except Error Value
  | .object fields => match Value.field? key fields with
    | some v => .ok v
    | none => .error (.missingKey key)
  | v => .error (.mismatch (.fieldOf v.kindName))

/-- Whether a value holds a text: as a key, as a part, or as an item. -/
def holdsText (text : String) : Value → Except Error Bool
  | .object fields => .ok ((Value.field? text fields).isSome)
  | .text s => .ok ((s.splitOn text).length > 1)
  | .list items => .ok (items.any fun v => v.sameKey (.text text))
  | v => .error (.mismatch (.membership v.kindName))

/-- The texts among the attributes. -/
def textsOf : List (String × Value) → Except Error (List (String × Value))
  | [] => .ok []
  | (key, v) :: rest => do
    if ← holdsText "S" v then
      let text ← answerField "S" v
      return (key, text) :: (← textsOf rest)
    else textsOf rest

/-- The record that the attributes of an item spell. -/
def toRecord (name : Value) : Value → Except Error LeaseRecord
  | .object attributes => do
    let fields ← textsOf attributes
    LeaseRecord.ofFields (Value.putField nameKey name fields)
  | v => .error (.noMember v.kindName "items")

/-- The record in the answer to an update. -/
def updatedRecord (name answer : Value) : Except Error LeaseRecord := do
  toRecord name (← answerField "Attributes" answer)

/-- The record in the answer to a read, if the item is there and has an end of a record. -/
def recordOf (name : Value) : Value → Except Error (Option LeaseRecord)
  | .object fields => do
    let item := (Value.field? "Item" fields).getD .null
    if !item.truthy then return none
    else if !(← holdsText lockUntilKey item) then return none
    else return some (← toRecord name item)
  | v => .error (.noMember v.kindName "get")

/-! ## Calls -/

/-- A failed call as the store tells it. -/
def failure (call : Call) (fault : TableFault) : Error :=
  match fault with
  | .rejected (.text code) _ _ =>
    if code = Service.conditionCode then .conditionNotMet call.itemName .service
    else .callFailed (.table call.operation) (.table fault)
  | _ => .callFailed (.table call.operation) (.table fault)

/-- **A call on the service**; a failure that is no unmet condition goes to the journal. -/
def call (c : Call) (w : World DynamoStore) : World DynamoStore × Except Error Value :=
  let (service, result) := w.store.service.perform c
  let w := { w with store := { w.store with service } }
  match result with
  | .ok v => (w, .ok v)
  | .error (.table fault) =>
    let e := failure c fault
    if e.isA .conditionNotMet then (w, .error e) else (w.note .warning e.message, .error e)
  | .error e => (w, .error e)

/-- The update of an acquire. -/
def acquireUpdate (r : AcquireRequest) : Except Error UpdateCall := do
  let lockUntil ← r.lockUntil.timestamp
  let lockedAt ← r.lockedAt.timestamp
  let availableAt ← r.availableAt.timestamp
  return {
    name := r.name
    assignments := [("lockUntil", ":lockUntil"), ("lockedAt", ":lockedAt"), ("lockedBy", ":lockedBy")]
    condition := some (.either (.atMost "lockUntil" ":availableAt") (.missing "lockUntil"))
    values := [(":lockUntil", typed (.text lockUntil)), (":lockedAt", typed (.text lockedAt)),
      (":lockedBy", typed r.lockedBy), (":availableAt", typed (.text availableAt))] }

/-- The update of a release. -/
def releaseUpdate (r : ReleaseRequest) : Except Error UpdateCall := do
  let lockUntil ← r.lockUntil.timestamp
  let plain : UpdateCall :=
    { name := r.name
      assignments := [("lockUntil", ":lockUntil")]
      condition := none
      values := [(":lockUntil", typed (.text lockUntil))] }
  if r.heldUntil.isNone then return plain
  else
    let heldUntil ← r.heldUntil.timestamp
    return { plain with
      condition := some (.equals "lockUntil" ":heldUntil")
      values := plain.values ++ [(":heldUntil", typed (.text heldUntil))] }

/-- A conditional write. -/
def write (update : Except Error UpdateCall) (w : World DynamoStore) : World DynamoStore × Outcome LeaseRecord :=
  match update with
  | .error e => (w, .failed e)
  | .ok u =>
    let (w, answer) := call (.updateItem w.store.table u) w
    (w, .ofExcept (do updatedRecord u.name (← answer)))

/-- **Reads a record.** -/
def read (name : Value) (w : World DynamoStore) : World DynamoStore × Outcome (Option LeaseRecord) :=
  let (w, answer) := call (.getItem w.store.table name) w
  (w, .ofExcept (do recordOf name (← answer)))

/-! ## The table itself -/

/-- The arguments that creating a table knows. -/
def createArguments : List String := ["read_capacity", "write_capacity", "wait"]

/-- An argument that was given and is not blank, or a number in its place. -/
def capacity (name : String) (arguments : List (String × Value)) (other : Int) : Value :=
  match Value.field? name arguments with
  | some v => if v.truthy then v else .int other
  | none => .int other

/-- Waits until the table is there; what goes wrong then is told as it is. -/
def awaitTable (w : World DynamoStore) : World DynamoStore × Outcome Unit :=
  let (service, result) := w.store.service.perform (.awaitTable w.store.table)
  ({ w with store := { w.store with service } }, .ofExcept (result.map fun _ => ()))

/-- **Creates the table**, and waits for it if asked to. -/
def createTable (arguments : List (String × Value)) (w : World DynamoStore) : World DynamoStore × Outcome Unit :=
  match arguments.find? fun a => !(createArguments.contains a.1) with
  | some (name, _) => (w, .failed (.mismatch (.unexpectedArgument "DynamoDBLeaseStore.create_lease_table" name)))
  | none =>
    let c := Call.createTable w.store.table (capacity "read_capacity" arguments w.store.readCapacity)
      (capacity "write_capacity" arguments w.store.writeCapacity)
    match call c w with
    | (w, .error e) => (w, .failed e)
    | (w, .ok _) =>
      let w := w.note .info ("Created lease table " ++ w.store.table)
      if ((Value.field? "wait" arguments).getD .null).truthy then awaitTable w else (w, .answered ())

/-- Deletes the table. -/
def deleteTable (w : World DynamoStore) : World DynamoStore × Outcome Unit :=
  match call (.deleteTable w.store.table) w with
  | (w, .error e) => (w, .failed e)
  | (w, .ok _) => (w.note .info ("Deleted lease table " ++ w.store.table), .answered ())

/-- **The store on a table as a store of lease records.** -/
def store : LeaseStore DynamoStore where
  tryUpdate r w := write (acquireUpdate r) w
  update r w := write (releaseUpdate r) w
  get := read
  createTable := createTable
  close w := w

end DynamoStore
end Leasehold.Dynamo
