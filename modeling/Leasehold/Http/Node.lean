/-
  The lease node: a store in memory, served over HTTP.

  A request is read, carried out on the store, and answered:

  * 200 with the record for a write that was applied, and for a record that was asked for;
  * 409 for a condition that does not hold;
  * 400 for a body that is no JSON, has no name, or whose times cannot be read;
  * 413 for a body that is too long;
  * 404 for a record that is not there; 404 and 405 for what has no route;
  * 500 for everything else that goes wrong.

  Every answered request is counted, under its method and the path of its route.
-/
import Leasehold.Http.Message
import Leasehold.Http.Route
import Leasehold.Json.Writer
import Leasehold.Store.Memory
namespace Leasehold.Http

/-- How many requests for writes a node applied and rejected. -/
structure NodeStatistics where
  acquiresGranted : Nat
  acquiresRejected : Nat
  updatesApplied : Nat
  updatesRejected : Nat
  deriving DecidableEq, Repr

/-- **What the server under a node does with bodies**: which codecs it has besides those that are told here, and how much of a
body that is too long it has seen when it gives up, which depends on the pieces that the body comes in. -/
structure Server where
  codecs : Text.Codecs
  sizeSeen : List UInt8 → Nat

/-- A server is shown without its codecs. -/
instance : Repr Server := ⟨fun _ _ => "Server"⟩

/-- A server without other codecs, which sees a body as a whole. -/
def Server.usual : Server := ⟨.none, List.length⟩

/-- **A lease node.** -/
structure LeaseNode where
  id : Int
  host : String
  port : Int
  running : Bool
  memory : Memory
  statistics : NodeStatistics
  server : Server
  deriving Repr

namespace LeaseNode

/-- A node that does not run yet. -/
def make (id : Int) (host : String) (port : Int) (server : Server := .usual) : LeaseNode :=
  ⟨id, host, port, false, .empty, ⟨0, 0, 0, 0⟩, server⟩

def address (n : LeaseNode) : String := n.host ++ ":" ++ toString n.port

/-- The statistics of a node under the names they are shown by. -/
def stats (n : LeaseNode) : List (String × Value) :=
  [("acquires_granted", .int n.statistics.acquiresGranted),
   ("acquires_rejected", .int n.statistics.acquiresRejected),
   ("updates_applied", .int n.statistics.updatesApplied),
   ("updates_rejected", .int n.statistics.updatesRejected)]

/-! ## The node's life -/

/-- The entry of a node that was made. -/
def noteMade (n : LeaseNode) (ledger : Ledger) : Ledger :=
  ledger.note .info ("LeaseStoreNode " ++ toString n.id ++ " initialized at " ++ n.address)

/-- Starts a node. -/
def start (w : World LeaseNode) : World LeaseNode :=
  let n := w.store
  (({ w with store := { n with running := true } } : World LeaseNode).note .info
    ("Starting lease store node " ++ toString n.id ++ "...")).note .info
    ("Node " ++ toString n.id ++ " started successfully at http://" ++ n.address)

/-- Stops a node. -/
def stop (w : World LeaseNode) : World LeaseNode :=
  let n := w.store
  (({ w with store := { n with running := false } } : World LeaseNode).note .info
    ("Stopping node " ++ toString n.id ++ "...")).note .info ("Node " ++ toString n.id ++ " stopped")

/-! ## Answers -/

/-- An answer in JSON. -/
def json (status : Nat) (v : Value) : Response := ⟨status, jsonUtf8Type, none, .text v.write⟩

/-- An answer in words. -/
def plain (status : Nat) (text : String) : Response := ⟨status, plainUtf8Type, none, .text text⟩

/-- The answer to a request that went wrong inside. -/
def brokenAnswer : Response := plain 500 "500 Internal Server Error\n\nServer got itself in trouble"

/-- The answer to a body that cannot be used. -/
def badBody (fault : String) : Response := json 400 (.object [("error", .text fault)])

/-- The answer to a condition that does not hold. -/
def conflict (name : Value) : Response :=
  json 409 (.object [("error", .text "condition_not_met"), ("name", name)])

/-! ## Reading bodies -/

/-- Why a body cannot be used: it gets an answer of its own, or an error is raised that the handlers do not catch. -/
inductive BodyFault where
  | answer (r : Response)
  | broken

/-- Bodies of so many bytes, or more, are not read. -/
def bodyLimit : Nat := 1048576

/-- The answer to a body that is too long, of which so much was seen. -/
def tooLarge (size : Nat) : Response :=
  plain 413 ("Maximum request body size " ++ toString bodyLimit ++ " exceeded, actual body size " ++ toString size)

/-- The JSON of a body that a codec reads; the error of a body that is nested too deep is not caught. -/
def decodeBody (codec : Text.Codec) (body : List UInt8) : Except BodyFault Value :=
  match codec.decode body with
  | .error _ => .error (.answer (badBody "invalid_json"))
  | .ok cs => match Json.read cs with
    | .ok v => .ok v
    | .error fault =>
      if (Error.document fault).isA .value then .error (.answer (badBody "invalid_json")) else .error .broken

/-- The codec of a body: UTF-8, unless the content type names another. -/
def codecOf (others : Text.Codecs) (req : Request) : Option Text.Codec :=
  match charsetName? req.contentType with
  | none => some Text.Charset.utf8.codec
  | some name => (Text.Charset.lookup others name).codec?

/-- **The JSON of a body**, which must not be too long.  For an empty one no codec is looked up; for any other the error is not
caught if there is no codec by the name. -/
def bodyValue (server : Server) (req : Request) : Except BodyFault Value :=
  if bodyLimit ≤ req.body.length then .error (.answer (tooLarge (server.sizeSeen req.body)))
  else if req.body.isEmpty then .error (.answer (badBody "invalid_json"))
  else match codecOf server.codecs req with
    | some codec => decodeBody codec req.body
    | none => .error .broken

/-- The name and the fields of a body: an object with a name that is not blank. -/
def bodyFields (server : Server) (req : Request) : Except BodyFault (Value × List (String × Value)) := do
  match ← bodyValue server req with
  | .object fields =>
    match Value.field? "name" fields with
    | some name => if name.truthy then return (name, fields) else .error (.answer (badBody "name_required"))
    | none => .error (.answer (badBody "name_required"))
  | _ => .error (.answer (badBody "name_required"))

/-- A time that has to be among the fields. -/
def requiredTime (key : String) (fields : List (String × Value)) : Except Error Instant := do
  LeaseRecord.readTime (← LeaseRecord.required key fields)

/-- The acquire that the fields of a body ask for. -/
def acquireOf (name : Value) (fields : List (String × Value)) : Except Error (AcquireRequest × Instant) := do
  let lockUntil ← requiredTime "lock_until" fields
  let lockedAt ← requiredTime "locked_at" fields
  let availableAt ← match Value.field? "available_at" fields with
    | some v => LeaseRecord.readTime v
    | none => .ok lockedAt
  let lockedBy := ((Value.field? "locked_by" fields).getD (.text "")).display
  return (
    { name
      lockUntil := .moment lockUntil
      lockedAt := .moment lockedAt
      lockedBy := .text lockedBy
      availableAt := .moment availableAt }, lockUntil)

/-- The release that the fields of a body ask for. -/
def releaseOf (name : Value) (fields : List (String × Value)) : Except Error (ReleaseRequest × Instant) := do
  let lockUntil ← requiredTime "lock_until" fields
  let heldUntil ← LeaseRecord.readOptionalTime "held_until" fields
  return (
    { name
      lockUntil := .moment lockUntil
      heldUntil := match heldUntil with | some t => .moment t | none => .none }, lockUntil)

/-! ## Writes -/

/-- Does something on the node's store. -/
def onMemory {α : Type} (f : World Memory → World Memory × α) (w : World LeaseNode) : World LeaseNode × α :=
  let (m, a) := f ⟨w.store.memory, w.ledger⟩
  (⟨{ w.store with memory := m.store }, m.ledger⟩, a)

/-- The answer to a body that asked for nothing that can be done. -/
def refusal (e : Error) : Response :=
  if e.isDataFault then json 400 (.object [("error", .text ("invalid_request: " ++ e.message))]) else brokenAnswer

/-- Changes the statistics. -/
def tally (f : NodeStatistics → NodeStatistics) (w : World LeaseNode) : World LeaseNode :=
  { w with store := { w.store with statistics := f w.store.statistics } }

/-- Tells the gauge how many records there are. -/
def gauge (w : World LeaseNode) : World LeaseNode :=
  w.count fun m => { m with leaseRecords := w.store.memory.records.length }

/-- Answers a write: what is counted and noted when it is applied, and when it is rejected. -/
def answerWrite (name : Value) (applied rejected : World LeaseNode → World LeaseNode) (w : World LeaseNode) :
    Outcome LeaseRecord → World LeaseNode × Outcome Response
  | .answered record => (applied w, .answered (json 200 record.toValue))
  | .failed e =>
    if e.isA .conditionNotMet then (rejected w, .answered (conflict name)) else (w, .answered brokenAnswer)
  | .silent => (w, .silent)

/-- **Handles an acquire.** -/
def handleAcquire (req : Request) (w : World LeaseNode) : World LeaseNode × Outcome Response :=
  match bodyFields w.store.server req with
  | .error (.answer r) => (w, .answered r)
  | .error .broken => (w, .answered brokenAnswer)
  | .ok (name, fields) =>
    match acquireOf name fields with
    | .error e => (w, .answered (refusal e))
    | .ok (r, lockUntil) =>
      let (w, outcome) := onMemory (Memory.store.tryUpdate r) w
      answerWrite name
        (fun w => (gauge (tally (fun s => { s with acquiresGranted := s.acquiresGranted + 1 }) w)).note .info
          (r.lockedBy.display ++ " acquired '" ++ name.display ++ "' until " ++ lockUntil.timestamp))
        (fun w => (tally (fun s => { s with acquiresRejected := s.acquiresRejected + 1 }) w).note .debug
          ("Rejected acquire of '" ++ name.display ++ "' by " ++ r.lockedBy.display))
        w outcome

/-- **Handles an update.** -/
def handleUpdate (req : Request) (w : World LeaseNode) : World LeaseNode × Outcome Response :=
  match bodyFields w.store.server req with
  | .error (.answer r) => (w, .answered r)
  | .error .broken => (w, .answered brokenAnswer)
  | .ok (name, fields) =>
    match releaseOf name fields with
    | .error e => (w, .answered (refusal e))
    | .ok (r, lockUntil) =>
      let (w, outcome) := onMemory (Memory.store.update r) w
      answerWrite name
        (fun w => (gauge (tally (fun s => { s with updatesApplied := s.updatesApplied + 1 }) w)).note .info
          ("Updated '" ++ name.display ++ "' lockUntil to " ++ lockUntil.timestamp))
        (fun w => (tally (fun s => { s with updatesRejected := s.updatesRejected + 1 }) w).note .info
          ("Rejected update of '" ++ name.display ++ "', lease is no longer held"))
        w outcome

/-! ## Reads -/

/-- **Handles a read of a record.** -/
def handleRecord (name : String) (w : World LeaseNode) : World LeaseNode × Outcome Response :=
  let (w, outcome) := onMemory (Memory.store.get (.text name)) w
  (w, match outcome with
    | .answered (some record) => .answered (json 200 record.toValue)
    | .answered none => .answered (json 404 (.object [("error", .text "not_found"), ("name", .text name)]))
    | .failed _ => .answered brokenAnswer
    | .silent => .silent)

/-- The state of a node as an object. -/
def statusValue (n : LeaseNode) (locked : List Value) : Value :=
  .object
    [("node_id", .int n.id), ("address", .text n.address), ("running", .bool n.running),
     ("lease_records", .int n.memory.records.length), ("locked", .list locked),
     ("records", .object (n.memory.records.map fun (name, record) => (name.keyText, record.toValue))),
     ("statistics", .object n.stats)]

/-- Handles a look at the whole node. -/
def handleStatus (now : GivenTime) (w : World LeaseNode) : World LeaseNode × Outcome Response :=
  match w.store.memory.lockedNames now with
  | .ok locked => (w, .answered (json 200 (statusValue w.store locked)))
  | .error _ => (w, .answered brokenAnswer)

/-- Whether the node is well. -/
def healthAnswer (n : LeaseNode) : Response :=
  if n.running then json 200 (.object [("status", .text "healthy")])
  else json 503 (.object [("status", .text "unhealthy")])

/-- Handles a request that has a route. -/
def handleRoute (now : GivenTime) (req : Request) (w : World LeaseNode) : Route → World LeaseNode × Outcome Response
  | .acquire => handleAcquire req w
  | .update => handleUpdate req w
  | .record name => handleRecord name w
  | .status => handleStatus now w
  | .metrics => (w, .answered ⟨200, "text/plain", none, .metrics w.ledger.metrics.lines⟩)
  | .health => (w, .answered (healthAnswer w.store))

/-- An answer without its page, as HEAD gets it. -/
def headOnly (r : Response) : Response :=
  { r with page := match r.page with | .text _ => .text "" | .metrics _ => .metrics [] }

/-- Counts a request that is answered, and leaves out the page where only the head was asked for. -/
def finish (method path : String) (w : World LeaseNode) : Outcome Response → World LeaseNode × Outcome Response
  | .answered r => (w.count (·.countRequest method path), .answered (if method = "HEAD" then headOnly r else r))
  | o => (w, o)

/-- Finishing a request changes nothing of the node. -/
theorem finish_store (method path : String) (w : World LeaseNode) (o : Outcome Response) :
    (finish method path w o).1.store = w.store := by
  cases o <;> rfl

/-- **Handles a request**, at the clock's reading. -/
def handle (now : GivenTime) (req : Request) (w : World LeaseNode) : World LeaseNode × Outcome Response :=
  match destination req.method req.path with
  | .route r =>
    let (w, o) := handleRoute now req w r
    finish req.method r.path w o
  | .methodNotAllowed allowed =>
    finish req.method Route.unknownPath w
      (.answered { plain 405 "405: Method Not Allowed" with allow := some (",".intercalate allowed) })
  | .nowhere => finish req.method Route.unknownPath w (.answered (plain 404 "404: Not Found"))

end LeaseNode
end Leasehold.Http
