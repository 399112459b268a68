/-
  The lease store over HTTP: the client of a lease node.

  A call is one request.  What comes back is told by a `Delivery`: the exchange broke down, or a response began and
  its body could be read as JSON or not.  A status of 200 brings a record, 409 an unmet condition, 404 no record, and any
  other status is a failure.  Nothing that comes back is trusted: a body that is no record is a failed call.

  Who answers is left open (`Party`): a node, or anybody else.
-/
import Leasehold.Http.Message
import Leasehold.Store.Contract
import Leasehold.Text.Percent
namespace Leasehold.Http

/-! ## The other party -/

/-- What comes of a request: nothing but a failure, or a response with a status and, perhaps, JSON. -/
inductive Delivery where
  | broken (e : Error)
  | response (status : Int) (data : Except Error Value)

/-- A request as the client makes it: the method, the whole URL, and the JSON it sends. -/
structure Call where
  method : String
  url : String
  payload : Option Value
  deriving Repr

/-- **The party that answers**, with states `ω`.  It sees sessions being opened and closed. -/
structure Party (ω : Type) where
  openSession : Value → ω → ω
  send : Call → World ω → World ω × Delivery
  closeSession : ω → ω

/-! ## The client -/

/-- A client. -/
structure Client where
  baseUrl : String
  timeout : Value
  isOpen : Bool
  requestsSent : Nat
  failedRequests : Nat
  deriving Repr

/-- A client together with the party it talks to. -/
structure HttpStore (ω : Type) where
  client : Client
  party : ω

namespace Client

/-- A base URL without the slashes at its end. -/
def trimUrl (url : String) : String :=
  String.ofList (url.toList.reverse.dropWhile (· = '/')).reverse

/-- A client that has not been used. -/
def make (url : String) (timeout : Value) : Client := ⟨trimUrl url, timeout, false, 0, 0⟩

def countSent (c : Client) : Client := { c with requestsSent := c.requestsSent + 1 }
def countFailed (c : Client) : Client := { c with failedRequests := c.failedRequests + 1 }

/-- The statistics of a client under the names they are shown by. -/
def stats (c : Client) : List (String × Value) :=
  [("requests_sent", .int c.requestsSent), ("failed_requests", .int c.failedRequests)]

end Client

namespace HttpStore

variable {ω : Type}

/-- Changes the client. -/
def onClient (f : Client → Client) (w : World (HttpStore ω)) : World (HttpStore ω) :=
  { w with store := { w.store with client := f w.store.client } }

/-! ## Requests -/

/-- Opens a session unless there is one. -/
def ensureOpen (P : Party ω) (w : World (HttpStore ω)) : World (HttpStore ω) :=
  if w.store.client.isOpen then w
  else
    let s := w.store
    ({ w with store :=
        { client := { s.client with isOpen := true }, party := P.openSession s.client.timeout s.party }
      } : World (HttpStore ω)).note .info ("HttpLeaseStore initialized for " ++ s.client.baseUrl)

/-- A call that failed: it is counted and noted if it is a timeout, a fault of the exchange or a malformed value. -/
def failCall (url : String) (e : Error) (w : World (HttpStore ω)) : World (HttpStore ω) × Error :=
  if e.isA .timeout || e.isA .client || e.isA .value then
    let failure := Error.callFailed (.http url) e
    ((onClient Client.countFailed w).note .warning failure.message, failure)
  else (w, e)

/-- **One request**: the status and the JSON that came back, or the failure. -/
def request (P : Party ω) (method path : String) (payload : Option Value) (w : World (HttpStore ω)) :
    World (HttpStore ω) × Except Error (Int × Value) :=
  let w := ensureOpen P w
  let url := w.store.client.baseUrl ++ path
  let (p, delivery) := P.send ⟨method, url, payload⟩ ⟨w.store.party, w.ledger⟩
  let w : World (HttpStore ω) := ⟨{ w.store with party := p.store }, p.ledger⟩
  match delivery with
  | .broken e => let (w, e) := failCall url e w; (w, .error e)
  | .response status data =>
    let w := onClient Client.countSent w
    match data with
    | .ok v => (w, .ok (status, v))
    | .error e => let (w, e) := failCall url e w; (w, .error e)

/-! ## What comes back -/

/-- The reason that a refusal names. -/
def reasonOf : Value → Value
  | .object fields => (Value.field? "error" fields).getD .null
  | v => v

/-- **The record in a response**, or what the response means instead. -/
def receive (name : Value) (status : Int) (data : Value) (w : World (HttpStore ω)) :
    World (HttpStore ω) × Except Error LeaseRecord :=
  if status = 200 then
    match LeaseRecord.ofValue data with
    | .ok record => (w, .ok record)
    | .error e =>
      if e.isDataFault then
        ((onClient Client.countFailed w).note .warning
          ("Malformed lease record for '" ++ name.display ++ "': " ++ data.literal),
          .error (.callFailed (.record name) e))
      else (w, .error e)
  else if status = 409 then (w, .error (.conditionNotMet name .store))
  else (onClient Client.countFailed w, .error (.refused status (reasonOf data)))

/-! ## The calls of a store -/

/-- A write. -/
def write (P : Party ω) (path : String) (name : Value) (payload : Except Error Value) (w : World (HttpStore ω)) :
    World (HttpStore ω) × Outcome LeaseRecord :=
  match payload with
  | .error e => (w, .failed e)
  | .ok payload =>
    match request P "POST" path (some payload) w with
    | (w, .error e) => (w, .failed e)
    | (w, .ok (status, data)) => let (w, r) := receive name status data w; (w, .ofExcept r)

/-- What an acquire sends. -/
def acquirePayload (r : AcquireRequest) : Except Error Value := do
  let lockUntil ← r.lockUntil.timestamp
  let lockedAt ← r.lockedAt.timestamp
  let availableAt ← r.availableAt.timestamp
  return .object
    [("name", r.name), ("lock_until", .text lockUntil), ("locked_at", .text lockedAt), ("locked_by", r.lockedBy),
     ("available_at", .text availableAt)]

/-- What a release sends. -/
def releasePayload (r : ReleaseRequest) : Except Error Value := do
  let lockUntil ← r.lockUntil.timestamp
  let plain := [("name", r.name), ("lock_until", Value.text lockUntil)]
  if r.heldUntil.isNone then return .object plain
  else return .object (plain ++ [("held_until", .text (← r.heldUntil.timestamp))])

/-- **Reads a record.**  Only a text can stand in a URL. -/
def read (P : Party ω) (name : Value) (w : World (HttpStore ω)) :
    World (HttpStore ω) × Outcome (Option LeaseRecord) :=
  match name with
  | .text s =>
    match request P "GET" ("/api/lease/" ++ Text.Percent.encode s) none w with
    | (w, .error e) => (w, .failed e)
    | (w, .ok (status, data)) =>
      if status = 404 then (w, .answered none)
      else let (w, r) := receive name status data w; (w, .ofExcept (r.map some))
  | _ => (w, .failed (.mismatch .urlText))

/-- The state that a node tells whose health is not answered with 200. -/
def healthOf : Value → Except Error Value
  | .object fields => .ok ((Value.field? "status" fields).getD (.text "unhealthy"))
  | v => .error (.noMember v.kindName "get")

/-- Looks whether the node is well; there is no table to create. -/
def checkHealth (P : Party ω) (w : World (HttpStore ω)) : World (HttpStore ω) × Outcome Unit :=
  match request P "GET" "/health" none w with
  | (w, .error e) => (w, .failed e)
  | (w, .ok (status, data)) =>
    if status = 200 then (w, .answered ())
    else match healthOf data with
      | .ok state => (w, .failed (.unhealthy state))
      | .error e => (w, .failed e)

/-- Closes the session if there is one. -/
def close (P : Party ω) (w : World (HttpStore ω)) : World (HttpStore ω) :=
  let s := w.store
  let closed : HttpStore ω :=
    if s.client.isOpen then { client := { s.client with isOpen := false }, party := P.closeSession s.party } else s
  ({ w with store := closed } : World (HttpStore ω)).note .info ("HttpLeaseStore closed for " ++ s.client.baseUrl)

/-- **The store over HTTP as a store of lease records.** -/
def store (P : Party ω) : LeaseStore (HttpStore ω) where
  tryUpdate r w := write P "/api/lease/acquire" r.name (acquirePayload r) w
  update r w := write P "/api/lease/update" r.name (releasePayload r) w
  get := read P
  createTable arguments w := match arguments with
    | [] => checkHealth P w
    | (name, _) :: _ => (w, .failed (.mismatch (.unexpectedArgument "HttpLeaseStore.create_lease_table" name)))
  close := close P

end HttpStore
end Leasehold.Http
