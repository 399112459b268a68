/-
  The routes of a lease node.

  Five paths are fixed, and `/api/lease/` with one more segment stands for a record.  The two that take writes
  take them by POST only; read by GET, their last segments are names of records like any other.  Where GET is
  allowed so is HEAD.
-/
import Leasehold.Text.Percent
namespace Leasehold.Http

/-- A route. -/
inductive Route where
  | acquire
  | update
  | record (name : String)
  | status
  | metrics
  | health
  deriving DecidableEq, Repr

namespace Route

/-- The path of a route, as it is counted. -/
def path : Route → String
  | acquire => "/api/lease/acquire"
  | update => "/api/lease/update"
  | record _ => "/api/lease/\x7bname\x7d"
  | status => "/api/status"
  | metrics => "/api/metrics"
  | health => "/health"

/-- The methods that a route takes. -/
def methods : Route → List String
  | acquire => ["POST"]
  | update => ["POST"]
  | _ => ["GET", "HEAD"]

/-- The path that counts when there is no route. -/
def unknownPath : String := "unknown"

end Route

/-- The path of a request's target, without its query. -/
def pathOf (target : String) : List Char :=
  target.toList.takeWhile fun c => c ≠ '?' && c ≠ '#'

/-- The front of the paths of records. -/
def recordFront : List Char := "/api/lease/".toList

/-- The name in the path of a record: one segment, not empty, and without braces. -/
def recordName? (path : List Char) : Option String :=
  if recordFront.isPrefixOf path then
    let segment := path.drop recordFront.length
    if segment.isEmpty || segment.any fun c => c = '/' || c = '\x7b' || c = '\x7d' then none
    else some (String.ofList (Text.Percent.unwrap segment))
  else none

/-- **The routes that a target reaches**, whatever the method. -/
def routesOf (target : String) : List Route :=
  let path := Text.Percent.decodeSafe (pathOf target)
  let fixed := [Route.acquire, .update, .status, .metrics, .health].filter fun r => r.path.toList = path
  fixed ++ ((recordName? path).map Route.record).toList

/-- Where a request goes. -/
inductive Destination where
  | route (r : Route)
  | methodNotAllowed (allowed : List String)
  | nowhere
  deriving DecidableEq, Repr

/-- The methods that any of the routes takes, in alphabetical order. -/
def allowedMethods (routes : List Route) : List String :=
  ["GET", "HEAD", "POST"].filter fun m => routes.any fun r => r.methods.contains m

/-- **Where a method and a target go.** -/
def destination (method target : String) : Destination :=
  let routes := routesOf target
  match routes.find? fun r => r.methods.contains method with
  | some r => .route r
  | none => if routes.isEmpty then .nowhere else .methodNotAllowed (allowedMethods routes)

/-! ## Samples -/

example : destination "GET" "/health?x" = .route .health := by decide +kernel
example : destination "GET" "/api/lease/a%2Fb" = .route (.record "a/b") := by decide +kernel
example : destination "PUT" "/api/lease/update" = .methodNotAllowed ["GET", "HEAD", "POST"] := by decide +kernel

end Leasehold.Http
