/-
  Which store the settings ask for.

  A name of a kind of store, or the settings where no name is given, becomes a `StorePlan`: the kind, and what has
  to be known to reach it.  Names are taken in small letters; the kinds are `memory`, `http`, `redis` and `dynamodb`.
  Only for a table is what has to be known looked at on the spot.

  `StorePlan.build` makes the store itself, as far as a process can by itself: a store that lives elsewhere is one
  that nobody answers for, until somebody puts the other party in its place.
-/
import Leasehold.Settings.Settings
import Leasehold.Store.Backend
import Leasehold.Store.Endpoint
import Leasehold.Text.Lowercase
namespace Leasehold

/-- What has to be known of a store to reach it. -/
inductive StorePlan where
  | memory
  | http (url : String) (timeout : Value)
  | redis (host : String) (port db : Int) (keyPrefix : String) (timeout : Value)
  | table (name region endpoint : String) (timeout : Value)
  deriving Repr

namespace StorePlan

/-- Why a time is none to wait for a connection, if it is none; nothing and a NaN are no limit. -/
def timeoutFault? : Value → Option ClientFault
  | .null => none
  | .bool _ => some .timeoutTruth
  | .int i =>
    if Binary64.ofInt i = .infinite (i < 0) then some .timeoutTooLarge
    else if i ≤ 0 then some (.timeoutNotPositive (.int i))
    else none
  | .real x => if x.isAtMostZero then some (.timeoutNotPositive (.real x)) else none
  | v => some (.timeoutKind v)

/-- **The plan for a table**: a region, then an address, then a time to wait have to make sense. -/
def forTable (s : Settings) : Except ClientFault StorePlan :=
  let address := if s.dynamodbEndpoint = "" then Endpoint.ofRegion s.awsRegion else s.dynamodbEndpoint
  if !Endpoint.isRegion s.awsRegion then .error (.regionName s.awsRegion)
  else match (Endpoint.fault? address).or (timeoutFault? s.storeTimeout) with
    | some fault => .error fault
    | none => .ok (.table s.leaseTable (Endpoint.plainRegion s.awsRegion) address s.storeTimeout)

/-- The plan for a kind of store, by its name. -/
def ofName (s : Settings) (name : String) : Except Error StorePlan :=
  if name = "memory" then .ok .memory
  else if name = "http" then .ok (.http (Http.Client.trimUrl s.leaseStoreUrl) s.storeTimeout)
  else if name = "redis" then .ok (.redis s.redisHost s.redisPort s.redisDb s.redisKeyPrefix s.storeTimeout)
  else if name = "dynamodb" then (forTable s).mapError Error.client
  else .error (.unknownBackend name)

/-- **The plan for a store**: of the kind that was asked for, or the one in the settings. -/
def ofSettings (s : Settings) (asked : Value) : Except Error StorePlan :=
  match if asked.truthy then asked else .text s.leaseStore with
  | .text name => ofName s (Text.lower name)
  | v => .error (.noMember v.kindName "lower")

/-- The store of a plan, with nobody at the other end. -/
def build (s : Settings) : StorePlan → Backend
  | memory => .memory .empty
  | http url timeout => .canned ⟨.make url timeout, ⟨[], .none⟩⟩
  | redis host port _ keyPrefix _ =>
    .redis ⟨⟨[], some ("Error connecting to " ++ host ++ ":" ++ toString port ++ ".")⟩, keyPrefix, false⟩
  | table name _ endpoint _ =>
    .table ⟨⟨[], [.broken (.endpoint endpoint)], []⟩, name, s.readCapacity, s.writeCapacity⟩

end StorePlan
end Leasehold
