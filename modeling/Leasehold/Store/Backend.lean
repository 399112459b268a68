/-
  One store out of all kinds.

  A process works with one store, and the settings say of which kind; a `Backend` is the state of a store whatever
  its kind.  `use` carries a call to the store that is there, so `store` is a store of lease records itself, and what
  only some kinds can do is asked of them by name (`onMemory`, `deleteTable`).
-/
import Leasehold.Dynamo.Store
import Leasehold.Http.Party
import Leasehold.Redis.Store
import Leasehold.Store.Memory
namespace Leasehold

/-- **A store of any kind**: in memory, on Redis, on a table, or over HTTP with a node, with replies made up in advance,
or with whole bodies made up in advance at the other end. -/
inductive Backend where
  | memory (m : Memory)
  | redis (s : Redis.RedisStore)
  | table (s : Dynamo.DynamoStore)
  | node (s : Http.HttpStore Http.NodeParty)
  | scripted (s : Http.HttpStore Http.ScriptedParty)
  | canned (s : Http.HttpStore Http.CannedParty)

namespace Backend

instance : Inhabited Backend := ⟨.memory .empty⟩

/-- The name of a store's type. -/
def typeName : Backend → String
  | memory _ => "InMemoryLeaseStore"
  | redis _ => "RedisLeaseStore"
  | table _ => "DynamoDBLeaseStore"
  | _ => "HttpLeaseStore"

/-! ## Calls -/

/-- What a call on a store of one kind comes to for a store of any kind. -/
def rewrap {σ α : Type} (wrap : σ → Backend) (r : World σ × α) : World Backend × α :=
  (⟨wrap r.1.store, r.1.ledger⟩, r.2)

/-- **Carries a call to the store that is there.** -/
def use {α : Type} (call : {σ : Type} → LeaseStore σ → World σ → World σ × α) (w : World Backend) :
    World Backend × α :=
  match w.store with
  | memory m => rewrap memory (call Memory.store ⟨m, w.ledger⟩)
  | redis s => rewrap redis (call Redis.RedisStore.store ⟨s, w.ledger⟩)
  | table s => rewrap table (call Dynamo.DynamoStore.store ⟨s, w.ledger⟩)
  | node s => rewrap node (call (Http.HttpStore.store Http.NodeParty.party) ⟨s, w.ledger⟩)
  | scripted s => rewrap scripted (call (Http.HttpStore.store Http.ScriptedParty.party) ⟨s, w.ledger⟩)
  | canned s => rewrap canned (call (Http.HttpStore.store Http.CannedParty.party) ⟨s, w.ledger⟩)

/-- **A store of any kind as a store of lease records.** -/
def store : LeaseStore Backend where
  tryUpdate r w := use (fun S w => S.tryUpdate r w) w
  update r w := use (fun S w => S.update r w) w
  get name w := use (fun S w => S.get name w) w
  createTable arguments w := use (fun S w => S.createTable arguments w) w
  close w := (use (fun S w => (S.close w, ())) w).1

/-- Deletes the table, if there is one to delete. -/
def deleteTable (w : World Backend) : World Backend × Outcome Unit :=
  match w.store with
  | table s => rewrap table (Dynamo.DynamoStore.deleteTable ⟨s, w.ledger⟩)
  | other => (w, .failed (.noMember other.typeName "delete_lease_table"))

/-! ## The parts of a store -/

/-- Changes the store in memory. -/
def onMemory (f : Memory → Memory) : Backend → Backend
  | memory m => memory (f m)
  | node s => node { s with party := { s.party with node := { s.party.node with memory := f s.party.node.memory } } }
  | other => other

/-- Tells a node what its clock shows. -/
def atTime (now : GivenTime) : Backend → Backend
  | node s => node { s with party := { s.party with clock := now } }
  | other => other

/-- How many turns a call is on its way to a store, and as many back: a store at the other end of a connection
is some turns away. -/
def distance : Backend → Nat
  | node _ => 4
  | canned _ => 4
  | _ => 0

/-- A raw request to the node. -/
def request (req : Http.Request) (w : World Backend) : World Backend × Outcome Http.Response :=
  match w.store with
  | node s =>
    let (p, o) := Http.NodeParty.onNode (Http.LeaseNode.handle s.party.clock req) ⟨s.party, w.ledger⟩
    (⟨node { s with party := p.store }, p.ledger⟩, o)
  | other => (w, .failed (.noMember other.typeName "handle"))

/-- A raw command to the database. -/
def command (words : List Value) (b : Backend) : Backend × Except Error Value :=
  match b with
  | redis s => let (s, r) := s.command words; (redis s, r.mapError Error.server)
  | other => (other, .error (.noMember other.typeName "execute_command"))

/-- Begins an outage of the database with a reason, or ends it. -/
def setOutage (reason : Option String) : Backend → Backend
  | redis s => redis { s with database := { s.database with outage := reason } }
  | other => other

/-! ## What a look at a store shows -/

/-- A call of a scripted party as an array. -/
def eventValue : Http.SessionEvent → Value
  | .opened timeout => .list [.text "open", timeout]
  | .called call => .list [.text call.method, .text call.url, call.payload.getD .null]
  | .closed => .list [.text "close"]

/-- The calls that the party behind a store has seen, where it keeps them. -/
def calls : Backend → List Value
  | table s => s.service.calls.map fun c => .list [.text c.operation, c.arguments]
  | scripted s => s.party.events.map eventValue
  | _ => []

/-- The records of a store in memory, and what became of its writes. -/
def memoryFields (m : Memory) : List (String × Value) :=
  [("records", .list (m.records.map fun (name, record) => .list [name, .text record.shown])),
   ("writes_applied", .int m.writesApplied),
   ("conditions_failed", .int m.conditionsFailed)]

/-- A hash as an object. -/
def hashValue (fields : List (String × String)) : Value := .object (fields.map fun (k, v) => (k, .text v))

/-- **The state of a store**, as fields. -/
def fields : Backend → List (String × Value)
  | memory m => memoryFields m
  | redis s =>
    if s.database.outage.isSome then []
    else [("hashes", .object (s.database.hashes.map fun (k, h) => (k, hashValue h)))]
  | table s => [("table", .object (s.service.items.map fun (name, item) => (name.keyText, .object item)))]
  | node s =>
    memoryFields s.party.node.memory ++ [("node", .object s.party.node.stats), ("client", .object s.client.stats)]
  | scripted s => [("client", .object s.client.stats)]
  | canned s => [("client", .object s.client.stats)]

end Backend
end Leasehold
