/-
  The table service.

  The service holds the items of one table, by name.  An update is one step: its condition is checked and its
  assignments are made, on a new item if there is none.  The service may also be given REPLIES in advance; a call takes
  the next of them instead of doing its work.  Every call is kept, in order.
-/
import Leasehold.Dynamo.Expression
import Leasehold.Error
namespace Leasehold.Dynamo

/-! ## Calls -/

/-- An update of an item. -/
structure UpdateCall where
  name : Value
  assignments : Assignments
  condition : Option Condition
  values : Item
  deriving Repr

/-- A call of the service. -/
inductive Call where
  | updateItem (table : String) (update : UpdateCall)
  | getItem (table : String) (name : Value)
  | createTable (table : String) (readCapacity writeCapacity : Value)
  | deleteTable (table : String)
  | awaitTable (table : String)
  deriving Repr

namespace Call

/-- The name of the operation. -/
def operation : Call → String
  | updateItem _ _ => "update_item"
  | getItem _ _ => "get_item"
  | createTable _ _ _ => "create_table"
  | deleteTable _ => "delete_table"
  | awaitTable _ => "wait_table_exists"

/-- The key of an item. -/
def keyOf (name : Value) : Value := .object [("_id", typed name)]

/-- The arguments of a call. -/
def arguments : Call → Value
  | updateItem table u =>
    .object ([("TableName", .text table), ("Key", keyOf u.name),
      ("UpdateExpression", .text (assignmentsText u.assignments))]
      ++ (match u.condition with | some c => [("ConditionExpression", .text c.text)] | none => [])
      ++ [("ExpressionAttributeValues", .object u.values), ("ReturnValues", .text "ALL_NEW")])
  | getItem table name =>
    .object [("TableName", .text table), ("Key", keyOf name), ("ConsistentRead", .bool true)]
  | createTable table readCapacity writeCapacity =>
    .object [("TableName", .text table),
      ("KeySchema", .list [.object [("AttributeName", .text "_id"), ("KeyType", .text "HASH")]]),
      ("AttributeDefinitions", .list [.object [("AttributeName", .text "_id"), ("AttributeType", .text "S")]]),
      ("ProvisionedThroughput",
        .object [("ReadCapacityUnits", readCapacity), ("WriteCapacityUnits", writeCapacity)])]
  | deleteTable table => .object [("TableName", .text table)]
  | awaitTable table => .object [("TableName", .text table)]

/-- The name of the item that a call is about; the empty text if it is about none. -/
def itemName : Call → Value
  | updateItem _ u => u.name
  | getItem _ name => name
  | _ => .text ""

end Call

/-! ## The service -/

/-- A reply given in advance. -/
inductive Reply where
  | response (v : Value)
  | rejection (details : Value) (operation : Option String)
  | broken (fault : TableFault)
  deriving Repr

/-- **The service**: its items by name, the replies given in advance, and the calls so far. -/
structure Service where
  items : List (Value × Item)
  replies : List Reply
  calls : List Call
  deriving Repr

namespace Service

def empty : Service := ⟨[], [], []⟩

instance : Inhabited Service := ⟨empty⟩

/-- The code of a condition that does not hold. -/
def conditionCode : String := "ConditionalCheckFailedException"

/-- The item of a name. -/
def find? (s : Service) (name : Value) : Option Item :=
  (s.items.find? (·.1.sameKey name)).map (·.2)

/-- Puts an item in the place of its name, or at the end. -/
def putItem (name : Value) (item : Item) : List (Value × Item) → List (Value × Item)
  | [] => [(name, item)]
  | (k, i) :: rest => if k.sameKey name then (k, item) :: rest else (k, i) :: putItem name item rest

/-- **One update, in one step**: the whole new item comes back. -/
def update (s : Service) (u : UpdateCall) : Service × Except Error Value :=
  if u.name.isKey then
    let old := s.find? u.name
    if (u.condition.map (·.holds (old.getD []) u.values)).getD true then
      let item := assign u.values u.assignments (old.getD [("_id", typed u.name)])
      ({ s with items := putItem u.name item s.items }, .ok (.object [("Attributes", .object item)]))
    else (s, .error (.table (.rejected (.text conditionCode) (.text "The conditional request failed") "UpdateItem")))
  else (s, .error (.mismatch (.key u.name.kindName)))

/-- Reads an item. -/
def readItem (s : Service) (name : Value) : Except Error Value :=
  if name.isKey then
    .ok (.object (match s.find? name with | some item => [("Item", .object item)] | none => []))
  else .error (.mismatch (.key name.kindName))

/-- The work of a call. -/
def work (s : Service) : Call → Service × Except Error Value
  | .updateItem _ u => s.update u
  | .getItem _ name => (s, s.readItem name)
  | _ => (s, .ok (.object []))

/-- A field of an object, or a value in its place. -/
def fieldOr (key : String) (other : Value) : Value → Value
  | .object fields => (Value.field? key fields).getD other
  | _ => other

/-- What a reply given in advance comes to. -/
def Reply.result (call : Call) : Reply → Except Error Value
  | .response v => .ok v
  | .rejection details operation =>
    let error := fieldOr "Error" (.object []) details
    .error (.table (.rejected (fieldOr "Code" (.text "Unknown") error) (fieldOr "Message" (.text "Unknown") error)
      (operation.getD call.operation)))
  | .broken fault => .error (.table fault)

/-- **Carries out a call**, or takes the next reply given in advance. -/
def perform (s : Service) (call : Call) : Service × Except Error Value :=
  let s := { s with calls := s.calls ++ [call] }
  match s.replies with
  | reply :: rest => ({ s with replies := rest }, Reply.result call reply)
  | [] => s.work call

end Service
end Leasehold.Dynamo
