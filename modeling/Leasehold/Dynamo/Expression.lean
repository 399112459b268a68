/-
  Expressions of the table service.

  An update names the attributes it sets and may have a condition on the item as it is.  Both speak of values by
  placeholders, and both have a written form, which is what travels to the service.  Texts are compared character
  by character.

  An attribute is an object whose one field tells its type; only texts, under `S`, are used here.
-/
import Leasehold.Json.Value
namespace Leasehold.Dynamo

/-- The attributes of an item. -/
abbrev Item := List (String × Value)

/-- A text as an attribute; a value that is no text is put there as it is. -/
def typed (v : Value) : Value := .object [("S", v)]

/-- The text of an attribute. -/
def textOf? : Value → Option String
  | .object fields => match Value.field? "S" fields with
    | some (.text s) => some s
    | _ => none
  | _ => none

/-- The text of an item's attribute. -/
def textAt? (item : Item) (field : String) : Option String := (Value.field? field item).bind textOf?

/-! ## Conditions -/

/-- A condition on an item. -/
inductive Condition where
  | atMost (field placeholder : String)
  | equals (field placeholder : String)
  | missing (field : String)
  | either (left right : Condition)
  deriving DecidableEq, Repr

/-- The written form of a condition. -/
def Condition.text : Condition → String
  | atMost field placeholder => field ++ " <= " ++ placeholder
  | equals field placeholder => field ++ " = " ++ placeholder
  | missing field => "attribute_not_exists(" ++ field ++ ")"
  | either left right => left.text ++ " or " ++ right.text

/-- **Whether a condition holds** of an item, with the values of the placeholders. -/
def Condition.holds (item values : Item) : Condition → Bool
  | atMost field placeholder => match textAt? item field, textAt? values placeholder with
    | some s, some t => !(decide (t < s))
    | _, _ => false
  | equals field placeholder => match textAt? item field, textAt? values placeholder with
    | some s, some t => s == t
    | _, _ => false
  | missing field => (Value.field? field item).isNone
  | either left right => left.holds item values || right.holds item values

/-! ## Updates -/

/-- What an update sets: attributes, each to the value of a placeholder. -/
abbrev Assignments := List (String × String)

/-- The written form of an update. -/
def assignmentsText (assignments : Assignments) : String :=
  "set " ++ ", ".intercalate (assignments.map fun a => a.1 ++ " = " ++ a.2)

/-- **The item after an update.** -/
def assign (values : Item) (assignments : Assignments) (item : Item) : Item :=
  assignments.foldl (fun item a => match Value.field? a.2 values with
    | some v => Value.putField a.1 v item
    | none => item) item

/-! ## Samples -/

example : (Condition.either (.atMost "end" ":now") (.missing "end")).text
    = "end <= :now or attribute_not_exists(end)" := by decide

end Leasehold.Dynamo
