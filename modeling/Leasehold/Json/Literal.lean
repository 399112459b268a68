/-
  Values as they appear in messages.

  A message shows a text bare, and every other value in LITERAL form: `None`, `True`, `[1, 'a']`, `{'k': 1.5}`,
  where texts inside are quoted.
-/
import Leasehold.Json.Value
import Leasehold.Number.Shortest
import Leasehold.Text.Quoted
namespace Leasehold.Value

/-- Puts `", "` between the parts. -/
def commaList (parts : List String) : String := ", ".intercalate parts

mutual

/-- The literal form of a value. -/
def literal : Value → String
  | .null => "None"
  | .bool b => if b then "True" else "False"
  | .int i => toString i
  | .real x => x.toText
  | .text s => Text.quoted s
  | .list items => "[" ++ commaList (literals items) ++ "]"
  | .object fields => "\x7b" ++ commaList (fieldLiterals fields) ++ "\x7d"

/-- The literal forms of the items of a list. -/
def literals : List Value → List String
  | [] => []
  | v :: rest => literal v :: literals rest

/-- The fields of an object, each as key and value. -/
def fieldLiterals : List (String × Value) → List String
  | [] => []
  | (k, v) :: rest => (Text.quoted k ++ ": " ++ literal v) :: fieldLiterals rest

end

/-- **How a message shows a value.** -/
def display : Value → String
  | .text s => s
  | v => v.literal

/-- The literal form of a row of values that is no list. -/
def tupleLiteral (items : List Value) : String := "(" ++ commaList (literals items) ++ ")"

@[simp] theorem display_text (s : String) : display (.text s) = s := rfl

end Leasehold.Value
