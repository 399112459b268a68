/-
  JSON data.

  A value is one of JSON's six kinds, with numbers split in two: whole numbers of any size, and doubles.  An
  object is a list of fields in the order in which their keys first appeared; no key appears twice.

  Two relations on values are used beside equality:

  * **`truthy`** — what counts as present: not null, not false, not zero, not empty;
  * **`sameKey`** — when two values name the same entry of a map: numbers by their value (true is 1), texts by
    their characters.  Lists and objects can name nothing (`isKey`).
-/
import Leasehold.Number.Binary64
namespace Leasehold

/-- A JSON value. -/
inductive Value where
  | null
  | bool (b : Bool)
  | int (i : Int)
  | real (x : Binary64)
  | text (s : String)
  | list (items : List Value)
  | object (fields : List (String × Value))
  deriving Repr, Inhabited

namespace Value

/-- The word for a value's kind. -/
def kindName : Value → String
  | null => "NoneType"
  | bool _ => "bool"
  | int _ => "int"
  | real _ => "float"
  | text _ => "str"
  | list _ => "list"
  | object _ => "dict"

/-- A value that counts as present. -/
def truthy : Value → Bool
  | null => false
  | bool b => b
  | int i => i != 0
  | real x => !x.isZero
  | text s => s != ""
  | list items => !items.isEmpty
  | object fields => !fields.isEmpty

def isNull : Value → Bool
  | null => true
  | _ => false

/-- The whole number a value is, with false and true as 0 and 1. -/
def asInt? : Value → Option Int
  | bool b => some (if b then 1 else 0)
  | int i => some i
  | _ => none

/-! ## Values as keys -/

/-- A value that can name an entry of a map. -/
def isKey : Value → Bool
  | list _ => false
  | object _ => false
  | _ => true

/-- Whether two values name the same entry: equal numbers do, and all NaN do. -/
def sameKey : Value → Value → Bool
  | null, null => true
  | text s, text t => s == t
  | real .nan, real .nan => true
  | real x, real y => x.equals y
  | real x, v => match v.asInt? with
    | some i => x.toInt? == some i
    | none => false
  | v, real x => match v.asInt? with
    | some i => x.toInt? == some i
    | none => false
  | v, w => match v.asInt?, w.asInt? with
    | some i, some j => i == j
    | _, _ => false

theorem sameKey_text (s t : String) : sameKey (text s) (text t) = (s == t) := by
  simp [sameKey]

/-! ## Fields of an object -/

/-- The value under a key. -/
def field? (key : String) (fields : List (String × Value)) : Option Value :=
  (fields.find? (·.1 == key)).map (·.2)

/-- Puts a value under a key: in the key's place if it has one, at the end if it is new. -/
def putField (key : String) (v : Value) : List (String × Value) → List (String × Value)
  | [] => [(key, v)]
  | (k, w) :: rest => if k == key then (k, v) :: rest else (k, w) :: putField key v rest

theorem field_putField_self (key : String) (v : Value) (fields : List (String × Value)) :
    field? key (putField key v fields) = some v := by
  induction fields with
  | nil => simp [putField, field?]
  | cons f rest ih =>
    obtain ⟨k, w⟩ := f
    by_cases h : k == key
    · simp [putField, field?, h]
    · simpa [putField, field?, h] using ih

theorem field_putField_other {key other : String} (h : other ≠ key) (v : Value)
    (fields : List (String × Value)) : field? other (putField key v fields) = field? other fields := by
  induction fields with
  | nil => simp [putField, field?, Ne.symm h]
  | cons f rest ih =>
    obtain ⟨k, w⟩ := f
    by_cases hk : k = key
    · subst hk; simp [putField, field?, Ne.symm h]
    · by_cases ho : k = other
      · subst ho; simp [putField, field?, hk]
      · have := ih
        simp only [field?] at this
        simp [putField, field?, hk, ho, this]

end Value
end Leasehold
