/-
  The terms of a lock: its name, how long a lease lasts at most, and how long it is kept at least.

  Terms hold only what makes sense: a name, a ceiling above zero, a floor between zero and the ceiling.
  `Terms.ofGiven` checks these in order and tells the first that fails.
-/
import Leasehold.Time.Given
namespace Leasehold

/-- **Terms of a lock.** -/
structure Terms where
  name : String
  ceiling : Duration
  floor : Duration
  named : name ≠ ""
  lasting : 0 < ceiling.micros
  floorNotNegative : 0 ≤ floor.micros
  floorWithin : floor.micros ≤ ceiling.micros

namespace Terms

/-- The terms of a name and two durations. -/
def check (name : Option String) (ceiling floor : Duration) : Except TermsFault Terms :=
  match name with
  | none => .error .emptyName
  | some n =>
    if named : n = "" then .error .emptyName
    else if lasting : ceiling.micros ≤ 0 then .error (.ceilingNotPositive ceiling)
    else if notNegative : floor.micros < 0 then .error (.floorNegative floor)
    else if within : ceiling.micros < floor.micros then .error (.floorAboveCeiling floor ceiling)
    else .ok ⟨n, ceiling, floor, named, Int.not_le.mp lasting, Int.not_lt.mp notNegative, Int.not_lt.mp within⟩

/-- A text that was given as a name. -/
def nameOf? : GivenDuration → Option String
  | .value (.text s) => some s
  | _ => none

/-- The terms of a name and two durations as they were given. -/
def ofGiven (name ceiling floor : GivenDuration) : Except Error Terms := do
  let c ← ceiling.resolve
  let f ← floor.resolve
  (check (nameOf? name) c f).mapError Error.terms

/-- **The terms of a list of arguments**: name, ceiling, and a floor that may be left out. -/
def ofArguments : List GivenDuration → Except Error Terms
  | [] => .error (.mismatch (.missingArguments "LockConfiguration.__init__" ["name", "lock_at_most_for"]))
  | [_] => .error (.mismatch (.missingArguments "LockConfiguration.__init__" ["lock_at_most_for"]))
  | [name, ceiling] => ofGiven name ceiling (.exact .zero)
  | [name, ceiling, floor] => ofGiven name ceiling floor
  | many => .error (.mismatch (.surplusArguments "LockConfiguration.__init__" "from 3 to 4" (many.length + 1)))

/-- The two deadlines of a lease that starts now: at most until, and at least until. -/
def deadlines (t : Terms) (now : GivenTime) : Except Error (GivenTime × GivenTime) := do
  let atMost ← now.add t.ceiling
  let atLeast ← now.add t.floor
  return (atMost, atLeast)

end Terms
end Leasehold
