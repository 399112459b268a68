/-
  Clocks that are moved by hand.

  A clock's reading is whatever it was last set to.  It starts at a time whose distance from UTC is known; after
  that it may be set to anything, and only its users find out.
-/
import Leasehold.Time.Given
namespace Leasehold

/-- A clock, by its reading. -/
structure Clock where
  now : GivenTime
  deriving Repr, Inhabited

namespace Clock

/-- The moment a clock starts at when none is given: 2024-01-01T00:00:00Z. -/
def usualStart : Instant := ⟨63839664000000000, by decide⟩

/-- A clock that starts at a time. -/
def start : GivenTime → Except Error Clock
  | .time t => if t.isAware then .ok ⟨.time t⟩ else .error (.time .clockWithoutZone)
  | .zoned t => .ok ⟨.zoned t⟩
  | .other .null => .ok ⟨.moment usualStart⟩
  | .other v => .error (.noMember v.kindName "tzinfo")

/-- **Moves the clock on** by a duration, or back by a negative one. -/
def advance (c : Clock) (amount : GivenDuration) : Except Error Clock := do
  let d ← amount.resolve
  return ⟨← c.now.add d⟩

/-- Sets the clock. -/
def set (_ : Clock) (reading : GivenTime) : Clock := ⟨reading⟩

/-! ## Samples -/

example : usualStart.timestamp = "2024-01-01T00:00:00.000Z" := by decide

end Clock
end Leasehold
