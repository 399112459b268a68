/-
  Claims: what an acquire asks for, once its arguments have been looked at.

  `Claim.ofGiven` takes the clock's reading and the arguments as they were given.  Only arguments that make sense
  become a claim, and only a claim is ever sent to a store.  The checks go in order, and the first that fails is
  told: the name, the kinds of the two deadlines, their zones, and at last their order, after all times were cut
  to milliseconds.
-/
import Leasehold.Lease.Terms
import Leasehold.Store.Contract
namespace Leasehold

/-- **What an acquire asks for.** -/
structure Claim where
  name : String
  atMost : Instant
  atLeast : Instant
  takenAt : Instant
  named : name ≠ ""
  future : takenAt.micros < atMost.micros
  ordered : atLeast.micros ≤ atMost.micros
  deriving Repr

namespace Claim

/-- The deadline that was given, if it is a time whose zone is known. -/
def deadline (which : Deadline) : GivenTime → Except Error DateTime
  | .time t => if t.isAware then .ok t else .error (.terms (.withoutZone which))
  | .zoned t => .ok t.dateTime
  | .other v => .error (.terms (.notATime which v.kindName))

/-- The name that was given. -/
def nameOf : Value → Except Error { name : String // name ≠ "" }
  | .text s => if h : s = "" then .error (.terms .emptyName) else .ok ⟨s, h⟩
  | _ => .error (.terms .emptyName)

/-- The claim of times that are cut to milliseconds already. -/
def ofInstants (name : { name : String // name ≠ "" }) (atMost atLeast takenAt : Instant) : Except TermsFault Claim :=
  if future : atMost.micros ≤ takenAt.micros then .error (.notInFuture atMost)
  else if ordered : atMost.micros < atLeast.micros then .error (.floorAfterCeiling atLeast atMost)
  else .ok ⟨name.1, atMost, atLeast, takenAt, name.2, by omega, by omega⟩

/-- **The claim of the clock's reading and the arguments**; the floor is now if none is given. -/
def ofGiven (now : GivenTime) (name : Value) (atMost atLeast : GivenTime) : Except Error Claim := do
  let takenAt ← now.truncate
  let floor := if atLeast.isNone then .moment takenAt else atLeast
  let n ← nameOf name
  let most ← deadline .atMost atMost
  let least ← deadline .atLeast floor
  let most ← most.truncate.mapError Error.time
  let least ← least.truncate.mapError Error.time
  (ofInstants n most least takenAt).mapError Error.terms

/-- The claim of terms at the clock's reading. -/
def ofTerms (terms : Terms) (now : GivenTime) : Except Error Claim := do
  let (atMost, atLeast) ← terms.deadlines now
  ofGiven now (.text terms.name) atMost atLeast

/-- The request that a claim becomes. -/
def request (c : Claim) (lockedBy : Value) : AcquireRequest :=
  { name := .text c.name
    lockUntil := .moment c.atMost
    lockedAt := .moment c.takenAt
    lockedBy
    availableAt := .moment c.takenAt }

end Claim
end Leasehold
