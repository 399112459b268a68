/-
  Failures of the lock's own kinds, made up from a list of arguments.

  A task that runs under a lock may fail with one of these, and callers may raise them themselves.  Two kinds know
  the name of their lock and write their own words; the others show what they were given.
-/
import Leasehold.Error
namespace Leasehold

/-- A failure made up from arguments: its words, and the name of the lock if its kind keeps one. -/
structure Announced where
  kind : Kind
  text : String
  name : Value
  deriving Repr

namespace Announced

/-- What a failure shows of its arguments: nothing, the one there is, or all of them in a row. -/
def argumentText : List Value → String
  | [] => ""
  | [v] => v.display
  | vs => Value.tupleLiteral vs

/-- The words of a lock that could not be released; a reason that is blank is left out. -/
def releaseText (name reason : Value) : String :=
  Error.releaseText name.display (if reason.truthy then reason.display else "")

/-- **A failure of a kind from its arguments.** -/
def make (kind : Kind) (arguments : List Value) : Except Error Announced :=
  match kind, arguments with
  | .conditionNotMet, [] => .error (.mismatch (.missingArguments "ConditionNotMet.__init__" ["name"]))
  | .conditionNotMet, [name] => .ok ⟨kind, Error.conditionText name, name⟩
  | .conditionNotMet, many =>
    .error (.mismatch (.surplusArguments "ConditionNotMet.__init__" "2" (many.length + 1)))
  | .release, [] => .error (.mismatch (.missingArguments "LeaseReleaseError.__init__" ["name"]))
  | .release, [name] => .ok ⟨kind, releaseText name .null, name⟩
  | .release, [name, reason] => .ok ⟨kind, releaseText name reason, name⟩
  | .release, many =>
    .error (.mismatch (.surplusArguments "LeaseReleaseError.__init__" "from 2 to 3" (many.length + 1)))
  | .key, [v] => .ok ⟨kind, v.literal, .null⟩
  | _, arguments => .ok ⟨kind, argumentText arguments, .null⟩

end Announced
end Leasehold
