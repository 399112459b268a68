/-
  Locks and leases.

  A `Lock` gives out leases: it knows who it is, how long it waits for a store, and how its calls ended so far.
  A `Lease` is the one proof of having acquired: it holds the two deadlines exactly as they were written.
-/
import Leasehold.Lock.Claim
import Leasehold.Settings.Identity
namespace Leasehold

/-- How the calls of a lock ended. -/
structure Statistics where
  acquired : Nat
  contended : Nat
  acquireFailures : Nat
  released : Nat
  lost : Nat
  releaseFailures : Nat
  deriving DecidableEq, Repr

/-- No calls yet. -/
def Statistics.zero : Statistics := ⟨0, 0, 0, 0, 0, 0⟩

/-- **A lock.** -/
structure Lock where
  identity : Value
  timeout : Value
  statistics : Statistics
  deriving Repr

/-- **A lease.** -/
structure Lease where
  name : String
  atMost : Instant
  atLeast : Instant
  takenAt : Instant
  lockedBy : Value
  released : Bool
  deriving Repr

namespace Lock

/-- Why a value is no time to wait, if it is none. -/
def timeoutFault? (timeout : Value) : Option Error :=
  let notPositive := some (.terms (.timeoutNotPositive timeout))
  match timeout with
  | .real x => if x.isAtMostZero then notPositive else none
  | v => match v.asInt? with
    | some i => if i ≤ 0 then notPositive else none
    | none => some (.mismatch (.order "<=" v.kindName "int"))

/-- **A new lock.**  What is not given comes from the settings: how long to wait, and who it is. -/
def make (settings : Settings) (host : HostName) (identity timeout : Value) (ledger : Ledger) :
    Ledger × Except Error Lock :=
  let wait := if timeout.isNull then settings.storeTimeout else timeout
  match timeoutFault? wait with
  | some e => (ledger, .error e)
  | none =>
    if identity.truthy then (ledger, .ok ⟨identity, wait, .zero⟩)
    else
      let (name, ledger) := settings.identity host ledger
      (ledger, .ok ⟨.text name, wait, .zero⟩)

/-- The statistics of a lock under the names they are shown by. -/
def stats (lock : Lock) : List (String × Value) :=
  [("identity", lock.identity),
   ("leases_acquired", .int lock.statistics.acquired),
   ("leases_contended", .int lock.statistics.contended),
   ("acquire_failures", .int lock.statistics.acquireFailures),
   ("leases_released", .int lock.statistics.released),
   ("leases_lost", .int lock.statistics.lost),
   ("release_failures", .int lock.statistics.releaseFailures)]

end Lock

namespace Lease

/-- The lease of a claim that was written. -/
def ofClaim (c : Claim) (lockedBy : Value) : Lease :=
  ⟨c.name, c.atMost, c.atLeast, c.takenAt, lockedBy, false⟩

/-- The short text of a lease. -/
def shown (l : Lease) : String :=
  "Lease(" ++ l.name ++ ", at_most=" ++ l.atMost.timestamp ++ ", at_least=" ++ l.atLeast.timestamp
    ++ ", released=" ++ (Value.bool l.released).literal ++ ")"

end Lease
end Leasehold
