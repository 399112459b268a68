/-
  Acquiring: one claim, one call, one verdict.

  The call on the store is made elsewhere; `settleAcquire` is what a lock makes of its outcome.  It is settled in
  favour of a lease in one case only, when the store answers with a record that ends exactly where the claim does.
  A condition that does not hold, a failed call and a call without an answer all mean "not acquired".  Any other
  failure is no matter of the store, and it is passed on.
-/
import Leasehold.Lock.Basic
namespace Leasehold
namespace Lock

/-- Counts a lease. -/
def countAcquired (lock : Lock) : Lock :=
  { lock with statistics := { lock.statistics with acquired := lock.statistics.acquired + 1 } }

/-- Counts a lock that somebody else holds. -/
def countContended (lock : Lock) : Lock :=
  { lock with statistics := { lock.statistics with contended := lock.statistics.contended + 1 } }

/-- Counts a call that told nothing. -/
def countAcquireFailure (lock : Lock) : Lock :=
  { lock with statistics := { lock.statistics with acquireFailures := lock.statistics.acquireFailures + 1 } }

/-- The entry for a call that ran out of time. -/
def timeoutText (lock : Lock) (name : String) : String :=
  "Timeout acquiring lock '" ++ name ++ "' after " ++ lock.timeout.display ++ "s, treating as not acquired"

/-- The entry for a record that does not end where the claim does. -/
def mismatchText (claim : Claim) (record : LeaseRecord) : String :=
  "Store returned lockUntil " ++ record.lockUntil.timestamp ++ " for '" ++ claim.name
    ++ "', expected " ++ claim.atMost.timestamp

/-- What the ledger says of an acquire that did not succeed. -/
def reportAcquireFailure (name : String) (level : Level) (text : String) (ledger : Ledger) : Ledger :=
  (ledger.count (·.countAcquire name .failed)).note level text

/-- **The verdict on an acquire**: the lock and the ledger afterwards, and the lease if there is one. -/
def settleAcquire (lock : Lock) (claim : Claim) (outcome : Outcome LeaseRecord) (ledger : Ledger) :
    Lock × Ledger × Except Error (Option Lease) :=
  match outcome with
  | .answered record =>
    let ledger := ledger.count (·.countStoreCall "try_update")
    if record.lockUntil ≠ claim.atMost then
      (lock.countAcquireFailure, reportAcquireFailure claim.name .error (mismatchText claim record) ledger, .ok none)
    else
      (lock.countAcquired,
        (ledger.count (·.countAcquire claim.name .acquired)).note .info
          (lock.identity.display ++ " acquired lock '" ++ claim.name ++ "' until " ++ claim.atMost.timestamp),
        .ok (some (.ofClaim claim lock.identity)))
  | .silent =>
    (lock.countAcquireFailure, reportAcquireFailure claim.name .warning (lock.timeoutText claim.name) ledger, .ok none)
  | .failed e =>
    if e.isA .conditionNotMet then
      (lock.countContended,
        (ledger.count (·.countAcquire claim.name .contended)).note .debug
          ("Lock '" ++ claim.name ++ "' is held by another node"),
        .ok none)
    else if e.isA .timeout then
      (lock.countAcquireFailure, reportAcquireFailure claim.name .warning (lock.timeoutText claim.name) ledger, .ok none)
    else if e.isA .transport then
      (lock.countAcquireFailure,
        reportAcquireFailure claim.name .warning
          ("Store error acquiring lock '" ++ claim.name ++ "', treating as not acquired: " ++ e.message) ledger,
        .ok none)
    else (lock, ledger, .error e)

/-- **Tries to acquire** in a world, with nothing else happening between the call and its verdict. -/
def tryAcquire {σ : Type} (S : LeaseStore σ) (lock : Lock) (claim : Claim) (w : World σ) :
    World σ × Lock × Except Error (Option Lease) :=
  let (w, outcome) := S.tryUpdate (claim.request lock.identity) w
  let (lock, ledger, result) := lock.settleAcquire claim outcome w.ledger
  ({ w with ledger }, lock, result)

end Lock
end Leasehold
