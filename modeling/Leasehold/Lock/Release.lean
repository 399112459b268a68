/-
  Releasing: giving a lease back before it runs out.

  A release asks the store to end the record now, but not before the floor of the lease (`releaseUntil`), and only
  while the record still ends at the lease's own ceiling.  So a lease that has run out and whose lock went to
  somebody else cannot touch the new holder's record: it is LOST, which is no failure.

  A lease that is released or lost is done with; releasing it again does nothing.  When the store fails or does not
  answer, nobody knows what was written: the lease stays unreleased, the caller is told, and may try again.
-/
import Leasehold.Lock.Basic
namespace Leasehold
namespace Lock

/-- Counts a lease that was given back. -/
def countReleased (lock : Lock) : Lock :=
  { lock with statistics := { lock.statistics with released := lock.statistics.released + 1 } }

/-- Counts a lease whose lock went to somebody else. -/
def countLost (lock : Lock) : Lock :=
  { lock with statistics := { lock.statistics with lost := lock.statistics.lost + 1 } }

/-- Counts a release that told nothing. -/
def countReleaseFailure (lock : Lock) : Lock :=
  { lock with statistics := { lock.statistics with releaseFailures := lock.statistics.releaseFailures + 1 } }

end Lock

namespace Lease

/-- **When the lock falls free** if the lease is given back at a moment: then, but not before the floor. -/
def releaseUntil (lease : Lease) (now : Instant) : Instant :=
  if now.micros < lease.atLeast.micros then lease.atLeast else now

/-- The request of a release. -/
def releaseRequest (lease : Lease) (lockUntil : Instant) : ReleaseRequest :=
  { name := .text lease.name, lockUntil := .moment lockUntil, heldUntil := .moment lease.atMost }

/-- The entry for a lease that is done with. -/
def doneText (lease : Lease) : String := "Lease on '" ++ lease.name ++ "' already released, ignoring"

/-- The lease once it is done with. -/
def done (lease : Lease) : Lease := { lease with released := true }

end Lease

namespace Lock

/-- A release that told nothing. -/
def settleReleaseFailure (lock : Lock) (lease : Lease) (cause : Error) (text : String) (ledger : Ledger) :
    Lock × Lease × Ledger × Except Error Unit :=
  (lock.countReleaseFailure, lease, (ledger.count (·.countRelease lease.name .failed)).note .error text,
    .error (.releaseFailed lease.name lock.timeout cause))

/-- A release that ran out of time. -/
def settleReleaseTimeout (lock : Lock) (lease : Lease) (cause : Error) (ledger : Ledger) :
    Lock × Lease × Ledger × Except Error Unit :=
  lock.settleReleaseFailure lease cause
    ("Timeout releasing lock '" ++ lease.name ++ "', it expires at " ++ lease.atMost.timestamp) ledger

/-- **The verdict on a release**: lock, lease and ledger afterwards, and the failure if it has to be told. -/
def settleRelease (lock : Lock) (lease : Lease) (lockUntil : Instant) (outcome : Outcome LeaseRecord)
    (ledger : Ledger) : Lock × Lease × Ledger × Except Error Unit :=
  match outcome with
  | .answered _ =>
    (lock.countReleased, lease.done,
      ((ledger.count (·.countStoreCall "update")).count (·.countRelease lease.name .released)).note .info
        ("Released lock '" ++ lease.name ++ "', available from " ++ lockUntil.timestamp),
      .ok ())
  | .silent => lock.settleReleaseTimeout lease .timedOut ledger
  | .failed e =>
    if e.isA .conditionNotMet then
      (lock.countLost, lease.done,
        (ledger.count (·.countRelease lease.name .lost)).note .warning
          ("Lock '" ++ lease.name ++ "' is no longer held by this lease, leaving the current holder untouched"),
        .ok ())
    else if e.isA .timeout then lock.settleReleaseTimeout lease e ledger
    else if e.isA .transport then
      lock.settleReleaseFailure lease e
        ("Store error releasing lock '" ++ lease.name ++ "', it expires at " ++ lease.atMost.timestamp ++ ": "
          ++ e.message) ledger
    else (lock, lease, ledger, .error e)

/-- **Releases a lease** in a world, with nothing else happening between the call and its verdict. -/
def release {σ : Type} (S : LeaseStore σ) (lock : Lock) (lease : Lease) (now : GivenTime) (w : World σ) :
    World σ × Lock × Lease × Except Error Unit :=
  if lease.released then (w.note .warning lease.doneText, lock, lease, .ok ())
  else match now.truncate with
    | .error e => (w, lock, lease, .error e)
    | .ok now =>
      let lockUntil := lease.releaseUntil now
      let (w, outcome) := S.update (lease.releaseRequest lockUntil) w
      let (lock, lease, ledger, result) := lock.settleRelease lease lockUntil outcome w.ledger
      ({ w with ledger }, lock, lease, result)

end Lock
end Leasehold
