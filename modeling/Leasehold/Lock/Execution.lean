/-
  Running a task under a lock.

  The task runs only if a lease was obtained, and the lease is given back when the task ends, however it ends.  If
  the task fails, its failure is what the caller sees, even when giving the lease back fails too; then that is noted in
  the journal.  A task that succeeds passes a failed release on.

  `Guarded` leaves open what acquiring, the task and releasing do: they are actions of any monad, since a task may
  move clocks, take other locks, or let others go on meanwhile.
-/
import Leasehold.Lock.Acquire
import Leasehold.Lock.Release
namespace Leasehold

/-- The steps of a run under a lock, as actions of a monad, with leases `L`. -/
structure Guarded (m : Type → Type) (L : Type) where
  acquire : m (Except Error (Option L))
  task : m (Except Error Value)
  release : L → m (Except Error Unit)
  note : Level → String → m Unit

namespace Guarded

variable {m : Type → Type} [Monad m] {L : Type}

/-- What the caller sees after a task that failed: its failure, unless giving the lease back failed in a way that no
release may fail in. -/
def afterFailure (g : Guarded m L) (name : String) (failure : Error) (lease : L) : m (Except Error (Option Value)) := do
  match ← g.release lease with
  | .ok () => return .error failure
  | .error e =>
    if e.isA .release then
      g.note .error ("Release after failed task '" ++ name ++ "' failed: " ++ e.message)
      return .error failure
    else return .error e

/-- **Runs a task under a lock**: the task's result, or none if the lock was not obtained. -/
def run (g : Guarded m L) (name : String) : m (Except Error (Option Value)) := do
  match ← g.acquire with
  | .error e => return .error e
  | .ok none =>
    g.note .info ("Not executing '" ++ name ++ "', lock not acquired")
    return .ok none
  | .ok (some lease) =>
    match ← g.task with
    | .error failure => g.afterFailure name failure lease
    | .ok v =>
      match ← g.release lease with
      | .ok () => return .ok (some v)
      | .error e => return .error e

end Guarded
end Leasehold
