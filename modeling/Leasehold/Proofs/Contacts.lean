/-
  Which calls a store gets.

  The tape of a run (`LeaseStore.taped`) holds the two writes only.  Here a store is LOGGED: it works as it did, and keeps
  every call that it gets, of whatever kind, in the order in which they come.  Whoever uses the store cannot reach the log.

  1. **`Contact`, `LeaseStore.logged`** — a call, and a store that keeps its calls;
  2. **`Lock.tryAcquire_logged`, `Lock.release_logged`** — acquiring is one call and releasing at most one, and that they are
     logged changes nothing.
-/
import Leasehold.Lock.Acquire
import Leasehold.Lock.Release
namespace Leasehold

variable {σ : Type}

/-! ## Logs -/

/-- **A call on a store**, with everything that it hands over. -/
inductive Contact where
  | tryUpdate (request : AcquireRequest)
  | update (request : ReleaseRequest)
  | get (name : Value)
  | createTable (arguments : List (String × Value))
  | close
  deriving Repr

/-- A store with the calls that it got. -/
structure Logged (σ : Type) where
  store : σ
  calls : List Contact

/-- The world without the log, -/
def World.unlogged (w : World (Logged σ)) : World σ := ⟨w.store.store, w.ledger⟩

/-- and with one. -/
def World.logged (calls : List Contact) (w : World σ) : World (Logged σ) := ⟨⟨w.store, calls⟩, w.ledger⟩

/-- **A store that keeps the calls it gets.** -/
def LeaseStore.logged (S : LeaseStore σ) : LeaseStore (Logged σ) where
  tryUpdate r w :=
    let (after, o) := S.tryUpdate r w.unlogged
    (after.logged (w.store.calls ++ [.tryUpdate r]), o)
  update r w :=
    let (after, o) := S.update r w.unlogged
    (after.logged (w.store.calls ++ [.update r]), o)
  get name w :=
    let (after, o) := S.get name w.unlogged
    (after.logged (w.store.calls ++ [.get name]), o)
  createTable arguments w :=
    let (after, o) := S.createTable arguments w.unlogged
    (after.logged (w.store.calls ++ [.createTable arguments]), o)
  close w := (S.close w.unlogged).logged (w.store.calls ++ [.close])

@[simp] theorem World.logged_unlogged (w : World (Logged σ)) : w.unlogged.logged w.store.calls = w := rfl

/-! ## What a lock asks for -/

namespace Lock

/-- **An acquire is one call.** -/
theorem tryAcquire_logged (S : LeaseStore σ) (lock : Lock) (claim : Claim) (w : World (Logged σ)) :
    lock.tryAcquire S.logged claim w =
      ((lock.tryAcquire S claim w.unlogged).1.logged
          (w.store.calls ++ [.tryUpdate (claim.request lock.identity)]),
        (lock.tryAcquire S claim w.unlogged).2) :=
  rfl

/-- The calls of a release: none if the lease is done with, or the clock does not tell the time. -/
def contactsOfRelease (lease : Lease) (now : GivenTime) : List Contact :=
  if lease.released then []
  else match now.truncate with
    | .error _ => []
    | .ok now => [.update (lease.releaseRequest (lease.releaseUntil now))]

/-- **A release is at most one call.** -/
theorem release_logged (S : LeaseStore σ) (lock : Lock) (lease : Lease) (now : GivenTime) (w : World (Logged σ)) :
    lock.release S.logged lease now w =
      ((lock.release S lease now w.unlogged).1.logged (w.store.calls ++ contactsOfRelease lease now),
        (lock.release S lease now w.unlogged).2) := by
  simp only [release, contactsOfRelease]
  by_cases hdone : lease.released = true
  · simp only [hdone, if_true, List.append_nil]
    rfl
  · simp only [hdone, Bool.false_eq_true, if_false]
    cases now.truncate with
    | error e => simp only [List.append_nil, World.logged_unlogged]
    | ok now => rfl

end Lock
end Leasehold
