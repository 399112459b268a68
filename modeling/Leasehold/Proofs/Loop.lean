/-
  The event loop: calls of any number of locks on one store in memory, turn by turn.

  A call of a lock has two sides.  The CALLER waits for the store so long at most; the VISIT to the store is a task of its
  own, which pauses on its way if the store jitters, meets the trouble that was made for it, waits for the store's
  gate, and writes.  Nothing happens between two waits but the turn of one task, and a turn goes from one wait to the
  next.  So whoever goes through the gate writes and leaves in one turn; only strangers stay inside for longer.

  A caller may be interrupted while it waits, because its time runs out or because its task is cancelled.  If the visit has
  ended by then, its result counts.  Otherwise the visit is TOLD to end, and ends where it waits as soon as its turn
  comes; the caller waits for that, unless it is cancelled once more.  A visit may also be told by somebody else, as all
  tasks are when a loop is closed.

  * **`Loop`** — the store, the gate, the locks, the leases that they gave out, and every call;
  * **`Loop.next`** — what an event does.  It is `none` where the event cannot happen: a call that has begun does not begin
    again, and nobody takes a turn who waits for something else.

  What a store does with a request is the store's (`Memory.pass`, `Memory.writeAcquire`, `Memory.writeRelease`), and what a
  lock makes of an outcome is the lock's (`Lock.settleAcquire`, `Lock.settleRelease`).
-/
import Leasehold.Proofs.Gate
import Leasehold.Proofs.Standing
namespace Leasehold

/-! ## How a release ends -/

/-- What the metrics say of a release whose call came to an outcome. -/
def ReleaseOutcome.of? : Outcome LeaseRecord → Option ReleaseOutcome
  | .answered _ => some .released
  | .silent => some .failed
  | .failed e =>
    if e.isA .conditionNotMet then some .lost
    else if e.isA .timeout then some .failed
    else if e.isA .transport then some .failed
    else none

theorem ReleaseOutcome.of?_released {o : Outcome LeaseRecord} :
    of? o = some .released ↔ ∃ r, o = .answered r := by
  cases o with
  | answered r => exact ⟨fun _ => ⟨r, rfl⟩, fun _ => rfl⟩
  | silent => exact ⟨nofun, nofun⟩
  | failed e =>
    refine ⟨fun h => ?_, nofun⟩
    simp only [of?] at h
    split at h
    · cases h
    split at h
    · cases h
    split at h <;> cases h

namespace Loop

/-! ## Calls -/

/-- What a call has the store do.  A release is the release of the lease of a number. -/
inductive Job where
  | acquire (claim : Claim)
  | release (number : Nat) (lease : Lease) (lockUntil : Instant)

/-- Where a visit to the store is: about to start, pausing on its way, hanging for ever, waiting at the gate, or over, with
what the store said, or cut short. -/
inductive Place where
  | starting
  | pausing
  | hanging
  | queueing
  | ended (result : Option (Except Error LeaseRecord))

/-- Why a caller does not wait any longer. -/
inductive Cause where
  | timeout
  | cancellation
  deriving DecidableEq

/-- **How a call ends**: an acquire with its result, a release with its result and what the metrics say of it. -/
inductive Ending where
  | acquired (result : Except Error (Option Lease))
  | released (outcome : Option ReleaseOutcome) (result : Except Error Unit)

/-- Where the caller is: it waits for the visit, it waits for the visit to stop, or it has returned. -/
inductive Caller where
  | waiting
  | stopping (cause : Cause)
  | returned (ending : Ending)

/-- **A call that went out to the store**, by a lock. -/
structure Visit where
  owner : Nat
  job : Job
  place : Place
  isTold : Bool
  caller : Caller

/-- **A call**: it ended before anything went out, or went out. -/
inductive Call where
  | unsent (ending : Ending)
  | sent (v : Visit)

namespace Visit

/-- The visit goes on to another place. -/
def goTo (v : Visit) (place : Place) : Visit := { v with place }

/-- The visit is told to end. -/
def tell (v : Visit) (caller : Caller) : Visit := { v with isTold := true, caller }

/-- The call is over. -/
def close (v : Visit) (ending : Ending) : Visit := { v with caller := .returned ending }

end Visit

namespace Job

/-- The name that a job is about. -/
def name : Job → String
  | acquire claim => claim.name
  | release _ lease _ => lease.name

/-- **The conditional write of a job**, by a lock that goes by a name. -/
def write (identity : Value) : Job → Memory → Memory × Except Error LeaseRecord
  | acquire claim => (·.writeAcquire (claim.request identity))
  | release _ lease lockUntil => (·.writeRelease (lease.releaseRequest lockUntil))

/-- The job as one call on the store. -/
def call (identity : Value) : Job → World Memory → World Memory × Outcome LeaseRecord
  | acquire claim => Memory.store.tryUpdate (claim.request identity)
  | release _ lease lockUntil => Memory.store.update (lease.releaseRequest lockUntil)

/-- How a call ends that is cut short. -/
def cutShort : Job → Ending
  | acquire _ => .acquired (.error .cancelled)
  | release _ _ _ => .released none (.error .cancelled)

end Job

namespace Place

/-- What a visit came to, if it is over. -/
def result? : Place → Option (Option (Except Error LeaseRecord))
  | ended result => some result
  | _ => none

/-- Whether a visit waits at the gate. -/
def isQueueing : Place → Bool
  | queueing => true
  | _ => false

/-- A visit that has not come to the gate yet. -/
def IsBefore (p : Place) : Prop := p = starting ∨ p = pausing

/-- A visit on its way to the store. -/
def OnTheWay (p : Place) : Prop := p.IsBefore ∨ p = queueing

end Place

/-- An ending that tells of a write: a lease, or a lease given back. -/
def Ending.Wrote : Ending → Prop
  | acquired (.ok (some _)) => True
  | released (some .released) _ => True
  | _ => False

/-- Whether a call waits at the gate, and was told to end. -/
def Call.queued : Call → Option Bool
  | sent v => if v.place.isQueueing then some v.isTold else none
  | unsent _ => none

end Loop

/-- **An event loop**, with a store that may jitter. -/
structure Loop where
  world : World Memory
  jitters : Bool
  gate : Gate
  locks : Nat → Lock
  leases : Nat → Option Holding
  calls : Nat → Option Loop.Call

namespace Loop

/-- **What may happen next.**  An acquire comes with the clock's reading and the arguments as they were given, a release with
the number of the acquire that its lease came from. -/
inductive Event where
  | trouble (trouble : Memory.Trouble)
  | enter
  | exit
  | tryAcquire (call owner : Nat) (now : GivenTime) (name : Value) (atMost atLeast : GivenTime)
  | release (call number : Nat) (now : GivenTime)
  | turn (call : Nat)
  | interrupt (call : Nat) (cause : Cause)
  | resume (call : Nat)
  | quit (call : Nat)

/-- The number of the call that an event is a step of. -/
def Event.call? : Event → Option Nat
  | trouble _ => none
  | enter => none
  | exit => none
  | tryAcquire k _ _ _ _ _ => some k
  | release k _ _ => some k
  | turn k => some k
  | interrupt k _ => some k
  | resume k => some k
  | quit k => some k

/-! ## Changes -/

def setCall (k : Nat) (c : Call) (s : Loop) : Loop := { s with calls := Function.update s.calls k (some c) }

def setVisit (k : Nat) (v : Visit) (s : Loop) : Loop := s.setCall k (.sent v)

def setStore (m : Memory) (s : Loop) : Loop := { s with world := { s.world with store := m } }

/-- Changes the lock of a number, and the ledger. -/
def setLock (owner : Nat) (lock : Lock) (ledger : Ledger) (s : Loop) : Loop :=
  { s with world := { s.world with ledger }, locks := Function.update s.locks owner lock }

def setLease (number : Nat) (h : Holding) (s : Loop) : Loop :=
  { s with leases := Function.update s.leases number (some h) }

/-- Keeps the lease that an acquire came to. -/
def keep (number owner : Nat) (result : Except Error (Option Lease)) (s : Loop) : Loop :=
  match result with
  | .ok (some lease) => s.setLease number ⟨lease, owner⟩
  | _ => s

@[simp] theorem world_keep (n owner : Nat) (result : Except Error (Option Lease)) (s : Loop) :
    (s.keep n owner result).world = s.world := by
  unfold keep
  split <;> rfl

@[simp] theorem gate_keep (n owner : Nat) (result : Except Error (Option Lease)) (s : Loop) :
    (s.keep n owner result).gate = s.gate := by
  unfold keep
  split <;> rfl

@[simp] theorem locks_keep (n owner : Nat) (result : Except Error (Option Lease)) (s : Loop) :
    (s.keep n owner result).locks = s.locks := by
  unfold keep
  split <;> rfl

@[simp] theorem calls_keep (n owner : Nat) (result : Except Error (Option Lease)) (s : Loop) :
    (s.keep n owner result).calls = s.calls := by
  unfold keep
  split <;> rfl

/-- The lease of a number, as it is now: others may have released it meanwhile. -/
def leaseNow (number : Nat) (lease : Lease) (s : Loop) : Lease := ((s.leases number).map (·.lease)).getD lease

/-! ## The turn of a visit -/

/-- **Writes**, and ends with what the store says; `gate` is the gate afterwards. -/
def carryOut (k : Nat) (v : Visit) (gate : Gate) (s : Loop) : Loop :=
  let written := v.job.write (s.locks v.owner).identity s.world.store
  { s with
    world := ⟨written.1, Memory.noteApplied (.ofExcept written.2) s.world.ledger⟩
    gate }.setVisit k (v.goTo (.ended (some written.2)))

/-- **Comes to the store**: trouble may be in the way, and then the gate may be shut. -/
def arrive (k : Nat) (v : Visit) (s : Loop) : Loop :=
  match s.world.store.pass with
  | (m, .stuck) => (s.setStore m).setVisit k (v.goTo .hanging)
  | (m, .lost) => (s.setStore m).setVisit k (v.goTo (.ended (some (.error .injected))))
  | (_, .through) =>
    if s.gate.isOpen then s.carryOut k v s.gate.shut.leave
    else { s with gate := s.gate.join k }.setVisit k (v.goTo .queueing)

/-- **Ends where it waits.** -/
def cut (k : Nat) (v : Visit) (s : Loop) : Loop :=
  { s with gate := if v.place.isQueueing then s.gate.retreat k else s.gate }.setVisit k (v.goTo (.ended none))

/-- The next turn of a visit that was not told to end. -/
def goOn (k : Nat) (v : Visit) (s : Loop) : Option Loop :=
  match v.place with
  | .starting => some (if s.jitters then s.setVisit k (v.goTo .pausing) else s.arrive k v)
  | .pausing => some (s.arrive k v)
  | .queueing => if s.gate.isWoken k then some (s.carryOut k v (s.gate.drop k).shut.leave) else none
  | .hanging => none
  | .ended _ => none

/-- **A visit takes its turn.** -/
def turnOf (k : Nat) (v : Visit) (s : Loop) : Option Loop :=
  if v.place.result?.isSome then none
  else if v.isTold then some (s.cut k v)
  else s.goOn k v

/-! ## The end of a call -/

/-- **A call ends** with an outcome. -/
def settle (k : Nat) (v : Visit) (o : Outcome LeaseRecord) (s : Loop) : Loop :=
  match v.job with
  | .acquire claim =>
    let verdict := (s.locks v.owner).settleAcquire claim o s.world.ledger
    ((s.setLock v.owner verdict.1 verdict.2.1).keep k v.owner verdict.2.2).setVisit k
      (v.close (.acquired verdict.2.2))
  | .release number lease lockUntil =>
    let verdict := (s.locks v.owner).settleRelease (s.leaseNow number lease) lockUntil o s.world.ledger
    ((s.setLock v.owner verdict.1 verdict.2.2.1).setLease number ⟨verdict.2.1, v.owner⟩).setVisit k
      (v.close (.released (ReleaseOutcome.of? o) verdict.2.2.2))

/-- A caller is cut short. -/
def abandon (k : Nat) (v : Visit) (s : Loop) : Loop := s.setVisit k (v.close v.job.cutShort)

/-- A caller goes on with what its visit came to; a visit that was cut short cuts its caller short. -/
def close (k : Nat) (v : Visit) (result : Option (Except Error LeaseRecord)) (s : Loop) : Loop :=
  match result with
  | some r => s.settle k v (.ofExcept r)
  | none => s.abandon k v

/-- Tells a visit to end; its caller goes on waiting, or waits for the visit to stop. -/
def tell (k : Nat) (v : Visit) (caller : Caller) (s : Loop) : Loop :=
  { s with gate := s.gate.tell k }.setVisit k (v.tell caller)

/-- **A caller is interrupted.**  A visit that has ended counts all the same. -/
def interruptOf (k : Nat) (v : Visit) (cause : Cause) (s : Loop) : Option Loop :=
  match v.caller, v.place.result? with
  | .waiting, some result => some (s.close k v result)
  | .waiting, none => some (s.tell k v (.stopping cause))
  | .stopping _, _ => if cause = .cancellation then some (s.abandon k v) else none
  | .returned _, _ => none

/-- **A caller goes on** when its visit is over. -/
def resumeOf (k : Nat) (v : Visit) (s : Loop) : Option Loop :=
  match v.caller, v.place.result? with
  | .waiting, some result => some (s.close k v result)
  | .stopping .timeout, some (some r) => some (s.settle k v (.ofExcept r))
  | .stopping .timeout, some none => some (s.settle k v .silent)
  | .stopping .cancellation, some _ => some (s.abandon k v)
  | _, _ => none

/-- Somebody else tells a visit to end. -/
def quitOf (k : Nat) (v : Visit) (s : Loop) : Option Loop :=
  if v.place.result?.isSome then none else some (s.tell k v v.caller)

/-! ## The beginning of a call -/

/-- **An acquire begins** with its arguments being looked at. -/
def tryAcquire (k owner : Nat) (now : GivenTime) (name : Value) (atMost atLeast : GivenTime) (s : Loop) : Option Loop :=
  match s.calls k with
  | some _ => none
  | none => match Claim.ofGiven now name atMost atLeast with
    | .error e => some (s.setCall k (.unsent (.acquired (.error e))))
    | .ok claim => some (s.setVisit k ⟨owner, .acquire claim, .starting, false, .waiting⟩)

/-- What a release begins with: nothing is sent for a lease that is done with. -/
def releaseOf (k number : Nat) (h : Holding) (now : GivenTime) (s : Loop) : Loop :=
  if h.lease.released then
    { s with world := s.world.note .warning h.lease.doneText }.setCall k (.unsent (.released none (.ok ())))
  else match now.truncate with
    | .error e => s.setCall k (.unsent (.released none (.error e)))
    | .ok now =>
      s.setVisit k ⟨h.owner, .release number h.lease (h.lease.releaseUntil now), .starting, false, .waiting⟩

/-- **A release begins.** -/
def release (k number : Nat) (now : GivenTime) (s : Loop) : Option Loop :=
  match s.calls k, s.leases number with
  | none, some h => some (s.releaseOf k number h now)
  | _, _ => none

/-! ## Runs -/

/-- A step of a call that went out. -/
def visiting (k : Nat) (step : Visit → Option Loop) (s : Loop) : Option Loop :=
  match s.calls k with
  | some (.sent v) => step v
  | _ => none

/-- **What an event does.** -/
def next (s : Loop) : Event → Option Loop
  | .trouble t => some (s.setStore (t.befall s.world.store))
  | .enter => if s.gate.isOpen then some { s with gate := s.gate.shut } else none
  | .exit => if s.gate.isShut then some { s with gate := s.gate.leave } else none
  | .tryAcquire k owner now name atMost atLeast => s.tryAcquire k owner now name atMost atLeast
  | .release k number now => s.release k number now
  | .turn k => s.visiting k fun v => s.turnOf k v
  | .interrupt k cause => s.visiting k fun v => s.interruptOf k v cause
  | .resume k => s.visiting k fun v => s.resumeOf k v
  | .quit k => s.visiting k fun v => s.quitOf k v

/-- What events do, one after the other. -/
def run (s : Loop) : List Event → Option Loop
  | [] => some s
  | e :: es => do run (← s.next e) es

/-- A loop before the first call: any store with any trouble ahead, and any locks. -/
structure Fresh (s : Loop) : Prop where
  calls : ∀ k, s.calls k = none
  leases : ∀ n, s.leases n = none
  gate : s.gate = .clear

end Loop
end Leasehold
