/-
  Races: calls of any number of locks on one store, in any order.

  A call is made of three steps, and between them anybody else may take theirs: the clock is READ and the request goes
  out (`ask` for an acquire, `release` for a release), the request ARRIVES at the store, and the caller FINISHES with the
  answer.  A call that has no answer can be given up: its time runs out (`expire`), or its task is cancelled (`cancel`).
  A request that was given up before it arrived never arrives; one that has an answer is finished with this answer.

  * **`Race`** — the store, the clocks, the locks, where every call stands, and the chronicle of what was written;
  * **`Race.next`** — what an event does.  It is `none` where the event cannot happen: a call that has begun does not
    begin again, a lease has one release at a time, and a clock is never set back;
  * **`Race.Reachable`** — the states that events lead to.

  Nothing here knows which store it is.  What a store does with a request is the store's, what a lock makes of the outcome
  is the lock's (`Lock.settleAcquire`, `Lock.settleRelease`), and when nobody else takes a step between those of a call,
  the call is the one that the lock makes at once (`acquire_at_once`, `release_at_once`).
-/
import Mathlib.Logic.Function.Basic
import Leasehold.Fleet.State
import Leasehold.Lock.Acquire
import Leasehold.Lock.Release
import Leasehold.Proofs.Chronicle
import Leasehold.Proofs.Memory
namespace Leasehold

/-- A store, and the trouble of kind `τ` that may befall it. -/
structure Site (σ τ : Type) where
  store : LeaseStore σ
  befall : τ → σ → σ

/-- A store in memory, whose requests may be told to fail or to hang. -/
def Memory.site : Site Memory Memory.Trouble := ⟨Memory.store, Memory.Trouble.befall⟩

/-! ## Calls -/

/-- What a call asks of the store. -/
inductive Purpose where
  | acquire
  | release (lease : Lease) (lockUntil : Instant)

/-- **Where a call stands.**  A lease in hand may be released, and is then on its way again. -/
inductive Stage where
  | calling (purpose : Purpose)
  | called (purpose : Purpose) (outcome : Outcome LeaseRecord)
  | held (lease : Lease)
  | closed

namespace Stage

/-- The purpose of a call that has no answer, and may be given up. -/
def unanswered? : Stage → Option Purpose
  | calling purpose => some purpose
  | called purpose .silent => some purpose
  | _ => none

/-- The purpose of a call that has its outcome. -/
def answered? : Stage → Option (Purpose × Outcome LeaseRecord)
  | called _ .silent => none
  | called purpose outcome => some (purpose, outcome)
  | _ => none

/-- Where an acquire stands that came to a result. -/
def ofResult : Except Error (Option Lease) → Stage
  | .ok (some lease) => held lease
  | _ => closed

end Stage

/-- A call of a lock. -/
structure Attempt where
  owner : Nat
  claim : Claim
  stage : Stage

/-- **A race.** -/
structure Race (σ : Type) where
  world : World σ
  clocks : ClockChoice → DateTime
  members : Nat → Member
  attempts : Nat → Option Attempt
  history : Chronicle

/-- What may happen next. -/
inductive Event (τ : Type) where
  | clock (clock : ClockChoice) (reading : DateTime)
  | trouble (trouble : τ)
  | ask (call owner : Nat) (name : Value) (atMost atLeast : GivenTime)
  | arrive (call : Nat)
  | finish (call : Nat)
  | expire (call : Nat)
  | cancel (call : Nat)
  | release (call : Nat)

/-- The number of the call that an event is about. -/
def Event.call? {τ : Type} : Event τ → Option Nat
  | clock _ _ => none
  | trouble _ => none
  | ask k _ _ _ _ => some k
  | arrive k => some k
  | finish k => some k
  | expire k => some k
  | cancel k => some k
  | release k => some k

namespace Race

variable {σ τ : Type}

/-! ## Looks -/

/-- The lock of a number. -/
def lock (s : Race σ) (owner : Nat) : Lock := (s.members owner).lock

/-- What the clock of a lock shows. -/
def reading (s : Race σ) (owner : Nat) : DateTime := s.clocks (s.members owner).clock

/-- The lease that a call is about. -/
def leaseOf (s : Race σ) (a : Attempt) : Lease := .ofClaim a.claim (s.lock a.owner).identity

/-! ## Changes -/

/-- Tells what happened. -/
def tell (mark : Mark) (s : Race σ) : Race σ := { s with history := s.history ++ [mark] }

/-- Moves a call on. -/
def setStage (k : Nat) (a : Attempt) (stage : Stage) (s : Race σ) : Race σ :=
  { s with attempts := Function.update s.attempts k (some { a with stage }) }

/-- Changes the lock of a number, and the ledger. -/
def setLock (owner : Nat) (lock : Lock) (ledger : Ledger) (s : Race σ) : Race σ :=
  { s with
    world := { s.world with ledger }
    members := Function.update s.members owner { s.members owner with lock } }

@[simp] theorem lock_tell (mark : Mark) (s : Race σ) (n : Nat) : (s.tell mark).lock n = s.lock n := rfl

@[simp] theorem lock_setStage (k : Nat) (a : Attempt) (stage : Stage) (s : Race σ) (n : Nat) :
    (s.setStage k a stage).lock n = s.lock n := rfl

@[simp] theorem lock_setLock_self (owner : Nat) (lock : Lock) (ledger : Ledger) (s : Race σ) :
    (s.setLock owner lock ledger).lock owner = lock := by
  simp only [Race.lock, setLock, Function.update_self]

/-! ## Steps of a call -/

/-- **An acquire reads the clock**, and goes out if its arguments make sense. -/
def ask (k owner : Nat) (name : Value) (atMost atLeast : GivenTime) (s : Race σ) : Option (Race σ) :=
  match s.attempts k with
  | some _ => none
  | none => match Claim.ofGiven (.time (s.reading owner)) name atMost atLeast with
    | .error e => some (s.tell (.returned k (.error e)))
    | .ok claim => some { s with attempts := Function.update s.attempts k (some ⟨owner, claim, .calling .acquire⟩) }

/-- What a request makes of the store. -/
def carry (S : LeaseStore σ) (a : Attempt) (purpose : Purpose) (s : Race σ) : World σ × Outcome LeaseRecord :=
  match purpose with
  | .acquire => S.tryUpdate (a.claim.request (s.lock a.owner).identity) s.world
  | .release lease lockUntil => S.update (lease.releaseRequest lockUntil) s.world

/-- What is told of a request, if its write is applied. -/
def writeMark (k : Nat) (a : Attempt) (purpose : Purpose) (s : Race σ) : Mark :=
  match purpose with
  | .acquire => .acquired k (s.leaseOf a)
  | .release _ lockUntil => .released k lockUntil

/-- The chronicle of an outcome. -/
def markWritten (mark : Mark) : Outcome LeaseRecord → Chronicle
  | .answered _ => [mark]
  | _ => []

/-- **A request arrives** at the store. -/
def arriveWith (S : LeaseStore σ) (k : Nat) (a : Attempt) (purpose : Purpose) (s : Race σ) : Race σ :=
  let call := s.carry S a purpose
  { s.setStage k a (.called purpose call.2) with
    world := call.1
    history := s.history ++ markWritten (s.writeMark k a purpose) call.2 }

def arrive (S : LeaseStore σ) (k : Nat) (s : Race σ) : Option (Race σ) :=
  match s.attempts k with
  | some a => match a.stage with
    | .calling purpose => some (s.arriveWith S k a purpose)
    | _ => none
  | none => none

/-- **A call ends** with an outcome. -/
def settle (k : Nat) (a : Attempt) (purpose : Purpose) (outcome : Outcome LeaseRecord) (s : Race σ) : Race σ :=
  match purpose with
  | .acquire =>
    let verdict := (s.lock a.owner).settleAcquire a.claim outcome s.world.ledger
    ((s.setLock a.owner verdict.1 verdict.2.1).setStage k a (.ofResult verdict.2.2)).tell (.returned k verdict.2.2)
  | .release lease lockUntil =>
    let verdict := (s.lock a.owner).settleRelease lease lockUntil outcome s.world.ledger
    ((s.setLock a.owner verdict.1 verdict.2.2.1).setStage k a (.held verdict.2.1)).tell (.settled k verdict.2.2.2)

/-- A call that has its outcome is finished. -/
def finish (k : Nat) (s : Race σ) : Option (Race σ) := do
  let a ← s.attempts k
  let (purpose, outcome) ← a.stage.answered?
  return s.settle k a purpose outcome

/-- The time of a call that has no answer runs out. -/
def expire (k : Nat) (s : Race σ) : Option (Race σ) := do
  let a ← s.attempts k
  let purpose ← a.stage.unanswered?
  return s.settle k a purpose .silent

/-- A call is cut short, and whoever made it sees only that. -/
def abandon (k : Nat) (a : Attempt) (purpose : Purpose) (s : Race σ) : Race σ :=
  match purpose with
  | .acquire => (s.setStage k a .closed).tell (.returned k (.error .cancelled))
  | .release lease _ => (s.setStage k a (.held lease)).tell (.settled k (.error .cancelled))

/-- A call that has no answer is cancelled. -/
def cancel (k : Nat) (s : Race σ) : Option (Race σ) := do
  let a ← s.attempts k
  let purpose ← a.stage.unanswered?
  return s.abandon k a purpose

/-- **A release reads the clock**, and goes out unless the lease is done with. -/
def releaseWith (k : Nat) (a : Attempt) (lease : Lease) (s : Race σ) : Race σ :=
  if lease.released then { s with world := s.world.note .warning lease.doneText }.tell (.settled k (.ok ()))
  else match (GivenTime.time (s.reading a.owner)).truncate with
    | .error e => s.tell (.settled k (.error e))
    | .ok now => s.setStage k a (.calling (.release lease (lease.releaseUntil now)))

def release (k : Nat) (s : Race σ) : Option (Race σ) :=
  match s.attempts k with
  | some a => match a.stage with
    | .held lease => some (s.releaseWith k a lease)
    | _ => none
  | none => none

/-- A clock goes on. -/
def setClock (c : ClockChoice) (reading : DateTime) (s : Race σ) : Option (Race σ) :=
  if (s.clocks c).position ≤ reading.position then some { s with clocks := Function.update s.clocks c reading }
  else none

/-! ## Runs -/

/-- **What an event does.** -/
def next (site : Site σ τ) (s : Race σ) : Event τ → Option (Race σ)
  | .clock c reading => s.setClock c reading
  | .trouble t => some { s with world := { s.world with store := site.befall t s.world.store } }
  | .ask k owner name atMost atLeast => s.ask k owner name atMost atLeast
  | .arrive k => s.arrive site.store k
  | .finish k => s.finish k
  | .expire k => s.expire k
  | .cancel k => s.cancel k
  | .release k => s.release k

/-- What events do, one after the other. -/
def run (site : Site σ τ) (s : Race σ) : List (Event τ) → Option (Race σ)
  | [] => some s
  | e :: es => do run site (← s.next site e) es

/-- A race before the first call: any store, any clocks and any locks. -/
structure Fresh (s : Race σ) : Prop where
  attempts : ∀ k, s.attempts k = none
  history : s.history = []

/-- **The states that events lead to.** -/
inductive Reachable (site : Site σ τ) : Race σ → Prop where
  | fresh {s : Race σ} (h : s.Fresh) : Reachable site s
  | next {s s' : Race σ} (h : Reachable site s) (e : Event τ) (hn : s.next site e = some s') : Reachable site s'

theorem Reachable.run {site : Site σ τ} {s s' : Race σ} (h : Reachable site s) {es : List (Event τ)}
    (hr : s.run site es = some s') : Reachable site s' := by
  induction es generalizing s with
  | nil =>
    cases hr
    exact h
  | cons e es ih =>
    obtain ⟨s₁, hn, hr⟩ := Option.bind_eq_some_iff.mp hr
    exact ih (h.next e hn) hr

/-! ## Calls that nobody disturbs -/

/-- **An acquire whose steps follow each other** does to the store, and to the lock, what the lock does at once. -/
theorem acquire_at_once (S : LeaseStore σ) (k : Nat) (a : Attempt) (s : Race σ) :
    let s₁ := s.arriveWith S k a .acquire
    let s₂ := s₁.settle k a .acquire (s.carry S a .acquire).2
    let (world, lock, _) := (s.lock a.owner).tryAcquire S a.claim s.world
    s₂.world = world ∧ s₂.lock a.owner = lock := by
  refine ⟨rfl, ?_⟩
  simp only [settle, lock_tell, lock_setStage, lock_setLock_self]
  rfl

/-- **A release whose steps follow each other** likewise. -/
theorem release_at_once (S : LeaseStore σ) (k : Nat) (a : Attempt) (s : Race σ) {lease : Lease}
    (hopen : lease.released = false) {now : Instant} {reading : GivenTime} (hnow : reading.truncate = .ok now) :
    let purpose := Purpose.release lease (lease.releaseUntil now)
    let s₁ := s.arriveWith S k a purpose
    let s₂ := s₁.settle k a purpose (s.carry S a purpose).2
    let (world, lock, after, _) := (s.lock a.owner).release S lease reading s.world
    s₂.world = world ∧ s₂.lock a.owner = lock ∧ (s₂.attempts k).map (·.stage) = some (.held after) := by
  simp only [Lock.release, hopen, hnow, Bool.false_eq_true, if_false]
  refine ⟨rfl, ?_, ?_⟩
  · simp only [settle, lock_tell, lock_setStage, lock_setLock_self]
    rfl
  · simp only [settle, tell, setStage, Function.update_self]
    rfl

end Race
end Leasehold
