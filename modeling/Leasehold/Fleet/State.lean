/-
  A fleet: locks that share one store, each with a clock.

  Clocks, locks and leases have names.  A lock keeps the clock it was made with even when the clock's name passes to
  another one; a lock without a clock of its own goes by whichever clock is called `main`.  A lease remembers the lock
  that gave it out.

  Everything a fleet does is done by one process: it has one ledger, one host, and one set of settings.
-/
import Leasehold.CommandLine.Commands
import Leasehold.Fleet.Pool
import Leasehold.Lease.Clock
import Leasehold.Store.Backend
namespace Leasehold

/-- The clock of a lock. -/
inductive ClockChoice where
  | own (number : Nat)
  | system
  deriving DecidableEq, Repr

/-- A lock with its clock. -/
structure Member where
  lock : Lock
  clock : ClockChoice
  deriving Repr

/-- A lease with the number of the lock that gave it out. -/
structure Holding where
  lease : Lease
  owner : Nat
  deriving Repr

/-- **A fleet.** -/
structure Fleet where
  world : World Backend
  settings : Settings
  host : HostName
  spawn : List String → Except Error (Int × String)
  start : DateTime
  clocks : Pool Clock
  members : Pool Member
  holdings : Pool Holding

namespace Fleet

/-- The name of the clock that everybody goes by who has no clock of their own. -/
def mainClock : String := "main"

/-- **A new fleet** over a store, at a time. -/
def create (settings : Settings) (host : HostName) (spawn : List String → Except Error (Int × String))
    (start : DateTime) (store : Backend) (ledger : Ledger) : Except Error Fleet := do
  let clock ← Clock.start (.time start)
  return {
    world := ⟨store, ledger⟩
    settings
    host
    spawn
    start
    clocks := Pool.empty.addNamed mainClock clock
    members := .empty
    holdings := .empty }

/-! ## Clocks -/

/-- What the clock called `main` shows. -/
def now (f : Fleet) : GivenTime := ((f.clocks.named? mainClock).map (·.now)).getD .none

/-- What the clock of a lock shows. -/
def nowFor (f : Fleet) : ClockChoice → GivenTime
  | .own n => ((f.clocks.get? n).map (·.now)).getD .none
  | .system => f.now

/-- Changes the clock of a name. -/
def onClock (name : String) (change : Clock → Except Error Clock) (f : Fleet) : Fleet × Except Error GivenTime :=
  match f.clocks.find? name with
  | some n => match f.clocks.get? n with
    | some clock => match change clock with
      | .ok clock => ({ f with clocks := f.clocks.set n clock }, .ok clock.now)
      | .error e => (f, .error e)
    | Option.none => (f, .error (.missingKey name))
  | Option.none => (f, .error (.missingKey name))

/-! ## The store -/

/-- **Makes a call on the store**, after its node was told the time. -/
def useStore {α : Type} (call : World Backend → World Backend × α) (f : Fleet) : Fleet × α :=
  let (world, a) := call { f.world with store := f.world.store.atTime f.now }
  ({ f with world }, a)

/-- Adds an entry to the journal. -/
def note (level : Level) (text : String) (f : Fleet) : Fleet := { f with world := f.world.note level text }

/-! ## Acquiring and releasing -/

/-- Settles an acquire of a lock whose call has an outcome; a lease goes into the pool, and its number comes back. -/
def settleAcquire (owner : Nat) (claim : Claim) (outcome : Outcome LeaseRecord) (f : Fleet) :
    Fleet × Except Error (Option Nat) :=
  match f.members.get? owner with
  | Option.none => (f, .ok Option.none)
  | some member =>
    let (lock, ledger, result) := member.lock.settleAcquire claim outcome f.world.ledger
    let f := { f with world := { f.world with ledger }, members := f.members.set owner { member with lock } }
    match result with
    | .error e => (f, .error e)
    | .ok Option.none => (f, .ok Option.none)
    | .ok (some lease) =>
      let (holdings, n) := f.holdings.add ⟨lease, owner⟩
      ({ f with holdings }, .ok (some n))

/-- A release that has to ask the store: the lock it belongs to, and the end to write. -/
structure Releasing where
  lease : Lease
  lock : Lock
  lockUntil : Instant

/-- Looks what a release has to do: nothing if the lease is done with. -/
def beginRelease (number : Nat) (f : Fleet) : Fleet × Except Error (Option Releasing) :=
  match f.holdings.get? number with
  | Option.none => (f, .ok Option.none)
  | some h => match f.members.get? h.owner with
    | Option.none => (f, .ok Option.none)
    | some member =>
      if h.lease.released then (f.note .warning h.lease.doneText, .ok Option.none)
      else match (f.nowFor member.clock).truncate with
        | .error e => (f, .error e)
        | .ok now => (f, .ok (some ⟨h.lease, member.lock, h.lease.releaseUntil now⟩))

/-- Settles a release whose call has an outcome. -/
def settleRelease (number : Nat) (lockUntil : Instant) (outcome : Outcome LeaseRecord) (f : Fleet) :
    Fleet × Except Error Unit :=
  match f.holdings.get? number with
  | Option.none => (f, .ok ())
  | some h => match f.members.get? h.owner with
    | Option.none => (f, .ok ())
    | some member =>
      let (lock, lease, ledger, result) := member.lock.settleRelease h.lease lockUntil outcome f.world.ledger
      ({ f with
          world := { f.world with ledger }
          members := f.members.set h.owner { member with lock }
          holdings := f.holdings.set number { h with lease } }, result)

/-! ## What a look at a fleet shows -/

/-- A record as a person sees it, its times in full. -/
def recordFields (d : RecordDraft) : List (String × Value) :=
  [("name", d.name), ("lock_until", .text d.lockUntil.iso),
   ("locked_at", match d.lockedAt with | some t => .text t.iso | Option.none => .null),
   ("locked_by", d.lockedBy)]

/-- A record as a value. -/
def recordValue (r : LeaseRecord) : Value := .object (recordFields (.ofRecord r))

/-- A lease as a value. -/
def leaseValue (l : Lease) : Value :=
  let full (i : Instant) : Value := .text (DateTime.utc i).iso
  .object [("repr", .text l.shown), ("name", .text l.name), ("at_most", full l.atMost), ("at_least", full l.atLeast),
    ("locked_at", full l.takenAt), ("locked_by", l.lockedBy), ("released", .bool l.released)]

/-- The lease of a number as a value. -/
def holdingValue (number : Nat) (f : Fleet) : Value :=
  ((f.holdings.get? number).map fun h => leaseValue h.lease).getD .null

/-- **The state of a fleet**: the statistics of its locks, which leases are done with, and the store. -/
def fields (f : Fleet) : List (String × Value) :=
  [("locks", .object (f.members.named.map fun (name, m) => (name, .object m.lock.stats))),
   ("released", .object (f.holdings.named.map fun (name, h) => (name, .bool h.lease.released)))]
  ++ f.world.store.fields

/-- Counts with their labels as an array. -/
def rowsValue (rows : List (List String × Nat)) : Value :=
  .list (rows.map fun (labels, n) => .list (labels.map Value.text ++ [.int n]))

/-- The metrics of the process as a value. -/
def metricsValue (f : Fleet) : Value :=
  let m := f.world.ledger.metrics
  .object [("acquire", rowsValue m.acquireRows), ("release", rowsValue m.releaseRows),
    ("latency_counts", rowsValue m.storeCallRows), ("requests", rowsValue m.requestRows),
    ("request_latency_counts", rowsValue m.requestRows), ("lease_records", .int m.leaseRecords)]

end Fleet
end Leasehold
