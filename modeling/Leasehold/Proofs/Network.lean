/-
  Locks and a lease node over a network that delays, reorders and loses messages.

  Every lock has a client of its own, and there is one node and one clock.  A call sends a REQUEST; the request may arrive at
  the node, at any time and after any other, or be lost; what the node makes of it is a REPLY, which may be heard, at any
  time, or be lost.  Nothing is delivered twice.  Whoever waits for a reply may give up at any moment (`expire`, `cancel`), or
  see the exchange break down (`fail`); the request stays on its way all the same.

  * **`Network`** — the node, the clock, the clients' stations, where every call stands (`Bid`), the messages on their way by
    their numbers, and the acquires that were applied, the newest first;
  * **`Network.next`** — what an event does, `none` where it cannot happen;
  * **`Network.Reachable`** — the states that events lead to.

  Nothing of the client and the node is told anew: what is sent is what the client sends, what the node makes of it is the
  node's (`NodeParty.send`), what is heard is what the client makes of a delivery, and the verdict is the lock's.  When nobody
  else takes a step between those of a call, the call is the one that the client makes at once (`call_at_once`).
-/
import Leasehold.Proofs.Client
import Leasehold.Proofs.Race
namespace Leasehold

open Http

/-- A lock with its client, in a process of their own. -/
structure Station where
  lock : Lock
  world : World (HttpStore Unit)

/-- The client of a station. -/
def Station.client (st : Station) : Client := st.world.store.client

namespace Purpose

/-- The path that a call goes to. -/
def path : Purpose → String
  | acquire => "/api/lease/acquire"
  | release _ _ => "/api/lease/update"

/-- What a call sends. -/
def payload (c : Claim) (identity : Value) : Purpose → Except Error Value
  | acquire => HttpStore.acquirePayload (c.request identity)
  | release lease lockUntil => HttpStore.releasePayload (lease.releaseRequest lockUntil)

/-- **What a client makes of a delivery.** -/
def heard (c : Claim) (d : Delivery) (st : Station) : Purpose → World (HttpStore Unit) × Outcome LeaseRecord
  | acquire => (HttpStore.store d.party).tryUpdate (c.request st.lock.identity) st.world
  | release lease lockUntil => (HttpStore.store d.party).update (lease.releaseRequest lockUntil) st.world

end Purpose

/-- Where a call stands: it waits for the reply to a message, or it is at rest. -/
inductive Standing where
  | waiting (purpose : Purpose) (number : Nat)
  | held (lease : Lease)
  | closed

/-- Where an acquire stands that came to a result. -/
def Standing.ofResult : Except Error (Option Lease) → Standing
  | .ok (some lease) => held lease
  | _ => closed

/-- **An acquire and what follows from it**: whether anybody called for the release of its lease is kept for good. -/
structure Bid where
  owner : Nat
  claim : Claim
  standing : Standing
  surrendered : Bool

/-- A request on its way. -/
structure Message where
  bid : Nat
  purpose : Purpose
  call : Call

/-- A reply on its way. -/
structure Reply where
  bid : Nat
  delivery : Delivery

/-- **A network.** -/
structure Network where
  node : World NodeParty
  clock : DateTime
  stations : Nat → Station
  bids : Nat → Option Bid
  requests : Nat → Option Message
  replies : Nat → Option Reply
  posted : Nat
  granted : List (Nat × Claim)

instance (d : Delivery) : Decidable d.Granting :=
  match d with
  | .response status _ => inferInstanceAs (Decidable (status = 200))
  | .broken _ => inferInstanceAs (Decidable False)

namespace Network

/-- What may happen next. -/
inductive Event where
  | clock (reading : DateTime)
  | trouble (trouble : Memory.Trouble)
  | ask (bid owner : Nat) (name : Value) (atMost atLeast : GivenTime)
  | release (bid : Nat)
  | deliver (number : Nat)
  | loseRequest (number : Nat)
  | loseReply (number : Nat)
  | hear (number : Nat)
  | fail (bid : Nat) (e : Error)
  | expire (bid : Nat)
  | cancel (bid : Nat)

/-! ## Looks -/

/-- The store of the node. -/
def memory (s : Network) : Memory := s.node.store.node.memory

/-- When the node's record of a name ends. -/
def endOf (s : Network) (name : String) : Option Instant := s.memory.endOf name

/-- The last acquire that was applied to a name. -/
def lastGrant (s : Network) (name : String) : Option (Nat × Claim) := s.granted.find? (·.2.name = name)

/-! ## Changes -/

/-- Puts a call where it stands now. -/
def install (k : Nat) (b : Bid) (s : Network) : Network := { s with bids := Function.update s.bids k (some b) }

@[simp] theorem bids_install_self (k : Nat) (b : Bid) (s : Network) : (s.install k b).bids k = some b :=
  Function.update_self ..

theorem bids_install_other {j k : Nat} (hj : j ≠ k) (b : Bid) (s : Network) : (s.install k b).bids j = s.bids j :=
  Function.update_of_ne hj ..

def setStation (owner : Nat) (st : Station) (s : Network) : Network :=
  { s with stations := Function.update s.stations owner st }

def dropRequest (n : Nat) (s : Network) : Network := { s with requests := Function.update s.requests n none }

def dropReply (n : Nat) (s : Network) : Network := { s with replies := Function.update s.replies n none }

/-- Sends a message, for which its call waits. -/
def post (k : Nat) (b : Bid) (purpose : Purpose) (call : Call) (s : Network) : Network :=
  { s.install k { b with standing := .waiting purpose s.posted } with
    requests := Function.update s.requests s.posted (some ⟨k, purpose, call⟩)
    posted := s.posted + 1 }

/-! ## Steps of a call -/

/-- **A call ends** with an outcome. -/
def settle (k : Nat) (b : Bid) (purpose : Purpose) (outcome : Outcome LeaseRecord) (s : Network) : Network :=
  let st := s.stations b.owner
  match purpose with
  | .acquire =>
    let verdict := st.lock.settleAcquire b.claim outcome st.world.ledger
    (s.setStation b.owner ⟨verdict.1, { st.world with ledger := verdict.2.1 }⟩).install k
      { b with standing := .ofResult verdict.2.2 }
  | .release lease lockUntil =>
    let verdict := st.lock.settleRelease lease lockUntil outcome st.world.ledger
    (s.setStation b.owner ⟨verdict.1, { st.world with ledger := verdict.2.2.1 }⟩).install k
      { b with standing := .held verdict.2.1 }

/-- **A call begins**: its client sends a request, if there is anything that can be sent. -/
def begin (k : Nat) (b : Bid) (purpose : Purpose) (s : Network) : Network :=
  let st := s.stations b.owner
  match purpose.payload b.claim st.lock.identity with
  | .error e => s.settle k b purpose (.failed e)
  | .ok v =>
    let opened := HttpStore.ensureOpen (Delivery.broken .timedOut).party st.world
    (s.setStation b.owner { st with world := opened }).post k b purpose (st.client.callOf purpose.path v)

/-- **An acquire reads the clock**, and goes out if its arguments make sense. -/
def ask (k owner : Nat) (name : Value) (atMost atLeast : GivenTime) (s : Network) : Option Network :=
  match s.bids k with
  | some _ => none
  | none => match Claim.ofGiven (.time s.clock) name atMost atLeast with
    | .error _ => some s
    | .ok claim => some (s.begin k ⟨owner, claim, .closed, false⟩ .acquire)

/-- **A release reads the clock**, and goes out unless the lease is done with. -/
def releaseWith (k : Nat) (b : Bid) (lease : Lease) (s : Network) : Network :=
  let b := { b with surrendered := true }
  if lease.released then
    let st := s.stations b.owner
    (s.setStation b.owner { st with world := st.world.note .warning lease.doneText }).install k b
  else match (GivenTime.time s.clock).truncate with
    | .error _ => s.install k b
    | .ok now => s.begin k b (.release lease (lease.releaseUntil now))

def release (k : Nat) (s : Network) : Option Network :=
  match s.bids k with
  | some b => match b.standing with
    | .held lease => some (s.releaseWith k b lease)
    | _ => none
  | none => none

/-- The acquires that a delivery is the answer to, if it says that the write was applied. -/
def grants (m : Message) (d : Delivery) (s : Network) : List (Nat × Claim) :=
  match m.purpose, s.bids m.bid with
  | .acquire, some b => if d.Granting then [(m.bid, b.claim)] else []
  | _, _ => []

/-- **A request arrives** at the node, and its reply is on its way. -/
def deliverWith (n : Nat) (m : Message) (s : Network) : Network :=
  let answer := NodeParty.send m.call s.node
  { s.dropRequest n with
    node := answer.1
    replies := Function.update s.replies n (some ⟨m.bid, answer.2⟩)
    granted := s.grants m answer.2 ++ s.granted }

def deliver (n : Nat) (s : Network) : Option Network := (s.requests n).map fun m => s.deliverWith n m

/-- The purpose of a call that waits for a reply. -/
def waitsFor (b : Bid) (n : Nat) : Option Purpose :=
  match b.standing with
  | .waiting purpose number => if number = n then some purpose else none
  | _ => none

/-- What comes of a delivery for the call that waits for it. -/
def hearWith (k : Nat) (b : Bid) (purpose : Purpose) (d : Delivery) (s : Network) : Network :=
  let st := s.stations b.owner
  let call := purpose.heard b.claim d st
  (s.setStation b.owner { st with world := call.1 }).settle k b purpose call.2

/-- **A reply is heard**, by the call that still waits for it. -/
def hear (n : Nat) (s : Network) : Option Network := do
  let r ← s.replies n
  let b ← s.bids r.bid
  let purpose ← waitsFor b n
  return (s.dropReply n).hearWith r.bid b purpose r.delivery

/-- A call that waits for a reply. -/
def waiting (k : Nat) (s : Network) : Option (Bid × Purpose) :=
  match s.bids k with
  | some b => match b.standing with
    | .waiting purpose _ => some (b, purpose)
    | _ => none
  | none => none

/-- A call is cut short, and whoever made it sees only that. -/
def abandon (k : Nat) (b : Bid) (purpose : Purpose) (s : Network) : Network :=
  match purpose with
  | .acquire => s.install k { b with standing := .closed }
  | .release lease _ => s.install k { b with standing := .held lease }

/-- The clock goes on. -/
def setClock (reading : DateTime) (s : Network) : Option Network :=
  if s.clock.position ≤ reading.position then some { s with clock := reading } else none

/-- Trouble befalls the node's store. -/
def befall (t : Memory.Trouble) (s : Network) : Network :=
  let p := s.node.store
  { s with node := ⟨{ p with node := { p.node with memory := t.befall p.node.memory } }, s.node.ledger⟩ }

/-! ## Runs -/

/-- **What an event does.** -/
def next (s : Network) : Event → Option Network
  | .clock reading => s.setClock reading
  | .trouble t => some (s.befall t)
  | .ask k owner name atMost atLeast => s.ask k owner name atMost atLeast
  | .release k => s.release k
  | .deliver n => s.deliver n
  | .loseRequest n => some (s.dropRequest n)
  | .loseReply n => some (s.dropReply n)
  | .hear n => s.hear n
  | .fail k e => (s.waiting k).map fun w => s.hearWith k w.1 w.2 (.broken e)
  | .expire k => (s.waiting k).map fun w => s.settle k w.1 w.2 .silent
  | .cancel k => (s.waiting k).map fun w => s.abandon k w.1 w.2

/-- What events do, one after the other. -/
def run (s : Network) : List Event → Option Network
  | [] => some s
  | e :: es => do run (← s.next e) es

/-- **A network before the first call**: any node, any clock, and clients that reach the node, for locks that know who
they are by a text. -/
structure Fresh (s : Network) : Prop where
  bids : ∀ k, s.bids k = none
  requests : ∀ n, s.requests n = none
  replies : ∀ n, s.replies n = none
  granted : s.granted = []
  identity : ∀ n, ∃ identity, (s.stations n).lock.identity = .text identity
  reaches : ∀ n, (s.stations n).client.Reaches

/-- **The states that events lead to.** -/
inductive Reachable : Network → Prop where
  | fresh {s : Network} (h : s.Fresh) : Reachable s
  | next {s s' : Network} (h : Reachable s) (e : Event) (hn : s.next e = some s') : Reachable s'

theorem Reachable.run {s s' : Network} (h : Reachable s) {es : List Event} (hr : s.run es = some s') : Reachable s' := by
  induction es generalizing s with
  | nil =>
    cases hr
    exact h
  | cons e es ih =>
    obtain ⟨s₁, hn, hr⟩ := Option.bind_eq_some_iff.mp hr
    exact ih (h.next e hn) hr

end Network
end Leasehold
