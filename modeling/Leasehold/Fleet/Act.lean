/-
  Acts: what a fleet can be told to do at once.

  An act that calls the store has two parts, the call and what is made of its outcome, and other acts may come between
  them: so an act is a fiber.  A raw call is made in the fiber itself and waits for its answer for ever.  A lock's call
  is made in a fiber of its own and waits no longer than the lock does (`callWithin`): it is made one turn later, and
  its outcome is known two turns after that.
-/
import Leasehold.Fleet.Process
import Leasehold.Fleet.State
namespace Leasehold

/-! ## Acts -/

/-- A time as an act tells it: so many microseconds after the start of the fleet, or from now, or as it is. -/
inductive TimeSpec where
  | fromStart (micros : Int)
  | fromNow (micros : Int)
  | given (t : GivenTime)
  deriving Repr

/-- Replies made up in advance, for the party behind the store. -/
inductive Replies where
  | table (replies : List Dynamo.Reply)
  | scripted (replies : List Http.ScriptedReply)
  | canned (replies : List Http.CannedReply)

/-- A command of the command line on the fleet's own store. -/
inductive StoreCommand where
  | createTable (label : Value)
  | status (name : Value)
  | run (terms : List GivenDuration) (words : List String)
  deriving Repr

/-- **An act.** -/
inductive Act where
  -- clocks
  | advance (by_ : GivenDuration) (clock : String)
  | setClock (reading : TimeSpec) (clock : String)
  | newClock (name : String) (start : TimeSpec)
  -- locks and leases
  | newLock (name : String) (identity timeout : Value) (clock : Option String)
  | acquire (lock : String) (name : Value) (atMost atLeast : TimeSpec) (lease : String)
  | release (lease : String)
  -- the store
  | tryUpdate (name : Value) (lockUntil lockedAt : TimeSpec) (lockedBy : Value) (availableAt : TimeSpec)
  | update (name : Value) (lockUntil heldUntil : TimeSpec)
  | get (name : Value)
  | createTable (arguments : List (String × Value))
  | deleteTable
  | close
  | command (c : StoreCommand)
  -- looks
  | isLocked (name : Value) (now : TimeSpec)
  | lockedNames (now : TimeSpec)
  | size
  | state
  | metrics
  -- the other side of the store
  | fail (count : Int)
  | hang (count : Int)
  | reply (replies : Replies)
  | redis (words : List Value)
  | outage (reason : Option String)
  | request (req : Http.Request)

instance : Inhabited Act := ⟨.state⟩

/-! ## Answers -/

/-- What an act answers: a value, or the response to a request. -/
inductive ActAnswer where
  | value (v : Value)
  | response (r : Http.Response)

/-! ## The work of acts -/

namespace Fleet

/-- The time that an act tells. -/
def resolve (f : Fleet) : TimeSpec → Except Error GivenTime
  | .fromStart n => do (GivenTime.time f.start).add (← (Duration.ofMicros n).mapError Error.time)
  | .fromNow n => do f.now.add (← (Duration.ofMicros n).mapError Error.time)
  | .given t => .ok t

/-! ## Calls -/

section

variable {ω β α : Type}

/-- An answer that is there at once. -/
def answer (r : Except Error Value) : Fiber Fleet ω β (Except Error ActAnswer) := .done (r.map .value)

/-- Changes the fleet, and answers with a value. -/
def changing (work : Fleet → Fleet × Except Error Value) : Fiber Fleet ω β (Except Error ActAnswer) := do
  return (← Fiber.act work).map .value

/-- Changes the fleet without an answer. -/
def quietly (work : Fleet → Fleet) : Fiber Fleet ω β (Except Error ActAnswer) :=
  changing fun f => (work f, .ok .null)

/-- Makes a call on the store, over the distance that lies between. -/
def call (work : World Backend → World Backend × α) : Fiber Fleet ω β α := do
  let distance ← Fiber.see fun f => f.world.store.distance
  Fiber.turns distance
  let a ← Fiber.act (·.useStore work)
  Fiber.turns distance
  return a

/-- **Makes a raw call on the store**, and waits for its outcome. -/
def callRaw (work : World Backend → World Backend × Outcome α) : Fiber Fleet ω β (Except Error α) := do
  match ← call work with
  | .answered a => return .ok a
  | .failed e => return .error e
  | .silent =>
    let _ ← Fiber.pause .ever
    return .error .cancelled

/-- The microseconds in a time to wait; a time without end, or past counting, is as good as a very long one. -/
def microsOf (timeout : Value) : Nat :=
  match (GivenDuration.value timeout).resolve with
  | .ok d => d.micros.toNat
  | .error _ => Nat.pow 10 30

/-- **Makes a call on the store in a fiber of its own**, and waits for its outcome so long at most; none if the wait was
cut short.  A call that has to be given up is ended before its caller goes on. -/
def callWithin (timeout : Value) (work : World Backend → World Backend × Outcome α) :
    Fiber Fleet ω β (Option (Outcome α)) := do
  Fiber.turns 1
  match ← call work with
  | .silent =>
    match ← Fiber.pause (.time (microsOf timeout)) with
    | .due => do
      Fiber.turns 4
      return some .silent
    | .cut => do
      Fiber.turns 3
      return Option.none
  | outcome =>
    Fiber.turns 2
    return some outcome

/-- A raw call as an act. -/
def callStore (work : World Backend → World Backend × Outcome α) (view : α → ActAnswer) :
    Fiber Fleet ω β (Except Error ActAnswer) := do
  return (← callRaw work).map view

/-! ## Locks and leases -/

/-- The clock that a lock is made with. -/
def chooseClock (f : Fleet) : Option String → Except Error ClockChoice
  | Option.none => .ok .system
  | some name => match f.clocks.find? name with
    | some n => .ok (.own n)
    | Option.none => .error (.missingKey name)

/-- Makes a lock. -/
def makeLock (identity timeout : Value) (f : Fleet) : Fleet × Except Error Lock :=
  let (ledger, made) := Lock.make f.settings f.host identity timeout f.world.ledger
  ({ f with world := { f.world with ledger } }, made)

/-- Makes a lock under a name. -/
def newLock (name : String) (identity timeout : Value) (clock : Option String) (f : Fleet) :
    Fleet × Except Error Value :=
  match f.chooseClock clock with
  | .error e => (f, .error e)
  | .ok clock => match f.makeLock identity timeout with
    | (f, .error e) => (f, .error e)
    | (f, .ok lock) =>
      ({ f with members := f.members.addNamed name ⟨lock, clock⟩ },
        .ok (.object [("identity", lock.identity), ("timeout", .text lock.timeout.literal)]))

/-- The claim that an act asks for. -/
def claimFor (member : Member) (name : Value) (atMost atLeast : TimeSpec) (f : Fleet) : Except Error Claim := do
  let atMost ← f.resolve atMost
  let atLeast ← f.resolve atLeast
  Claim.ofGiven (f.nowFor member.clock) name atMost atLeast

/-- **Acquires**: the number of the lease comes back if there is one. -/
def acquire (owner : Nat) (member : Member) (claim : Claim) : Fiber Fleet ω β (Except Error (Option Nat)) := do
  match ← callWithin member.lock.timeout (Backend.store.tryUpdate (claim.request member.lock.identity)) with
  | some outcome => Fiber.act (·.settleAcquire owner claim outcome)
  | Option.none => return .error .cancelled

/-- **Releases** the lease of a number. -/
def release (number : Nat) : Fiber Fleet ω β (Except Error Unit) := do
  match ← Fiber.act (·.beginRelease number) with
  | .error e => return .error e
  | .ok Option.none => return .ok ()
  | .ok (some r) =>
    match ← callWithin r.lock.timeout (Backend.store.update (r.lease.releaseRequest r.lockUntil)) with
    | some outcome => Fiber.act (·.settleRelease number r.lockUntil outcome)
    | Option.none => return .error .cancelled

/-- Gives a name to the lease of a number, and shows the lease. -/
def nameLease (name : String) (number : Nat) (f : Fleet) : Fleet × Except Error Value :=
  let f := { f with holdings := { f.holdings with names := Pool.rename name number f.holdings.names } }
  (f, .ok (f.holdingValue number))

/-- An acquire as an act. -/
def actAcquire (lock : String) (name : Value) (atMost atLeast : TimeSpec) (lease : String) :
    Fiber Fleet ω β (Except Error ActAnswer) := do
  match ← Fiber.see fun f => (f.members.find? lock, f.members.named? lock, f) with
  | (some owner, some member, f) =>
    match f.claimFor member name atMost atLeast with
    | .error e => return .error e
    | .ok claim =>
      match ← acquire owner member claim with
      | .error e => return .error e
      | .ok Option.none => answer (.ok .null)
      | .ok (some number) => changing (nameLease lease number)
  | _ => answer (.ok (.text "no lock"))

/-- A release as an act: the lease is shown as it is afterwards. -/
def actRelease (lease : String) : Fiber Fleet ω β (Except Error ActAnswer) := do
  match ← Fiber.see fun f => f.holdings.find? lease with
  | Option.none => answer (.ok (.text "no lease"))
  | some number =>
    match ← release number with
    | .error e => return .error e
    | .ok () => changing fun f => (f, .ok (f.holdingValue number))

/-! ## Tasks under a lock -/

/-- Acquires under terms. -/
def acquireUnder (owner : Nat) (member : Member) (terms : Terms) : Fiber Fleet ω β (Except Error (Option Nat)) := do
  match ← Fiber.see fun f => Claim.ofTerms terms (f.nowFor member.clock) with
  | .error e => return .error e
  | .ok claim => acquire owner member claim

/-- **A task of a fleet under one of its locks**; the task keeps something of type `τ` meanwhile. -/
def guarded {τ : Type} (owner : Nat) (member : Member) (terms : Terms)
    (task : StateT τ (Fiber Fleet ω β) (Except Error Value)) : Guarded (StateT τ (Fiber Fleet ω β)) Nat where
  acquire := StateT.lift (acquireUnder owner member terms)
  task := task
  release number := StateT.lift (release number)
  note level text := StateT.lift (Fiber.act fun f => (f.note level text, ()))

/-! ## Commands -/

/-- Starts a program and waits for it: its exit code, and what it writes. -/
def spawned (words : List String) : Fiber Fleet ω β (Except Error Value × String) := do
  match ← Fiber.see fun f => f.spawn words with
  | .ok (code, text) =>
    match ← Fiber.pause .program with
    | .due => return (.ok (.int code), text)
    | .cut => return (.error .cancelled, "")
  | .error e =>
    match CommandLine.startFailure words e with
    | .ok (text, code) => Fiber.act fun f => (f.note .error text, (.ok (.int code), ""))
    | .error e => return (.error e, "")

/-- A program as a task: what it writes is kept. -/
def startProgram (words : List String) : StateT String (Fiber Fleet ω β) (Except Error Value) := do
  let (result, text) ← StateT.lift (spawned words)
  modify (· ++ text)
  return result

/-- Closes the store. -/
def closeStore (f : Fleet) : Fleet := (f.useStore fun w => (Backend.store.close w, ())).1

/-- What running a program takes in a fleet, with a lock that has no name. -/
def runner (owner : Nat) (member : Member) (words : List String) :
    CommandLine.Runner (StateT String (Fiber Fleet ω β)) Nat where
  guarded terms := guarded owner member terms (startProgram words)
  child := get
  close := StateT.lift (Fiber.act fun f => (f.closeStore, ()))

/-- The command that runs a program, on the fleet's store. -/
def runProgram (terms : List GivenDuration) (words : List String) : Fiber Fleet ω β CommandLine.Ending := do
  match ← Fiber.act (·.makeLock .null .null) with
  | .error e => return .failed e
  | .ok lock =>
    let owner ← Fiber.act fun f => let (members, n) := f.members.add ⟨lock, .system⟩; ({ f with members }, n)
    let (ending, _) ← ((runner owner ⟨lock, .system⟩ words).run terms).run ""
    return ending

/-- A command of the command line on the fleet's store: how it ends. -/
def commandEnding : StoreCommand → Fiber Fleet ω β CommandLine.Ending
  | .createTable label => do
    let usual ← Fiber.see fun f => Value.text f.settings.leaseStore
    call (CommandLine.createTable Backend.store (if label.truthy then label else usual))
  | .status name => call (CommandLine.status Backend.store name)
  | .run terms words => runProgram terms words

/-- A command as an act: its code, and what it wrote. -/
def actCommand (c : StoreCommand) : Fiber Fleet ω β (Except Error ActAnswer) := do
  let ending ← commandEnding c
  answer (ending.result.map fun code => .object [("code", .int code), ("stdout", .text ending.out)])

/-! ## Looks and changes -/

/-- What a look for a record's lock shows: nothing without a record. -/
def lockedView (now : GivenTime) : Option LeaseRecord → Except Error Value
  | some record => (record.isLocked now).map .bool
  | Option.none => .ok .null

/-- A look whether a lock is taken. -/
def actIsLocked (name : Value) (now : TimeSpec) : Fiber Fleet ω β (Except Error ActAnswer) := do
  match ← callRaw (Backend.store.get name) with
  | .error e => return .error e
  | .ok record =>
    let f ← Fiber.see id
    answer do lockedView (← f.resolve now) record

/-- The store in memory, or the failure of whoever asks a store that has none. -/
def memory (what : String) (f : Fleet) : Except Error Memory :=
  match f.world.store with
  | .memory m => .ok m
  | other => .error (.noMember other.typeName what)

/-- Changes the store. -/
def onStore (change : Backend → Backend) (f : Fleet) : Fleet :=
  { f with world := { f.world with store := change f.world.store } }

/-- Adds replies made up in advance. -/
def addReplies (replies : Replies) : Backend → Backend
  | .table s => match replies with
    | .table more => .table { s with service := { s.service with replies := s.service.replies ++ more } }
    | _ => .table s
  | .scripted s => match replies with
    | .scripted more => .scripted { s with party := { s.party with replies := s.party.replies ++ more } }
    | _ => .scripted s
  | .canned s => match replies with
    | .canned more => .canned { s with party := { s.party with replies := s.party.replies ++ more } }
    | _ => .canned s
  | other => other

/-- Makes a clock under a name. -/
def newClock (name : String) (start : TimeSpec) (f : Fleet) : Fleet × Except Error Value :=
  match (f.resolve start).bind Clock.start with
  | .error e => (f, .error e)
  | .ok clock => ({ f with clocks := f.clocks.addNamed name clock }, .ok clock.now.shown)

/-- Changes the clock of a name, and shows it. -/
def changeClock (name : String) (change : Fleet → Clock → Except Error Clock) (f : Fleet) : Fleet × Except Error Value :=
  let (f, r) := f.onClock name (change f)
  (f, r.map GivenTime.shown)

/-- A command of a key-value server. -/
def serverCommand (words : List Value) (f : Fleet) : Fleet × Except Error Value :=
  let (store, r) := f.world.store.command words
  (f.onStore fun _ => store, r)

/-- An update as a request: without a time that it is held until, it asks unconditionally. -/
def updateRequest (name : Value) (lockUntil heldUntil : TimeSpec) (f : Fleet) : Except Error ReleaseRequest := do
  return { name, lockUntil := ← f.resolve lockUntil, heldUntil := ← f.resolve heldUntil }

/-- A write of a whole record as a request. -/
def writeRequest (name : Value) (lockUntil lockedAt : TimeSpec) (lockedBy : Value) (availableAt : TimeSpec) (f : Fleet) :
    Except Error AcquireRequest := do
  return {
    name
    lockUntil := ← f.resolve lockUntil
    lockedAt := ← f.resolve lockedAt
    lockedBy
    availableAt := ← f.resolve availableAt }

/-- A raw write whose request may be faulty. -/
def callWith {ρ : Type} (request : Fleet → Except Error ρ)
    (work : ρ → World Backend → World Backend × Outcome LeaseRecord) : Fiber Fleet ω β (Except Error ActAnswer) := do
  match ← Fiber.see request with
  | .error e => return .error e
  | .ok r => callStore (work r) fun record => .value (recordValue record)

/-- **An act as a fiber.** -/
def fiberOfAct : Act → Fiber Fleet ω β (Except Error ActAnswer)
  | .advance d clock => changing (changeClock clock fun _ c => c.advance d)
  | .setClock reading clock => changing (changeClock clock fun f c => (f.resolve reading).map c.set)
  | .newClock name start => changing (newClock name start)
  | .newLock name identity timeout clock => changing (newLock name identity timeout clock)
  | .acquire lock name atMost atLeast lease => actAcquire lock name atMost atLeast lease
  | .release lease => actRelease lease
  | .tryUpdate name lockUntil lockedAt lockedBy availableAt =>
    callWith (writeRequest name lockUntil lockedAt lockedBy availableAt) Backend.store.tryUpdate
  | .update name lockUntil heldUntil => callWith (updateRequest name lockUntil heldUntil) Backend.store.update
  | .get name => callStore (Backend.store.get name) fun r => .value ((r.map recordValue).getD .null)
  | .createTable arguments => callStore (Backend.store.createTable arguments) fun _ => .value .null
  | .deleteTable => callStore Backend.deleteTable fun _ => .value .null
  | .close => quietly closeStore
  | .command c => actCommand c
  | .isLocked name now => actIsLocked name now
  | .lockedNames now => changing fun f =>
    (f, do return .list (← (← f.memory "locked_names").lockedNames (← f.resolve now)))
  | .size => changing fun f => (f, do return .int (← f.memory "__len__").records.length)
  | .state => changing fun f => (f, .ok (.object f.fields))
  | .metrics => changing fun f => (f, .ok f.metricsValue)
  | .fail count => quietly (onStore (·.onMemory (·.failNext count)))
  | .hang count => quietly (onStore (·.onMemory (·.hangNext count)))
  | .reply replies => quietly (onStore (addReplies replies))
  | .redis words => changing (serverCommand words)
  | .outage reason => quietly (onStore (·.setOutage reason))
  | .request req => callStore (Backend.request req) .response

end

end Fleet
end Leasehold
