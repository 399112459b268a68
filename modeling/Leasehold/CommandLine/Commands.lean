/-
  The commands that work on a store.

  1. **`createTable`** — provides the table, whatever that means for the store;
  2. **`status`** — shows the record of a lock;
  3. **`run`** — runs a program while holding a lock, and does not run it if the lock is held elsewhere.

  Every command is given a store that was made for it and closes the store when it is done, with one exception: a lock
  that cannot be made ends `run` before anything else happens.
-/
import Leasehold.Lock.Execution
namespace Leasehold.CommandLine

/-- What a command finds around it: the settings, the host, the clock's reading, a way to start programs, and a way
to open the file for the journal.  There is one reading for a whole run: the deadlines, the acquire and the release of a command
all read `now`, as if no time passed between them. -/
structure Surroundings where
  settings : Settings
  host : HostName
  now : GivenTime
  spawn : List String → Except Error (Int × String)
  openLog : String → Except Error Unit

/-- **How a command ends**: with an exit code or a failure, what it wrote, and what its child wrote. -/
structure Ending where
  result : Except Error Int
  out : String
  child : String

namespace Ending

/-- A command that ends with a code after it wrote something. -/
def done (code : Int) (out : String) : Ending := ⟨.ok code, out, ""⟩

/-- A command that fails. -/
def failed (e : Error) : Ending := ⟨.error e, "", ""⟩

end Ending

variable {σ : Type}

/-! ## Table and record -/

/-- **Provides the table** of a store, and tells so under a label. -/
def createTable (S : LeaseStore σ) (label : Value) (w : World σ) : World σ × Ending :=
  let (w, outcome) := S.createTable [] w
  (S.close w, match outcome.orElse .cancelled with
    | .ok () => .done 0 ("Lease table ready (" ++ label.display ++ ")\n")
    | .error e => .failed e)

/-- The lines about a record. -/
def recordText (name : Value) (r : LeaseRecord) : String :=
  name.display ++ ":\n  lockUntil: " ++ r.lockUntil.timestamp ++ "\n"
    ++ (match r.lockedAt with | some t => "  lockedAt:  " ++ t.timestamp ++ "\n" | none => "")
    ++ "  lockedBy:  " ++ r.lockedBy.display ++ "\n"

/-- **Shows the record** of a lock. -/
def status (S : LeaseStore σ) (name : Value) (w : World σ) : World σ × Ending :=
  let (w, outcome) := S.get name w
  (S.close w, match outcome.orElse .cancelled with
    | .ok (some record) => .done 0 (recordText name record)
    | .ok none => .done 1 (name.display ++ ": never locked\n")
    | .error e => .failed e)

/-! ## Running a program -/

/-- What becomes of a program that cannot be started: its exit code, or the failure that is not caught. -/
def startFailure (words : List String) (e : Error) : Except Error (String × Int) :=
  if e.isA .system then .ok ("Cannot run " ++ words.headD "" ++ ": " ++ e.message, 127) else .error e

/-- The exit code that a result is. -/
def codeOf (v : Value) : Int := v.asInt?.getD 0

/-- How the command ends after the run. -/
def Ending.ofRun (name child : String) : Except Error (Option Value) → Ending
  | .ok (some v) => ⟨.ok (codeOf v), "", child⟩
  | .ok none => ⟨.ok 0, "Skipped: lock '" ++ name ++ "' is held elsewhere\n", child⟩
  | .error e => ⟨.error e, "", child⟩

/-- What running a program takes once there is a lock: the run under terms, what the child wrote, and closing the
store. -/
structure Runner (m : Type → Type) (L : Type) where
  guarded : Terms → Guarded m L
  child : m String
  close : m Unit

/-- **Runs a program under a lock that is there**; the store is closed however that ends. -/
def Runner.run {m : Type → Type} [Monad m] {L : Type} (r : Runner m L) (terms : List GivenDuration) : m Ending := do
  let ending ← match Terms.ofArguments terms with
    | .error e => pure (Ending.failed e)
    | .ok terms => do
      let result ← (r.guarded terms).run terms.name
      pure (Ending.ofRun terms.name (← r.child) result)
  r.close
  return ending

/-- The state of a run: the world, the lock, and what the child wrote. -/
structure Run (σ : Type) where
  world : World σ
  lock : Lock
  child : String

namespace Run

/-- Takes the lock under terms. -/
def acquire (S : LeaseStore σ) (terms : Terms) (now : GivenTime) : StateM (Run σ) (Except Error (Option Lease)) :=
  fun r => match Claim.ofTerms terms now with
    | .error e => (.error e, r)
    | .ok claim =>
      let (world, lock, result) := r.lock.tryAcquire S claim r.world
      (result, { r with world, lock })

/-- Gives the lease back. -/
def release (S : LeaseStore σ) (now : GivenTime) (lease : Lease) : StateM (Run σ) (Except Error Unit) :=
  fun r =>
    let (world, lock, _, result) := r.lock.release S lease now r.world
    (result, { r with world, lock })

/-- Adds an entry to the journal. -/
def note (level : Level) (text : String) : StateM (Run σ) Unit :=
  modify fun r => { r with world := r.world.note level text }

/-- Starts a program and waits for it: its exit code. -/
def start (around : Surroundings) (words : List String) : StateM (Run σ) (Except Error Value) :=
  match around.spawn words with
  | .ok (code, text) => do
    modify fun r => { r with child := r.child ++ text }
    return .ok (.int code)
  | .error e => match startFailure words e with
    | .ok (text, code) => do
      note .error text
      return .ok (.int code)
    | .error e => return .error e

/-- **A program under a lock**, with nothing else going on. -/
def runner (S : LeaseStore σ) (around : Surroundings) (words : List String) : Runner (StateM (Run σ)) Lease where
  guarded terms :=
    { acquire := acquire S terms around.now
      task := start around words
      release := release S around.now
      note := note }
  child := do return (← get).child
  close := modify fun r => { r with world := S.close r.world }

end Run

/-- **Runs a program while holding a lock.** -/
def run (S : LeaseStore σ) (around : Surroundings) (terms : List GivenDuration) (words : List String) (w : World σ) :
    World σ × Ending :=
  let (ledger, lock) := Lock.make around.settings around.host .null .null w.ledger
  match lock with
  | .error e => ({ w with ledger }, .failed e)
  | .ok lock =>
    let (ending, r) := ((Run.runner S around words).run terms).run ⟨{ w with ledger }, lock, ""⟩
    (r.world, ending)

end Leasehold.CommandLine
