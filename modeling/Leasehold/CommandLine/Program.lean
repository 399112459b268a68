/-
  The program: from its words to its exit code.

  Words that cannot be read end the program with their own texts.  Then the file for the journal is opened, if the
  settings name one, and a failure to do so ends the program.  Else the command is carried out, on a store that
  is made for it; the lock's own failures, and malformed values, are caught, noted and become exit code 1; any other
  failure is not caught and ends the program without a code.

  `programOn` leaves open what stores are made; `program` makes those of a process.

  A node is started and serves until somebody interrupts it.
-/
import Leasehold.CommandLine.Arguments
import Leasehold.CommandLine.Commands
import Leasehold.Store.Plan
namespace Leasehold.CommandLine

/-- **How the program ends**: with an exit code or a failure, what it wrote to its two outputs, and what its child
wrote. -/
structure Exit where
  result : Except Error Int
  out : String
  err : String
  child : String

/-! ## The node -/

/-- The lines that a node shows when it serves. -/
def banner (n : Http.LeaseNode) : String :=
  "\n" ++ Settings.rule 60 ++ "\n  LEASE STORE NODE " ++ toString n.id ++ " STARTED\n  Address: http://" ++ n.address
    ++ "\n" ++ Settings.rule 60 ++ "\n\n"

/-- The node of the settings. -/
def nodeOf (s : Settings) : Http.LeaseNode := .make s.nodeId s.nodeHost s.nodePort

/-- **The life of a node**: it is made, starts, serves, and stops when it is interrupted. -/
def serve (s : Settings) (ledger : Ledger) : Ledger × String :=
  let n := nodeOf s
  ((Http.LeaseNode.stop (Http.LeaseNode.start ⟨n, n.noteMade ledger⟩)).ledger, banner n)

/-! ## The commands of the program -/

section

variable {σ : Type} (S : LeaseStore σ) (make : StorePlan → σ)

/-- The command to carry out on the store of the settings. -/
def commandOn (around : Surroundings) (a : Arguments) (w : World σ) : World σ × Ending :=
  match a.command with
  | .node => (w, .done 0 "")
  | .createTable => createTable S (if a.asked.truthy then a.asked else .text around.settings.leaseStore) w
  | .status name => status S (.text name) w
  | .run name atMost atLeast => run S around [.value (.text name), .value atMost, .value atLeast] a.words w

/-- Carries the command out on the store that the settings plan. -/
def withStore (around : Surroundings) (a : Arguments) (ledger : Ledger) : Ledger × Ending :=
  match StorePlan.ofSettings around.settings a.asked with
  | .error e => (ledger, .failed e)
  | .ok plan =>
    let (w, ending) := commandOn S around a ⟨make plan, ledger⟩
    (w.ledger, ending)

/-- Carries the command out. -/
def perform (around : Surroundings) (a : Arguments) (ledger : Ledger) : Ledger × Ending :=
  match a.command with
  | .node =>
    let (ledger, text) := serve around.settings ledger
    (ledger, .done 0 (around.settings.display ++ text ++ "\nExiting...\n"))
  | _ => withStore S make around a ledger

end

/-- Whether a failure is caught: the lock's own are, and malformed values. -/
def isReported (e : Error) : Bool := e.isA .lock || e.isA .value

/-- What becomes of a failed command. -/
def settle (ending : Ending) (ledger : Ledger) : Ledger × Exit :=
  match ending.result with
  | .ok code => (ledger, ⟨.ok code, ending.out, "", ending.child⟩)
  | .error e =>
    if isReported e then (ledger.note .error ("Error: " ++ e.message), ⟨.ok 1, ending.out, "", ending.child⟩)
    else (ledger, ⟨.error e, ending.out, "", ending.child⟩)

/-- Opens the file for the journal, if the settings name one. -/
def prepare (around : Surroundings) : Except Error Unit :=
  if around.settings.logFile = "" then .ok () else around.openLog around.settings.logFile

/-- **The program, with stores of any kind**: one is made of what the settings plan. -/
def programOn {σ : Type} (S : LeaseStore σ) (make : StorePlan → σ) (around : Surroundings) (words : List String)
    (ledger : Ledger) : Ledger × Exit :=
  match Arguments.ofWords words with
  | .error d => (ledger, ⟨.ok d.code, d.out, d.err, ""⟩)
  | .ok a => match prepare around with
    | .error e => (ledger, ⟨.error e, "", "", ""⟩)
    | .ok () =>
      let (ledger, ending) := perform S make around a ledger
      settle ending ledger

/-- **The program.** -/
def program (around : Surroundings) (words : List String) (ledger : Ledger) : Ledger × Exit :=
  programOn Backend.store (StorePlan.build around.settings) around words ledger

end Leasehold.CommandLine
