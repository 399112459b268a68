/-
  The state of a shell while it runs a script.

  A STREAM is where the shell writes under a number: its output, nowhere, or a file.  The FLOW says whether the next
  command is to be run at all.
-/
import Leasehold.Shell.Arithmetic
import Leasehold.Shell.Places
import Leasehold.Shell.Script
namespace Leasehold.Shell

/-- Where what is written goes: to one of the outputs that are open, the first of which has the number nought; nowhere; or
to a file. -/
inductive Stream where
  | output (number : Nat)
  | nowhere
  | file (path : String)
  deriving DecidableEq, Repr

/-- Whether a script goes on: it does, a loop is left or begins anew, a function or the shell ends, or a signal ends the
shell. -/
inductive Flow where
  | on
  | leave (loops : Nat)
  | again (loops : Nat)
  | back
  | finished
  | killed (signal : Nat)
  deriving DecidableEq, Repr

/-- **The state of a shell.**  The caller is what complaints about missing programs begin with.  While a function runs, the
values that its own variables had before are saved. -/
structure State where
  name : String
  caller : String
  lines : Nat
  line : Nat
  arguments : List String
  bindings : Bindings
  exported : List String
  settled : List String
  functions : List (String × Command)
  saved : Option (List (String × Option String))
  loops : Nat
  jobs : List (String × Nat)
  traps : List (Nat × String)
  status : Nat
  substituted : Option Nat
  outputs : List String
  calls : Nat
  input : List Char
  files : List (String × String)
  streams : List (Nat × Stream)
  flow : Flow
  stopsAtFailure : Bool
  needsNames : Bool

/-- What is done in a shell. -/
abbrev Doing := StateM State

namespace State

/-- A shell that has done nothing. -/
def start (name : String) (arguments : List String) : State where
  name
  caller := ""
  lines := 1
  line := 1
  arguments
  bindings := [("IFS", " \t\n"), ("OPTIND", "1")]
  exported := []
  settled := []
  functions := []
  saved := none
  loops := 0
  jobs := []
  traps := []
  status := 0
  substituted := none
  outputs := [""]
  calls := 0
  input := []
  files := []
  streams := [(1, .output 0), (2, .nowhere)]
  flow := .on
  stopsAtFailure := false
  needsNames := false

/-- The stream of a number. -/
def stream (number : Nat) (s : State) : Stream := ((s.streams.find? (·.1 = number)).map (·.2)).getD .nowhere

/-- Changes the stream of a number. -/
def setStream (number : Nat) (stream : Stream) (s : State) : State :=
  { s with streams := (number, stream) :: s.streams.filter (·.1 ≠ number) }

/-- The text of a file. -/
def file? (path : String) (s : State) : Option String := Bindings.find? path s.files

/-- Writes to a stream. -/
def write (number : Nat) (text : String) (s : State) : State :=
  match s.stream number with
  | .output n => { s with outputs := s.outputs.modify n (· ++ text) }
  | .nowhere => s
  | .file path => { s with files := Bindings.put path ((s.file? path).getD "" ++ text) s.files }

/-- The value of a variable. -/
def binding? (name : String) (s : State) : Option String := Bindings.find? name s.bindings

/-- Sets a variable. -/
def setVariable (name value : String) (s : State) : State := { s with bindings := s.bindings.put name value }

end State

/-! ## Small doings -/

/-- Sets the status. -/
def setStatus (n : Nat) : Doing Unit := modify fun s => { s with status := n }

/-- Writes to the output. -/
def say (text : String) : Doing Unit := modify (·.write 1 text)

/-- Complains, with the name of the shell and the number of the line. -/
def complain (text : String) : Doing Unit :=
  modify fun s => s.write 2 (s.name ++ ": " ++ toString s.line ++ ": " ++ text ++ "\n")

/-- Complains about a command, which fails. -/
def refuse (status : Nat) (text : String) : Doing Unit := do
  complain text
  setStatus status

/-- Ends the shell with a status. -/
def finish (status : Nat) : Doing Unit := modify fun s => { s with status, flow := .finished }

/-- Complains about a script, which ends. -/
def abort (text : String) : Doing Unit := do
  complain text
  finish 2

/-- Sets a variable, unless it was settled for good: then the script ends. -/
def assign (name value : String) : Doing Unit := do
  if (← get).settled.contains name then abort (name ++ ": is read only")
  else modify (·.setVariable name value)

/-- Whether the script goes on. -/
def goesOn : Doing Bool := do return (← get).flow = .on

/-- Does something, and puts the streams back afterwards, and the input if it was to be another one. -/
def keepingStreams (otherInput : Bool) (work : Doing Unit) : Doing Unit := do
  let before ← get
  work
  modify fun s => { s with streams := before.streams, input := if otherInput then before.input else s.input }

/-- Does something in a loop. -/
def inLoop (work : Doing Unit) : Doing Unit := do
  modify fun s => { s with loops := s.loops + 1 }
  work
  modify fun s => { s with loops := s.loops - 1 }

/-- Whether the innermost loop is over; if it only begins anew, the script goes on. -/
def leavesLoop : Doing Bool := do
  match (← get).flow with
  | .on => return false
  | .again (k + 2) => modify fun s => { s with flow := .again (k + 1) }; return true
  | .again _ => modify fun s => { s with flow := .on }; return false
  | .leave (k + 2) => modify fun s => { s with flow := .leave (k + 1) }; return true
  | .leave _ => modify fun s => { s with flow := .on }; return true
  | _ => return true

/-- Does something in a shell of its own: what it writes and how it ends stays, and nothing else. -/
def apart (work : Doing Unit) : Doing Unit := do
  let before ← get
  set { before with traps := before.traps.filter (·.2 = "") }
  work
  modify fun s =>
    { before with
      outputs := s.outputs
      files := s.files
      input := s.input
      status := s.status
      flow := match s.flow with | .killed signal => .killed signal | _ => .on }

/-- Does something with an output of its own, and gives what is written there back. -/
def captured (work : Doing Unit) : Doing String := do
  let before ← get
  let number := before.outputs.length
  set (({ before with outputs := before.outputs ++ [""] } : State).setStream 1 (.output number))
  work
  let text := (← get).outputs.getLastD ""
  modify fun s => { s with outputs := s.outputs.take number, streams := before.streams }
  return text

end Leasehold.Shell
