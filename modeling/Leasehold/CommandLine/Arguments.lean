/-
  The arguments of the program.

  The words before the first `--` are read by the program's grammar, whose commands have grammars of their own; the
  words after it are the command that `run` runs, and nobody looks into them.

  A fault of a command's own words comes first, then a command that is missing, then words that nobody wanted,
  the program's before the command's.
-/
import Leasehold.CommandLine.Grammar
namespace Leasehold.CommandLine

/-! ## The grammars -/

/-- The names of the commands. -/
def commandNames : List String := ["node", "create-table", "status", "run"]

/-- The kinds of stores that can be asked for. -/
def storeNames : List String := ["memory", "http", "redis", "dynamodb"]

/-- The option that shows the help. -/
def helpRule : OptionRule := ⟨["-h", "--help"], .help, false⟩

/-- The words of the program itself. -/
def programGrammar : Grammar where
  program := "leaselock"
  usage :=
    "usage: leaselock [-h] [--store \x7bmemory,http,redis,dynamodb\x7d]\n" ++
    "                 \x7bnode,create-table,status,run\x7d ...\n"
  details :=
    "Distributed lease lock\n\n" ++
    "positional arguments:\n" ++
    "  \x7bnode,create-table,status,run\x7d\n" ++
    "    node                Run a lease store node\n" ++
    "    create-table        Provision the lease table\n" ++
    "    status              Show the lease record of a lock\n" ++
    "    run                 Run a command while holding a lock\n\n" ++
    "options:\n" ++
    "  -h, --help            show this help message and exit\n" ++
    "  --store \x7bmemory,http,redis,dynamodb\x7d\n" ++
    "                        Lease store backend (default: LEASE_STORE)\n"
  options := [helpRule, ⟨["--store"], .choice storeNames, false⟩]
  positional := some (.command "command" commandNames)

/-- The lines about the only option of a command. -/
def helpOnly : String := "options:\n  -h, --help  show this help message and exit\n"

/-- The words of a command without arguments. -/
def plainGrammar (name : String) : Grammar where
  program := "leaselock " ++ name
  usage := "usage: leaselock " ++ name ++ " [-h]\n"
  details := helpOnly
  options := [helpRule]
  positional := none

/-- The words of `status`. -/
def statusGrammar : Grammar where
  program := "leaselock status"
  usage := "usage: leaselock status [-h] name\n"
  details := "positional arguments:\n  name\n\n" ++ helpOnly
  options := [helpRule]
  positional := some (.word "name")

/-- The words of `run`. -/
def runGrammar : Grammar where
  program := "leaselock run"
  usage := "usage: leaselock run [-h] --at-most AT_MOST [--at-least AT_LEAST] name\n"
  details :=
    "positional arguments:\n  name\n\n" ++
    "options:\n" ++
    "  -h, --help           show this help message and exit\n" ++
    "  --at-most AT_MOST    lock_at_most_for in seconds\n" ++
    "  --at-least AT_LEAST  lock_at_least_for in seconds\n"
  options := [helpRule, ⟨["--at-most"], .number, true⟩, ⟨["--at-least"], .number, false⟩]
  positional := some (.word "name")

/-- The words of a command. -/
def commandGrammar (name : String) : Grammar :=
  if name = "status" then statusGrammar else if name = "run" then runGrammar else plainGrammar name

/-! ## Arguments -/

/-- A command with its arguments. -/
inductive Command where
  | node
  | createTable
  | status (name : String)
  | run (name : String) (atMost atLeast : Value)
  deriving Repr

/-- **The arguments of the program.** -/
structure Arguments where
  store : Option String
  command : Command
  words : List String
  deriving Repr

/-- The program ends before it begins: an exit code, and what it writes to its two outputs. -/
structure Departure where
  code : Int
  out : String
  err : String
  deriving DecidableEq, Repr

/-- How the program ends when reading stops. -/
def Departure.ofStop (g : Grammar) : Stop → Departure
  | .help => ⟨0, g.help, ""⟩
  | .fault f => ⟨2, "", g.refusal f⟩

namespace Command

/-- The command of a name and what was gathered for it. -/
def ofGathered (name : String) (got : Gathered) : Command :=
  let word := got.word.getD ""
  if name = "node" then .node
  else if name = "create-table" then .createTable
  else if name = "status" then .status word
  else
    let seconds (key : String) : Value := (Value.field? key got.values).getD (.real (Binary64.ofInt 0))
    .run word (seconds "--at-most") (seconds "--at-least")

def name : Command → String
  | node => "node"
  | createTable => "create-table"
  | status _ => "status"
  | run _ _ _ => "run"

end Command

namespace Arguments

/-- The kind of store that was asked for; null if none was. -/
def asked (a : Arguments) : Value := (a.store.map Value.text).getD .null

/-- The words before and after the first `--`. -/
def split (words : List String) : List String × List String :=
  (words.takeWhile (· ≠ "--"), (words.dropWhile (· ≠ "--")).drop 1)

/-- **Reads the arguments**, or tells how the program ends instead. -/
def ofWords (words : List String) : Except Departure Arguments := do
  let (front, after) := split words
  let refuse (f : WordFault) : Departure := .ofStop programGrammar (.fault f)
  let got ← (programGrammar.read front).mapError (Departure.ofStop programGrammar)
  let name := got.word.getD ""
  let g := commandGrammar name
  let own ← (g.read got.rest).mapError (Departure.ofStop g)
  if !(got.extras ++ own.extras).isEmpty then throw (refuse (.unrecognized (got.extras ++ own.extras)))
  else if name = "run" && after.isEmpty then throw (refuse .nothingToRun)
  else
    return {
      store := match Value.field? "--store" got.values with | some (.text s) => some s | _ => none
      command := .ofGathered name own
      words := after }

end Arguments
end Leasehold.CommandLine
