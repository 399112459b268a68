/-
  The program as a process.

  Only what a process alone can tell is read here: its words, the variables of its environment, the name of its host and
  the time; and the file for the journal is opened here.  A process by itself has no network, so a store that lives
  elsewhere does not answer; and of programs to run it knows the shell and the few that come with it.
-/
import Leasehold.CommandLine.Program
import Leasehold.Shell.Start
import Std.Time.DateTime.Timestamp
namespace Leasehold.CommandLine

/-- The microseconds from the start of the calendar to 1970. -/
def epochMicros : Int := 62135596800000000

/-- The moment that so many nanoseconds after 1970 are. -/
def momentOf (nanoseconds : Int) : GivenTime :=
  match Instant.ofMicros (epochMicros + nanoseconds.fdiv 1000) with
  | .ok i => .moment i
  | .error _ => .moment Instant.first

/-- The name of the host, where the system keeps it. -/
def readHost : IO HostName := do
  try
    let text ← IO.FS.readFile "/etc/hostname"
    return .named (String.ofList (Text.trimBlanks text.toList))
  catch e => return .fails (toString e)

/-- The variables of the environment that settings come from. -/
def readVariables : IO (List (String × String)) := do
  let found ← Settings.usual.entries.mapM fun (name, _) => do return (← IO.getEnv name).map (name, ·)
  return found.filterMap id

/-- The exit code of a process: its last eight bits are what is left of it. -/
def exitCode (code : Int) : UInt32 := UInt32.ofNat (code.fmod 256).toNat

/-- The line of an entry of the journal. -/
def entryLine (e : Entry) : String := e.level.name ++ " - " ++ e.text

/-- What the system has against a path. -/
def fileFault : IO.Error → Option FileFault
  | .noFileOrDirectory .. => some .absent
  | .permissionDenied .. => some .denied
  | .inappropriateType .. => some .directory
  | _ => none

/-- Opens a file to write at its end. -/
def openLog (path : String) : IO (Except Error Unit) := do
  try
    let _ ← IO.FS.Handle.mk path .append
    return .ok ()
  catch e => return .error (match fileFault e with
    | some fault => .file fault path
    | none => .raised .system (toString e))

/-- Runs the program with settings.  The file for the journal is opened only once the words can be read. -/
def runProcess (settings : Settings) (words : List String) : IO UInt32 := do
  let now ← Std.Time.Timestamp.now
  let log ← match settings.logFile, Arguments.ofWords words with
    | "", _ => pure (.ok ())
    | path, .ok _ => openLog path
    | _, .error _ => pure (.ok ())
  let around : Surroundings :=
    ⟨settings, ← readHost, momentOf now.toNanosecondsSinceUnixEpoch.val, Shell.start, fun _ => log⟩
  let (ledger, exit) := program around words .empty
  for e in ledger.journal do
    IO.eprintln (entryLine e)
  IO.print exit.out
  IO.eprint exit.err
  match exit.result with
  | .ok code => return exitCode code
  | .error e =>
    IO.eprintln e.message
    return 1

end Leasehold.CommandLine

/-- **The program as a process.** -/
def main (words : List String) : IO UInt32 := do
  let found ← Leasehold.CommandLine.readVariables
  match Leasehold.Settings.ofEnvironment fun name => (found.find? (·.1 = name)).map (·.2) with
  | .ok settings => Leasehold.CommandLine.runProcess settings words
  | .error e =>
    IO.eprintln e.message
    return 1
