/-
  Starting programs.

  A bare system has a shell and the programs `true`, `false` and `echo`.  What a program leaves is its output and its
  status, which is negative if a signal ended it.
-/
import Leasehold.Shell.Run
namespace Leasehold.Shell

/-- How deep a shell may call itself. -/
def depth : Nat := 20000

/-- How a shell ended: its status, or the signal that ended it with a minus sign; and what it wrote. -/
def State.ending (s : State) : Int × String :=
  (match s.flow with
    | .killed signal => -(signal : Int)
    | _ => (s.status % 256 : Nat), readable (s.outputs.headD ""))

/-- **Runs a shell** by its name with its arguments. -/
def run (name : String) (args : List String) : Int × String :=
  (((shell args depth).run (State.start name [])).2).ending

/-- **Starts a program** with its arguments: how it ended and what it wrote, or why it cannot be started. -/
def start (words : List String) : Except Error (Int × String) :=
  if words.any fun w => w.toList.contains '\x00' then .error (.raised .value "embedded null byte")
  else match words with
    | [] => .error (.mismatch (.missingArguments "create_subprocess_exec" ["program"]))
    | path :: args => match programName path with
      | "sh" => .ok (run path args)
      | "true" => .ok (0, "")
      | "false" => .ok (1, "")
      | "echo" => .ok (0, readable (echoProgram args))
      | _ => .error (.file (Places.toRun path) path)

end Leasehold.Shell
