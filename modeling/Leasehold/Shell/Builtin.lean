/-
  Commands that a shell knows by itself, or finds on every system, and that run no other commands.

  A builtin that cannot do its work complains and fails with status 2; a SPECIAL one ends the script then.
-/
import Leasehold.Shell.Format
import Leasehold.Shell.State
namespace Leasehold.Shell

/-- The number of the shell's process. -/
def ownNumber : String := "4242"

/-- The decimal number at the front of characters, and what comes behind it. -/
def decimalAtFront? : List Char → Option (Nat × List Char)
  | c :: rest => if c.isDigit then some (Arithmetic.digitsIn 10 0 (c :: rest)) else none
  | [] => none

/-- A whole number that is written in decimal digits alone. -/
def plainNumber? (s : String) : Option Nat :=
  match decimalAtFront? s.toList with
  | some (n, []) => if n < 2147483648 then some n else none
  | _ => none

/-! ## Tests -/

namespace Test

/-- The number in a test; or the complaint. -/
def number (s : String) : Except String Int :=
  (Arithmetic.wholeInt? decimalAtFront? s).elim (.error ("Illegal number: " ++ s)) .ok

/-- Whether something is at a path. -/
def existsAt (s : State) (path : String) : Bool :=
  Places.directories.contains (Places.normal path) || Places.files.contains path || (s.file? path).isSome

/-- The tests of one word. -/
def unaries : List String :=
  ["-r", "-w", "-x", "-e", "-f", "-d", "-c", "-b", "-p", "-u", "-g", "-k", "-s", "-t", "-z", "-n", "-h", "-O", "-G", "-L",
   "-S"]

/-- The tests of two words. -/
def binaries : List String := ["=", "!=", "<", ">", "-eq", "-ne", "-gt", "-ge", "-lt", "-le", "-nt", "-ot", "-ef"]

/-- A test of one word. -/
def unary (s : State) (op arg : String) : Except String Bool :=
  match op with
  | "-z" => .ok (arg = "")
  | "-n" => .ok (arg ≠ "")
  | "-d" => .ok (Places.directories.contains (Places.normal arg))
  | "-f" | "-s" => .ok (existsAt s arg && !(Places.directories.contains (Places.normal arg)))
  | "-e" | "-r" | "-w" | "-x" => .ok (existsAt s arg)
  | "-t" => (number arg).map fun _ => false
  | _ => .ok false

/-- A test of two words. -/
def binary (op a b : String) : Except String Bool :=
  let compare (test : Int → Int → Bool) : Except String Bool := do return test (← number a) (← number b)
  match op with
  | "=" => .ok (a = b)
  | "!=" => .ok (a ≠ b)
  | "<" => .ok (a < b)
  | ">" => .ok (b < a)
  | "-eq" => compare fun a b => a = b
  | "-ne" => compare fun a b => a ≠ b
  | "-lt" => compare fun a b => a < b
  | "-le" => compare fun a b => a ≤ b
  | "-gt" => compare fun a b => a > b
  | "-ge" => compare fun a b => a ≥ b
  | _ => .ok false

/-- What a word is in a test: the end of all words, a plain word, or a sign of some kind. -/
inductive Role where
  | none
  | word
  | unary
  | sign
  deriving DecidableEq, Repr

/-- The role of the first word.  A test of one word is a plain word itself if nothing comes behind it, or a test of two
words does; and an opening bracket if nothing comes behind it. -/
def roleOf : List String → Role
  | [] => .none
  | w :: rest =>
    if unaries.contains w then
      match rest with
      | [] => .word
      | [_] => .unary
      | next :: _ => if binaries.contains next then .word else .unary
    else if w = "(" then (if rest.isEmpty then .word else .sign)
    else if binaries.contains w || ["!", "-a", "-o", ")"].contains w then .sign
    else .word

/-- What a test says so far, and its words from the one that was taken last. -/
abbrev Said := Except String (Bool × List String)

mutual

/-- Tests one of which has to hold; the role of the first word is given. -/
def anyOf (s : State) (role : Role) (ws : List String) : Nat → Said
  | 0 => .error "argument expected"
  | n + 1 => do
    let (v, ws) ← allOf s role ws n
    match ws with
    | _ :: "-o" :: rest =>
      let (w, ws) ← anyOf s (roleOf rest) rest n
      return (v || w, ws)
    | ws => return (v, ws)

/-- Tests all of which have to hold. -/
def allOf (s : State) (role : Role) (ws : List String) : Nat → Said
  | 0 => .error "argument expected"
  | n + 1 => do
    let (v, ws) ← oneOf s role ws n
    match ws with
    | _ :: "-a" :: rest =>
      let (w, ws) ← allOf s (roleOf rest) rest n
      return (v && w, ws)
    | ws => return (v, ws)

/-- One test, or its contrary. -/
def oneOf (s : State) (role : Role) (ws : List String) : Nat → Said
  | 0 => .error "argument expected"
  | n + 1 =>
    if role = .sign && ws.head? = some "!" then
      match ws.drop 1 with
      | [] => .ok (true, ws)
      | rest => (oneOf s (roleOf rest) rest n).map fun (v, ws) => (!v, ws)
    else match role, ws with
      | .none, _ | _, [] => .ok (false, ws)
      | .sign, "(" :: rest => do
        if rest.head? = some ")" then return (false, rest)
        let (v, ws) ← anyOf s (roleOf rest) rest n
        match ws with
        | _ :: ")" :: rest => return (v, ")" :: rest)
        | _ => .error "closing paren expected"
      | .unary, op :: arg :: rest => do return (← unary s op arg, arg :: rest)
      | _, a :: op :: rest =>
        if binaries.contains op then
          match rest with
          | b :: rest => do return (← binary op a b, b :: rest)
          | [] => .error (op ++ ": argument expected")
        else .ok (a ≠ "", ws)
      | _, [a] => .ok (a ≠ "", ws)

end

/-- The words of a test and the role of the first one.  Of three words, the one between decides; else brackets around
three or four words are taken away. -/
def prepared (ws : List String) : Role × List String :=
  match ws with
  | [_, op, _] | [_, op, _, _] =>
    if ws.length = 3 && binaries.contains op then (.word, ws)
    else if ws.head? = some "(" && ws.getLast? = some ")" then
      let inner := (ws.drop 1).dropLast
      (roleOf inner, inner)
    else if ws.head? = some "!" then (.sign, ws)
    else (roleOf ws, ws)
  | _ => (roleOf ws, ws)

/-- **What a test of words says**; or the complaint. -/
def holds (s : State) (ws : List String) : Except String Bool := do
  let (role, ws) := prepared ws
  match ← anyOf s role ws (4 * ws.length + 4) with
  | (_, w :: _ :: _) => .error ((if w = "" then "" else w ++ ": ") ++ "unexpected operator")
  | (v, _) => return v

end Test

/-- The command `test`, under the name that it was called by. -/
def test (name : String) (args : List String) : Doing Unit := do
  match Test.holds (← get) args with
  | .ok b => setStatus (if b then 0 else 1)
  | .error text => refuse 2 (name ++ ": " ++ text)

/-! ## Signals -/

/-- The names of the signals, from the first on. -/
def signalNames : List String :=
  ["HUP", "INT", "QUIT", "ILL", "TRAP", "ABRT", "BUS", "FPE", "KILL", "USR1", "SEGV", "USR2", "PIPE", "ALRM", "TERM",
   "STKFLT", "CHLD", "CONT", "STOP", "TSTP", "TTIN", "TTOU", "URG", "XCPU", "XFSZ", "VTALRM", "PROF", "WINCH", "POLL",
   "PWR", "SYS"]

/-- The signals that do not end a process by themselves. -/
def harmlessSignals : List Nat := [17, 18, 19, 20, 21, 22, 23, 28]

/-- The signal of a name or a number; nought is the end of the shell. -/
def signal? (name : String) : Option Nat :=
  match plainNumber? name with
  | some n => if n ≤ 64 then some n else none
  | none =>
    let capital := name.toUpper
    if capital = "EXIT" then some 0 else ((signalNames.zipIdx 1).find? (·.1 = capital)).map (·.2)

/-- The signal that the arguments of `kill` name, and the processes; or the complaint. -/
def killTarget : List String → Except String (Nat × List String)
  | "-s" :: name :: rest | "-n" :: name :: rest => match signal? name with
    | some n => .ok (n, rest)
    | none => .error ("invalid signal number or name: " ++ name)
  | "--" :: rest => .ok (15, rest)
  | first :: rest => match first.toList with
    | '-' :: name => match signal? (String.ofList name) with
      | some n => .ok (n, if rest.head? = some "--" then rest.drop 1 else rest)
      | none => .error ("Illegal option -" ++ String.ofList (name.take 1))
    | _ => .ok (15, first :: rest)
  | [] => .error "Usage: kill [-s sigspec | -signum | -sigspec] [pid | job]... or\nkill -l [exitstatus]"

/-- Sets what a shell does on signals. -/
def trap (args : List String) : Doing Unit := do
  let (action, names) : Option String × List String := match args with
    | "-" :: names => (none, names)
    | [name] => (none, [name])
    | action :: names => (some action, names)
    | [] => (none, [])
  setStatus 0
  for name in names do
    match signal? name with
    | some n => modify fun s =>
      { s with traps := s.traps.filter (·.1 ≠ n) ++ (match action with | some a => [(n, a)] | none => []) }
    | none => refuse 1 ("trap: " ++ name ++ ": bad trap")

/-! ## Variables and arguments -/

/-- A word `name=value` in two parts. -/
def assignmentOf (w : String) : String × Option String :=
  let cs := w.toList
  match cs.dropWhile (· ≠ '=') with
  | _ :: value => (String.ofList (cs.takeWhile (· ≠ '=')), some (String.ofList value))
  | [] => (w, none)

/-- Marks variables, and sets those that come with a value. -/
def markAll (mark : String → State → State) (words : List String) : Doing Unit := do
  for w in words.filter fun w => w.toList.head? ≠ some '-' do
    let (name, value) := assignmentOf w
    if let some v := value then assign name v
    if ← goesOn then modify (mark name)
  if ← goesOn then setStatus 0

/-- Exports variables. -/
def exportAll : List String → Doing Unit := markAll fun name s => { s with exported := name :: s.exported }

/-- Settles variables for good. -/
def settleAll : List String → Doing Unit := markAll fun name s => { s with settled := name :: s.settled }

/-- Makes variables of the function that is running. -/
def localAll (words : List String) : Doing Unit := do
  match (← get).saved with
  | none => abort "local: not in a function"
  | some _ =>
    for w in words do
      let (name, value) := assignmentOf w
      modify fun s => { s with saved := s.saved.map ((name, s.binding? name) :: ·) }
      if let some v := value then assign name v
    if ← goesOn then setStatus 0

/-- Takes variables or functions away. -/
def unsetAll (words : List String) : Doing Unit := do
  let functions := words.head? = some "-f"
  setStatus 0
  for name in words.filter fun w => w ≠ "-f" && w ≠ "-v" do
    if functions then modify fun s => { s with functions := s.functions.filter (·.1 ≠ name) }
    else if (← get).settled.contains name then abort ("unset: " ++ name ++ ": is read only")
    else modify fun s => { s with bindings := s.bindings.erase name }

/-- Turns options on or off by their letters. -/
def setOptions (on : Bool) (letters : List Char) : Doing Unit := do
  if letters.contains 'e' then modify fun s => { s with stopsAtFailure := on }
  if letters.contains 'u' then modify fun s => { s with needsNames := on }

/-- The letter of an option's name; other options change nothing. -/
def optionLetter (name : String) : List Char :=
  if name = "errexit" then ['e'] else if name = "nounset" then ['u'] else []

/-- Options, and then arguments. -/
def setAll : List String → Doing Unit
  | [] => setStatus 0
  | "--" :: args => modify fun s => { s with arguments := args, status := 0 }
  | "-o" :: name :: rest => do setOptions true (optionLetter name); setAll rest
  | "+o" :: name :: rest => do setOptions false (optionLetter name); setAll rest
  | w :: rest => match w.toList with
    | '-' :: letters => do setOptions true letters; setAll rest
    | '+' :: letters => do setOptions false letters; setAll rest
    | _ => modify fun s => { s with arguments := w :: rest, status := 0 }

/-- Drops arguments from the front. -/
def shift (args : List String) : Doing Unit := do
  let have_ := (← get).arguments.length
  match plainNumber? (args.headD "1") with
  | none => abort ("shift: Illegal number: " ++ args.headD "")
  | some n =>
    if have_ < n then abort "shift: can't shift that many"
    else modify fun s => { s with arguments := s.arguments.drop n, status := 0 }

/-- Ends the shell, or a function. -/
def leaveBy (name : String) (args : List String) (flow : Flow) : Doing Unit := do
  match args with
  | [] => modify fun s => { s with flow }
  | w :: _ => match plainNumber? w with
    | some n => modify fun s => { s with flow, status := n }
    | none => abort (name ++ ": Illegal number: " ++ w)

/-- Leaves loops or begins them anew, as many as there are at most. -/
def leaveLoops (name : String) (args : List String) (flow : Nat → Flow) : Doing Unit := do
  match plainNumber? (args.headD "1") with
  | none | some 0 => abort (name ++ ": Illegal number: " ++ args.headD "")
  | some n =>
    let loops := (← get).loops
    modify fun s => { s with status := 0, flow := if loops = 0 then s.flow else flow (min n loops) }

/-- Waits for processes, which have ended already; the status is that of the last one. -/
def wait (args : List String) : Doing Unit := do
  let s ← get
  setStatus ((args.getLast?.map fun w => ((s.jobs.find? (·.1 = w)).map (·.2)).getD 127).getD 0)

/-- The words of a line for so many names: the last one takes the rest. -/
def wordsFor : Nat → List Char → List String
  | 0, _ => []
  | 1, cs =>
    let blank (c : Char) : Bool := c = ' ' || c = '\t'
    [String.ofList ((cs.dropWhile blank).reverse.dropWhile blank).reverse]
  | n + 1, cs =>
    let blank (c : Char) : Bool := c = ' ' || c = '\t'
    let cs := cs.dropWhile blank
    String.ofList (cs.takeWhile fun c => !(blank c)) :: wordsFor n (cs.dropWhile fun c => !(blank c))

/-- Reads a line into variables. -/
def readLineInto (args : List String) : Doing Unit := do
  let names := args.filter fun w => w.toList.head? ≠ some '-'
  let input := (← get).input
  let line := input.takeWhile (· ≠ '\n')
  for (name, value) in names.zip (wordsFor names.length line) do
    assign name value
  let rest := input.dropWhile (· ≠ '\n')
  modify fun s => { s with input := rest.drop 1, status := if rest.isEmpty then 1 else 0 }

/-! ## Programs -/

/-- Whole numbers from one to another by a step, so many at most. -/
def numbersFrom (first step last : Int) : Nat → List Int
  | 0 => []
  | n + 1 => if (0 ≤ step && last < first) || (step < 0 && first < last) then [] else first :: numbersFrom (first + step) step last n

/-- The program `seq`. -/
def seq (args : List String) : Doing Unit := do
  let write (first step last : Int) : Doing Unit := do
    say (String.join ((numbersFrom first step last ((last - first).natAbs + 1)).map fun i => toString i ++ "\n"))
    setStatus 0
  match args.mapM (Arithmetic.wholeInt? decimalAtFront?) with
  | some [last] => write 1 1 last
  | some [first, last] => write first 1 last
  | some [first, step, last] => if step = 0 then setStatus 1 else write first step last
  | _ => setStatus 1

/-- The program `cat`. -/
def cat (args : List String) : Doing Unit := do
  setStatus 0
  for path in if args.isEmpty then ["-"] else args do
    let s ← get
    if path = "-" then
      say (String.ofList s.input)
      modify fun s => { s with input := [] }
    else match s.file? path with
      | some text => say text
      | none => if path ≠ "/dev/null" then setStatus 1

/-- Enters a directory. -/
def enter (args : List String) : Doing Unit := do
  let path := args.headD "/"
  if Places.directories.contains (Places.normal path) then
    modify (·.setVariable "PWD" (Places.normal path))
    setStatus 0
  else refuse 2 ("cd: can't cd to " ++ path)

/-- **A builtin or a program that runs no other commands**, by its name. -/
def plain? (name : String) (args : List String) : Option (Doing Unit) :=
  match name with
  | ":" | "true" | "sleep" | "umask" | "times" | "ulimit" | "hash" | "alias" | "jobs" => some (setStatus 0)
  | "false" => some (setStatus 1)
  | "echo" => some do say (echoInShell args); setStatus 0
  | "printf" => some (match args with
    | [] => refuse 2 "printf: usage: printf format [arg ...]"
    | w :: rest =>
      let (format, args) := if w = "--" then (rest.headD "", rest.drop 1) else (w, rest)
      let (complaints, text, status) := printed format args
      do
        for c in complaints do complain ("printf: " ++ c)
        say text
        setStatus status)
  | "test" => some (test name args)
  | "[" => some (if args.getLast? = some "]" then test name args.dropLast else refuse 2 "[: missing ]")
  | "exit" => some (leaveBy name args .finished)
  | "return" => some (leaveBy name args .back)
  | "break" => some (leaveLoops name args .leave)
  | "continue" => some (leaveLoops name args .again)
  | "wait" => some (wait args)
  | "set" => some (setAll args)
  | "shift" => some (shift args)
  | "unset" => some (unsetAll args)
  | "export" => some (exportAll args)
  | "readonly" => some (settleAll args)
  | "local" => some (localAll args)
  | "trap" => some (trap args)
  | "read" => some (readLineInto args)
  | "cd" => some (enter args)
  | "pwd" => some do say (((← get).binding? "PWD").getD "/" ++ "\n"); setStatus 0
  | "seq" => some (seq args)
  | "cat" => some (cat args)
  | _ => none

/-- The builtins that end the script when they fail, and whose assignments stay. -/
def isSpecialBuiltin (name : String) : Bool :=
  [":", ".", "break", "continue", "eval", "exec", "exit", "export", "readonly", "return", "set", "shift", "times", "trap",
   "unset"].contains name

end Leasehold.Shell
