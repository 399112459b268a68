/-
  Running scripts.

  Words are expanded, and commands are executed; each needs the other.  Every call is given a number of calls that it may
  still be deep.

  A command is CALM where its failure is only asked about, as in a test: then a failure never ends the script.
-/
import Leasehold.Shell.Builtin
import Leasehold.Shell.Field
import Leasehold.Shell.Reader
namespace Leasehold.Shell

/-! ## Parameters -/

/-- The value of a parameter that is not all arguments. -/
def State.parameter? (name : String) (s : State) : Option String :=
  match name with
  | "#" => some (toString s.arguments.length)
  | "?" => some (toString s.status)
  | "$" => some ownNumber
  | "!" => s.jobs.head?.map (·.1)
  | "-" => some ((if s.stopsAtFailure then "e" else "") ++ (if s.needsNames then "u" else ""))
  | _ => match plainNumber? name with
    | some 0 => some s.name
    | some (n + 1) => s.arguments[n]?
    | none => s.binding? name

/-- The characters that loose texts are cut at. -/
def State.cutters (s : State) : List Char := ((s.binding? "IFS").getD " \t\n").toList

/-- All arguments in one text. -/
def State.allArguments (s : State) : String :=
  (match s.binding? "IFS" with
    | some ifs => String.ofList (ifs.toList.take 1)
    | none => " ").intercalate s.arguments

/-- A text without the line ends at its end. -/
def withoutLineEnds (s : String) : String := String.ofList (s.toList.reverse.dropWhile (· = '\n')).reverse

/-- A value with what is asked of it, if that needs no more than a pattern. -/
def shaped (mode : Mode) (pattern : Pattern) (v : String) : String :=
  match mode with
  | .length => toString v.utf8ByteSize
  | .trimmed true longest => String.ofList (Pattern.trimFront longest pattern v.toList)
  | .trimmed false longest => String.ofList (Pattern.trimEnd longest pattern v.toList)
  | _ => v

/-! ## Small steps -/

/-- A shell that stops at failures stops after a failure, unless it was calm. -/
def settle (calm : Bool) : Doing Unit := do
  let s ← get
  if s.flow = .on && s.stopsAtFailure && !calm && s.status ≠ 0 then finish s.status

/-- Sends a stream to the other end of a redirection; a fault has been complained about. -/
def redirectTo (number : Nat) (direction : Direction) (target : String) : Doing Bool := do
  let s ← get
  match direction with
  | .here => set { s with input := target.toList }; return true
  | .read =>
    match s.file? (Places.normal target) with
    | some text => set { s with input := text.toList }; return true
    | none =>
      if Test.existsAt s target then set { s with input := [] }; return true
      else refuse 2 ("cannot open " ++ target ++ ": No such file"); return false
  | .copy =>
    if target = "-" then set (s.setStream number .nowhere); return true
    else match plainNumber? target with
      | some 0 => set (s.setStream number .nowhere); return true
      | some n =>
        if s.streams.any (·.1 = n) then set (s.setStream number (s.stream n)); return true
        else refuse 2 (target ++ ": Bad file descriptor"); return false
      | none => abort "Syntax error: Bad fd number"; return false
  | _ =>
    if target = "/dev/null" || target = "/dev/stderr" then
      set (s.setStream number (if target = "/dev/null" then .nowhere else s.stream 2))
      return true
    else if target = "/dev/stdout" then set (s.setStream number (s.stream 1)); return true
    else match Places.toWrite target with
      | .ok _ =>
        let path := Places.normal target
        let s := if direction = .append then s else { s with files := Bindings.put path "" s.files }
        set (s.setStream number (.file path))
        return true
      | .error _ => refuse 2 ("cannot create " ++ target ++ ": Directory nonexistent"); return false

/-- Gives variables back the values that a function found. -/
def restoredBindings (saved : List (String × Option String)) (b : Bindings) : Bindings :=
  saved.foldl (fun b (name, v) => v.elim (b.erase name) fun v => b.put name v) b

/-- The name of a program without the directory that programs are in. -/
def programName (path : String) : String :=
  if !(path.toList.contains '/') then path
  else if path.toList.head? ≠ some '/' || path.toList.getLast? = some '/' then ""
  else match Places.partsOf path with
    | [name, "bin"] | [name, "bin", "usr"] => name
    | _ => ""

/-- The status of a process, as another shell sees it. -/
def State.statusSeen (s : State) : Nat :=
  match s.flow with
  | .killed signal => 128 + signal
  | _ => s.status % 256

/-- The number of the next process that is not waited for. -/
def State.nextJob (s : State) : String := toString (4243 + s.jobs.length)

/-- What comes first among the arguments of a shell: its options, whether they are turned on or off, and the rest. -/
structure Options where
  on : List Char
  off : List Char
  rest : List String

/-- Takes the options of a shell; nothing if one is not known. -/
def takeOptions : List String → Option Options
  | [] => some ⟨[], [], []⟩
  | "-" :: rest | "--" :: rest => some ⟨[], [], rest⟩
  | "-o" :: name :: rest => (takeOptions rest).map fun o => { o with on := optionLetter name ++ o.on }
  | "+o" :: name :: rest => (takeOptions rest).map fun o => { o with off := optionLetter name ++ o.off }
  | w :: rest =>
    let known (letters : List Char) : Bool := letters.all fun c => "ceuxsvamnfbCi".toList.contains c
    match w.toList with
    | '-' :: letters =>
      if known letters then (takeOptions rest).map fun o => { o with on := letters ++ o.on } else none
    | '+' :: letters =>
      if known letters then (takeOptions rest).map fun o => { o with off := letters ++ o.off } else none
    | _ => some ⟨[], [], w :: rest⟩

/-! ## Expansion and execution -/

mutual

/-- The parts that the pieces of a word stand for. -/
def partsOf (w : Word) : Nat → Doing (List Part)
  | 0 => return []
  | n + 1 => do
    let mut parts : List Part := []
    for p in w do
      if ← goesOn then parts := parts ++ (← partsOfPiece p n)
    return parts

/-- The parts that a piece stands for. -/
def partsOfPiece (p : Piece) : Nat → Doing (List Part)
  | 0 => return []
  | n + 1 => do
    match p with
    | .text s quoted => return [.fixed s quoted]
    | .output c quoted =>
      let before := (← get).status
      let text ← captured (alone (execute c false n) n)
      modify fun s => { s with substituted := some s.status, status := before }
      return [.value quoted (withoutLineEnds text)]
    | .number e quoted =>
      let text := textOf (← partsOf e n)
      let s ← get
      match evaluate text s.bindings with
      | .ok (v, bindings) =>
        set { s with bindings }
        return [.value quoted (toString v)]
      | .error fault =>
        abort (fault.message text)
        return []
    | .parameter name mode argument quoted =>
      if name = "@" || name = "*" then partsOfArguments (name = "@") mode argument quoted n
      else
        let v := (← get).parameter? name
        match mode with
        | .fallback sign evenEmpty =>
          fallback name sign evenEmpty argument quoted (!(v.all fun t => evenEmpty && t.isEmpty)) [.value quoted (v.getD "")] n
        | _ =>
          if v.isNone && (← get).needsNames then abort (name ++ ": parameter not set")
          let pattern ← if mode.trims then patternOf <$> partsOf argument n else pure []
          return [.value quoted (shaped mode pattern (v.getD ""))]

/-- The parts that all arguments stand for. -/
def partsOfArguments (eachAlone : Bool) (mode : Mode) (argument : Word) (quoted : Bool) : Nat → Doing (List Part)
  | 0 => return []
  | n + 1 => do
    let s ← get
    let pattern ← if mode.trims then patternOf <$> partsOf argument n else pure []
    let parts :=
      if quoted && !eachAlone then [Part.fixed (shaped mode pattern s.allArguments) true]
      else ((s.arguments.map fun a => Part.value quoted (shaped mode pattern a)).intersperse .gap)
    match mode with
    | .fallback sign evenEmpty =>
      fallback "@" sign evenEmpty argument quoted (!(evenEmpty && s.allArguments.isEmpty)) parts n
    | .length => return [.value quoted (shaped .length [] s.allArguments)]
    | _ => return parts

/-- The parts of a parameter, or of what takes its place. -/
def fallback (name : String) (sign : Char) (evenEmpty : Bool) (argument : Word) (quoted isThere : Bool) (parts : List Part) :
    Nat → Doing (List Part)
  | 0 => return []
  | n + 1 => do
    let other : Doing (List Part) := do
      let ps ← partsOf argument n
      return if quoted then .fixed "" true :: ps else ps.map Part.loosened
    if sign = '+' then
      if isThere then other else return if quoted then [.fixed "" true] else []
    else if isThere then return parts
    else if sign = '-' then other
    else if sign = '=' then
      let v := textOf (← other)
      assign name v
      return [.value quoted v]
    else
      let text := textOf (← other)
      abort (name ++ ": " ++ if text = "" then "parameter not set" ++ (if evenEmpty then " or null" else "") else text)
      return []

/-- The fields of words. -/
def fieldsOfWords (ws : List Word) : Nat → Doing (List String)
  | 0 => return []
  | n + 1 => do
    let mut fields : List String := []
    for w in ws do
      let ps ← partsOf w n
      fields := fields ++ fieldsOf (← get).cutters ps
    return fields

/-- Assigns values to variables. -/
def assignAll (assignments : List (String × Word)) : Nat → Doing Unit
  | 0 => return
  | n + 1 => do
    for (name, w) in assignments do
      let v := textOf (← partsOf w n)
      if ← goesOn then assign name v

/-- Makes redirections one after another; or one of them cannot be made. -/
def redirectAll (rs : List Redirection) : Nat → Doing Bool
  | 0 => return false
  | n + 1 => do
    let mut good := true
    for (number, direction, w) in rs do
      if good then
        let target := textOf (← partsOf w n)
        good ← if ← goesOn then redirectTo number direction target else pure false
    return good

/-- Does something with redirections; or something else if they cannot be made. -/
def redirecting (rs : List Redirection) (work orElse : Doing Unit) : Nat → Doing Unit
  | 0 => return
  | n + 1 => do
    if rs.isEmpty then work
    else keepingStreams (rs.any fun r => r.1 = 0) do if ← redirectAll rs n then work else orElse

/-- **Executes a command.** -/
def execute (c : Command) (calm : Bool) : Nat → Doing Unit
  | 0 => return
  | n + 1 => do
    if !(← goesOn) then return
    match c with
    | .simple linesLeft assignments ws rs =>
      modify fun s => { s with line := s.lines - linesLeft }
      executeSimple assignments ws rs calm n
      settle calm
    | .pipe parts =>
      let input := (← get).input
      executePipe parts calm n
      modify fun s => { s with input }
      settle calm
    | .both ifGood first second =>
      execute first true n
      if decide ((← get).status = 0) = ifGood then execute second calm n
    | .negated c =>
      execute c true n
      if ← goesOn then setStatus (if (← get).status = 0 then 1 else 0)
    | .aside c =>
      alone (execute c false n) n
      modify fun s => { s with jobs := (s.nextJob, s.status) :: s.jobs, status := 0 }
    | .row parts => for c in parts do execute c calm n
    | .cond test good bad =>
      execute test true n
      if (← get).status = 0 then execute good calm n
      else match bad with
        | .row [] => if ← goesOn then setStatus 0
        | bad => execute bad calm n
    | .loop whileGood test body => inLoop (executeLoop whileGood test body calm 0 n)
    | .each name ws body =>
      let values ← match ws with
        | some ws => fieldsOfWords ws n
        | none => pure (← get).arguments
      if values.isEmpty && (← goesOn) then setStatus 0
      inLoop do
        for v in values do
          if !(← goesOn) then break
          assign name v
          execute body calm n
          if ← leavesLoop then break
    | .choose w arms =>
      let text := (textOf (← partsOf w n)).toList
      for (patterns, body) in arms do
        for p in patterns do
          if (patternOf (← partsOf p n)).matchesAll text then
            if (body matches .row []) && (← goesOn) then setStatus 0
            execute body calm n
            return
      if ← goesOn then setStatus 0
    | .define name body =>
      modify fun s => { s with functions := (name, body) :: s.functions.filter (·.1 ≠ name), status := 0 }
    | .group false body rs => redirecting rs (execute body calm n) (return) n
    | .group true body rs =>
      alone (redirecting rs (execute body calm n) (return) n) n
      settle calm

/-- Executes a simple command. -/
def executeSimple (assignments : List (String × Word)) (ws : List Word) (rs : List Redirection) (calm : Bool) :
    Nat → Doing Unit
  | 0 => return
  | n + 1 => do
    modify fun s => { s with substituted := none }
    let fields ← fieldsOfWords ws n
    if !(← goesOn) then return
    match fields with
    | [] =>
      redirecting rs
        (do assignAll assignments n; if ← goesOn then setStatus ((← get).substituted.getD 0)) (return) n
    | ["exec"] => if ← redirectAll rs n then setStatus 0 else if ← goesOn then finish 2
    | name :: args =>
      let before ← get
      if isSpecialBuiltin name && !(before.functions.any (·.1 = name)) then
        redirecting rs (do assignAll assignments n; if ← goesOn then call name args calm n)
          (do if ← goesOn then finish 2) n
      else if assignments.isEmpty then redirecting rs (call name args calm n) (return) n
      else
        redirecting rs (do
          assignAll assignments n
          modify fun s => { s with exported := assignments.map (·.1) ++ s.exported }
          if ← goesOn then call name args calm n) (return) n
        let saved := assignments.map fun (name, _) => (name, before.binding? name)
        modify fun s => { s with bindings := restoredBindings saved s.bindings, exported := before.exported }

/-- Calls what a name stands for: a function, or a command. -/
def call (name : String) (args : List String) (calm : Bool) : Nat → Doing Unit
  | 0 => return
  | n + 1 => do
    let before ← get
    match before.functions.find? (·.1 = name) with
    | some (_, body) =>
      if 1000 ≤ before.calls then abort "Maximum function recursion depth (1000) reached"
      else
        set { before with arguments := args, saved := some [], loops := 0, calls := before.calls + 1 }
        execute body calm n
        modify fun s =>
          { s with
            arguments := before.arguments
            bindings := restoredBindings (s.saved.getD []) s.bindings
            saved := before.saved
            loops := before.loops
            calls := before.calls
            flow := if s.flow = .back then .on else s.flow }
    | none => command name args calm n

/-- Runs a builtin or a program. -/
def command (name : String) (args : List String) (calm : Bool) : Nat → Doing Unit
  | 0 => return
  | n + 1 => do
    match name, args with
    | "eval", _ =>
      let before := (← get).caller
      modify fun s => { s with status := 0, caller := "eval: " }
      runText (" ".intercalate args) calm n
      modify fun s => { s with caller := before }
    | ".", path :: _ =>
      match (← get).file? (Places.normal path) with
      | some text => runText text calm n
      | none => abort (".: cannot open " ++ path)
    | "command", "-v" :: name :: _ =>
      if (plain? name []).isSome || isSpecialBuiltin name || (← get).functions.any (·.1 = name) then
        say (name ++ "\n")
        setStatus 0
      else if name = "sh" then
        say "/usr/bin/sh\n"
        setStatus 0
      else setStatus 127
    | "command", name :: args => command name args calm n
    | "command", [] => setStatus 0
    | "exec", name :: args =>
      program name args n
      modify fun s => { s with traps := [], flow := if s.flow = .on then .finished else s.flow }
    | "kill", _ => kill args calm n
    | _, _ => match plain? name args with
      | some work => work
      | none => program name args n

/-- Runs a program. -/
def program (path : String) (args : List String) : Nat → Doing Unit
  | 0 => return
  | n + 1 => do
    match programName path with
    | "sh" | "dash" =>
      let before ← get
      let own := State.start path []
      set { own with
        bindings := own.bindings ++ before.bindings.filter fun (b : String × String) => before.exported.contains b.1
        exported := before.exported
        outputs := before.outputs
        files := before.files
        input := before.input
        streams := before.streams }
      shell args n
      modify fun s => { before with outputs := s.outputs, files := s.files, input := s.input, status := s.statusSeen }
    | "echo" => say (echoProgram args); setStatus 0
    | name =>
      let works := ["true", "false", "cat", "seq", "sleep", "printf", "test", "[", "pwd"].contains name
      match if works then plain? name args else none with
      | some work => work
      | none =>
        let caller := (← get).caller
        if Places.toRun path = .denied && path ≠ "" then refuse 126 (caller ++ path ++ ": Permission denied")
        else refuse 127 (caller ++ path ++ ": not found")

/-- Sends a signal to processes. -/
def kill (args : List String) (calm : Bool) : Nat → Doing Unit
  | 0 => return
  | n + 1 => do
    match killTarget args with
    | .error text => refuse 2 ("kill: " ++ text)
    | .ok (_, []) => refuse 2 "kill: Usage: kill [-s sigspec | -signum | -sigspec] [pid | job]..."
    | .ok (signal, targets) =>
      setStatus 0
      for t in targets do
        let s ← get
        if t = ownNumber then
          match s.traps.find? (·.1 = signal) with
          | some (_, action) =>
            if signal = 9 then modify fun s => { s with flow := .killed signal }
            else
              runText action calm n
              if ← goesOn then setStatus 0
          | none =>
            if signal ≠ 0 && !(harmlessSignals.contains signal) && s.flow = .on then
              set { s with flow := .killed signal }
        else if !(s.jobs.any (·.1 = t)) then refuse 1 "kill: No such process"

/-- Executes commands of which each reads what the one before it writes. -/
def executePipe (parts : List Command) (calm : Bool) : Nat → Doing Unit
  | 0 => return
  | n + 1 => do
    match parts with
    | [] => return
    | [last] => alone (execute last calm n) n
    | c :: rest =>
      let before := (← get).status
      let text ← captured (alone (execute c calm n) n)
      modify fun s => { s with input := text.toList, status := before }
      if ← goesOn then executePipe rest calm n

/-- Executes a loop; so far it has a status. -/
def executeLoop (whileGood : Bool) (test body : Command) (calm : Bool) (last : Nat) : Nat → Doing Unit
  | 0 => return
  | n + 1 => do
    execute test true n
    if ← leavesLoop then return
    if decide ((← get).status = 0) ≠ whileGood then setStatus last
    else
      execute body calm n
      if ← leavesLoop then return
      executeLoop whileGood test body calm (← get).status n

/-- Runs a script line by line. -/
def runLines (cs : List Char) (calm : Bool) : Nat → Doing Unit
  | 0 => return
  | n + 1 => do
    if cs.isEmpty || !(← goesOn) then return
    match readLine cs with
    | some (c, rest) =>
      execute c calm n
      runLines rest calm n
    | none => abort "Syntax error"

/-- Runs a script. -/
def runText (script : String) (calm : Bool) : Nat → Doing Unit
  | 0 => return
  | n + 1 => do
    let before ← get
    set { before with lines := script.toList.count '\n' + 1 }
    runLines script.toList calm n
    modify fun s => { s with lines := before.lines, line := before.line }

/-- Ends a shell with what was kept for its end. -/
def atTheEnd : Nat → Doing Unit
  | 0 => return
  | n + 1 => do
    let s ← get
    match s.traps.find? (·.1 = 0), s.flow with
    | _, .killed _ | none, _ => return
    | some (_, action), _ =>
      set { s with traps := s.traps.filter (·.1 ≠ 0), flow := .on }
      runText action false n
      modify fun t => if t.flow = .on then { t with status := s.status } else t

/-- Does something in a shell of its own, to its end. -/
def alone (work : Doing Unit) : Nat → Doing Unit
  | 0 => return
  | n + 1 => apart do
    work
    atTheEnd n

/-- Runs a shell with its arguments, from a state where nothing was done. -/
def shell (args : List String) : Nat → Doing Unit
  | 0 => return
  | n + 1 => do
    match takeOptions args with
    | none => abort "Illegal option"
    | some o =>
      setOptions true o.on
      setOptions false o.off
      match o.on.contains 'c', o.rest with
      | true, [] => abort "-c requires an argument"
      | true, text :: rest =>
        modify fun s => { s with name := rest.headD s.name, arguments := rest.drop 1 }
        runText text false n
      | false, [] => runInput [] n
      | false, path :: rest =>
        if o.on.contains 's' then runInput (path :: rest) n
        else
          modify fun s => { s with name := path, arguments := rest }
          match (← get).file? (Places.normal path) with
          | some text => runText text false n
          | none => abort ("cannot open " ++ path ++ ": No such file")
      atTheEnd n

/-- Runs the input as a script, with arguments. -/
def runInput (args : List String) : Nat → Doing Unit
  | 0 => return
  | n + 1 => do
    let text := String.ofList (← get).input
    modify fun s => { s with input := [], arguments := args }
    runText text false n

end

end Leasehold.Shell
