/-
  Reading scripts.

  A reader takes characters off the front, or fails.  Readers call one another, so each is given a number of calls that
  it may still be deep (`depthOf` is enough for every script: between two characters that are taken there are only a
  few calls).

  A script is read line by line, since what a line does may come before the fault of the next one: `readLine`.
-/
import Leasehold.Shell.Script
import Leasehold.Text.Quoted
namespace Leasehold.Shell

/-- A reader of characters. -/
abbrev Read := StateT (List Char) Option

namespace Read

/-! ## Characters -/

/-- Characters that end a word. -/
def isMeta (c : Char) : Bool := " \t\n;&|<>()".toList.contains c

/-- Characters of names. -/
def isName (c : Char) : Bool := c.isAlphanum || c = '_'

/-- The names of the parameters that the shell sets by itself. -/
def isSpecial (c : Char) : Bool := c.isDigit || "@*#?$!-".toList.contains c

/-- The mark around the output of a script. -/
def mark : Char := '\x60'

/-- Takes characters of a kind. -/
def takeAll (test : Char → Bool) : Read String :=
  modifyGet fun cs => (String.ofList (cs.takeWhile test), cs.dropWhile test)

/-- Whether a text comes next. -/
def ahead (s : String) : Read Bool := do return s.toList.isPrefixOf (← get)

/-- Takes a text if it comes next. -/
def eat (s : String) : Read Bool := do
  if ← ahead s then
    modify (·.drop s.length)
    return true
  else return false

/-- Takes a text that has to come next. -/
def need (s : String) : Read Unit := do unless ← eat s do failure

/-- Takes the first of some texts that comes next. -/
def eatOne : List String → Read (Option String)
  | [] => return none
  | s :: rest => do if ← eat s then return some s else eatOne rest

/-- The characters without blanks and remarks at the front, and without line ends if `lines`. -/
def skipBlanks (lines inRemark : Bool) : List Char → List Char
  | [] => []
  | '\\' :: '\n' :: rest => if inRemark then '\n' :: rest else skipBlanks lines false rest
  | c :: rest =>
    if inRemark && c ≠ '\n' then skipBlanks lines true rest
    else if c = ' ' || c = '\t' || (lines && c = '\n') then skipBlanks lines false rest
    else if c = '#' then skipBlanks lines true rest
    else c :: rest

/-- Skips blanks and remarks. -/
def blank (lines : Bool) : Read Unit := modify (skipBlanks lines false)

/-- The word that comes next, as it is written. -/
def key : Read String := do return String.ofList ((← get).takeWhile fun c => !isMeta c)

/-- Takes a reserved word if it comes next. -/
def eatKey (s : String) : Read Bool := do
  blank true
  if (← key) = s then eat s else return false

/-- Takes a reserved word that has to come next. -/
def needKey (s : String) : Read Unit := do unless ← eatKey s do failure

/-- The reserved words that end a list of commands. -/
def closers : List String := ["then", "else", "elif", "fi", "do", "done", "esac", "\x7d"]

/-! ## Raw stretches -/

/-- The characters up to the two brackets that end an expression, and those behind. -/
def expressionText (depth : Nat) (acc : List Char) : List Char → Option (List Char × List Char)
  | [] => none
  | [_] => none
  | c :: d :: rest =>
    if c = ')' && d = ')' && depth = 0 then some (acc.reverse, rest)
    else if c = ')' && depth = 0 then none
    else expressionText (if c = '(' then depth + 1 else if c = ')' then depth - 1 else depth) (c :: acc) (d :: rest)

/-- The characters up to the mark that ends a script, and those behind. -/
def markedText (acc : List Char) : List Char → Option (List Char × List Char)
  | [] => none
  | '\\' :: c :: rest =>
    if c = mark || c = '\\' || c = '$' then markedText (c :: acc) rest else markedText (c :: '\\' :: acc) rest
  | c :: rest => if c = mark then some (acc.reverse, rest) else markedText (c :: acc) rest

/-- The lines up to one that is a certain text, and what is behind it; tabs at the front of lines are dropped if `bare`. -/
def linesUpTo (last : List Char) (bare : Bool) : List (List Char) → List (List Char) × List (List Char)
  | [] => ([], [])
  | line :: rest =>
    let line := if bare then line.dropWhile (· = '\t') else line
    if line = last then ([], rest)
    else
      let (front, behind) := linesUpTo last bare rest
      (line :: front, behind)

/-- Takes the lines of an input that begins after this line and ends before a line of its own. -/
def inputLines (last : List Char) (bare : Bool) : Read (List Char) := do
  let cs ← get
  match cs.dropWhile (· ≠ '\n') with
  | [] => return []
  | _ :: behind =>
    let (front, behind) := linesUpTo last bare (behind.splitOn '\n')
    set (cs.takeWhile (· ≠ '\n') ++ '\n' :: ['\n'].intercalate behind)
    return front.flatMap (· ++ ['\n'])

/-- The text of a word as it is written, without its quotes; and whether it had any. -/
def plainText (w : Word) : List Char × Bool :=
  (w.flatMap fun | .text s _ => s.toList | _ => [], w.any fun | .text _ quoted => quoted | _ => false)

/-- The name of a parameter; in braces a number may have many digits. -/
def parameterName (inBraces : Bool) : Read String := do
  match ← get with
  | c :: rest =>
    if inBraces && c.isDigit then takeAll Char.isDigit
    else if isSpecial c then
      set rest
      return String.singleton c
    else if isName c then takeAll isName
    else failure
  | [] => failure

/-- Whether the length of a parameter is asked for, when its name is in braces. -/
def asksLength : Read Bool := do
  match ← get with
  | '#' :: rest => match ((parameterName true).run rest : Option (String × List Char)) with
    | some (_, '\x7d' :: _) => return true
    | _ => return false
  | _ => return false

/-- The signs between a parameter's name and its argument. -/
def modeOf : String → Mode
  | "##" => .trimmed true true
  | "#" => .trimmed true false
  | "%%" => .trimmed false true
  | "%" => .trimmed false false
  | s => match s.toList with
    | [':', sign] => .fallback sign true
    | [sign] => .fallback sign false
    | _ => .value

/-- Whether a backslash keeps its meaning before a character between double quotes. -/
def isEscapable (c : Char) : Bool := c = '$' || c = '\\' || c = Text.doubleQuote || c = mark

/-- The piece after a backslash. -/
def escaped (quoted : Bool) (stop : Char → Bool) : Read (List Piece) := do
  match ← get with
  | [] => return [.text "\\" true]
  | c :: rest =>
    if c = '\n' then
      set rest
      return []
    else if quoted && !(isEscapable c || stop c) then return [.text "\\" true]
    else
      set rest
      return [.text (String.singleton c) true]

/-- Whether commands end here. -/
def atEnd : Read Bool := do
  return (← get).isEmpty || (← ahead ")") || (← ahead ";;") || closers.contains (← key)

/-- Takes what stands between two commands, if it does: the command before it, and whether there was one. -/
def separated (c : Command) : Read (Command × Bool) := do
  if ← ahead ";;" then return (c, false)
  match ← eatOne [";", "&", "\n"] with
  | some s => return (if s = "&" then .aside c else c, true)
  | none => return (c, false)

/-! ## Readers -/

mutual

/-- Pieces up to a character that ends them. -/
def pieces (quoted : Bool) (stop : Char → Bool) : Nat → Read Word
  | 0 => failure
  | n + 1 => do
    match ← get with
    | [] => return []
    | c :: rest =>
      if stop c then return []
      set rest
      let front ← piece quoted stop c n
      return front ++ (← pieces quoted stop n)

/-- The pieces that begin with a character. -/
def piece (quoted : Bool) (stop : Char → Bool) (c : Char) : Nat → Read Word
  | 0 => failure
  | n + 1 => do
    if c = '\\' then escaped quoted stop
    else if c = Text.apostrophe && !quoted then
      let s ← takeAll (· ≠ Text.apostrophe)
      need "'"
      return [.text s true]
    else if c = Text.doubleQuote && !quoted then
      let inner ← pieces true (· = Text.doubleQuote) n
      need "\""
      return if inner.isEmpty then [.text "" true] else inner
    else if c = '$' then dollar quoted n
    else if c = mark then
      let (script, rest) ← (markedText [] (← get) : Option (List Char × List Char))
      let (c, _) ← ((commands n).run script : Option (Command × List Char))
      set rest
      return [.output c quoted]
    else return [.text (String.singleton c) quoted]

/-- The piece after a dollar sign. -/
def dollar (quoted : Bool) : Nat → Read Word
  | 0 => failure
  | n + 1 => do
    if ← eat "((" then
      let (text, rest) ← (expressionText 0 [] (← get) : Option (List Char × List Char))
      let (e, _) ← ((pieces true (fun _ => false) n).run text : Option (Word × List Char))
      set rest
      return [.number e quoted]
    else if ← eat "(" then
      let c ← commands n
      need ")"
      return [.output c quoted]
    else if ← eat "\x7b" then
      let asksLength ← if ← asksLength then eat "#" else pure false
      let name ← parameterName true
      let sign ← if asksLength then pure none else eatOne ["##", "%%", ":-", ":=", ":?", ":+", "#", "%", "-", "=", "?", "+"]
      let mode := if asksLength then .length else modeOf (sign.getD "")
      let argument ← if sign.isSome then pieces (quoted && !mode.trims) (· = '\x7d') n else pure []
      need "\x7d"
      return [.parameter name mode argument quoted]
    else match ← get with
      | c :: _ =>
        if isName c || isSpecial c then return [.parameter (← parameterName false) .value [] quoted]
        else return [.text "$" quoted]
      | [] => return [.text "$" quoted]

/-- A word, which is not empty as it is written. -/
def word : Nat → Read Word
  | 0 => failure
  | n + 1 => do
    match ← get with
    | [] => failure
    | c :: _ => if isMeta c then failure else pieces false isMeta n

/-- Words up to the end of the command. -/
def words : Nat → Read (List Word)
  | 0 => failure
  | n + 1 => do
    blank false
    if (← get).isEmpty || (← ahead ";") || (← ahead "\n") then return []
    let w ← word n
    return w :: (← words n)

/-- Commands up to the end of what they stand in. -/
def commands : Nat → Read Command
  | 0 => failure
  | n + 1 => do return .row (← commandRow n)

def commandRow : Nat → Read (List Command)
  | 0 => failure
  | n + 1 => do
    blank true
    if ← atEnd then return []
    let c ← chain n
    blank false
    let (c, more) ← separated c
    if more then return c :: (← commandRow n) else return [c]

/-- Commands that depend on how the one before them ended. -/
def chain : Nat → Read Command
  | 0 => failure
  | n + 1 => do chainAfter (← pipeline n) n

def chainAfter (first : Command) : Nat → Read Command
  | 0 => failure
  | n + 1 => do
    blank false
    match ← eatOne ["&&", "||"] with
    | none => return first
    | some sign =>
      blank true
      chainAfter (.both (sign = "&&") first (← pipeline n)) n

/-- Commands of which each reads what the one before it writes. -/
def pipeline : Nat → Read Command
  | 0 => failure
  | n + 1 => do
    let negated ← eatKey "!"
    let c ← match ← pipeRow n with
      | [c] => pure c
      | cs => pure (.pipe cs)
    return if negated then .negated c else c

def pipeRow : Nat → Read (List Command)
  | 0 => failure
  | n + 1 => do
    let c ← command n
    blank false
    if (← ahead "|") && !(← ahead "||") then
      need "|"
      blank true
      return c :: (← pipeRow n)
    else return [c]

/-- The body of a loop. -/
def block : Nat → Read Command
  | 0 => failure
  | n + 1 => do
    needKey "do"
    let c ← commands n
    needKey "done"
    return c

/-- The branches of a condition. -/
def branches : Nat → Read Command
  | 0 => failure
  | n + 1 => do
    let test ← commands n
    needKey "then"
    let good ← commands n
    if ← eatKey "elif" then return .cond test good (← branches n)
    let bad ← if ← eatKey "else" then commands n else pure .nothing
    needKey "fi"
    return .cond test good bad

/-- The patterns of an arm. -/
def patterns : Nat → Read (List Word)
  | 0 => failure
  | n + 1 => do
    blank false
    let w ← word n
    blank false
    if ← eat "|" then return w :: (← patterns n) else return [w]

/-- The arms of a choice. -/
def arms : Nat → Read (List (List Word × Command))
  | 0 => failure
  | n + 1 => do
    if ← eatKey "esac" then return []
    let _ ← eat "("
    let ws ← patterns n
    need ")"
    let c ← commands n
    let _ ← eat ";;"
    return (ws, c) :: (← arms n)

/-- A loop over words. -/
def loopOver : Nat → Read Command
  | 0 => failure
  | n + 1 => do
    blank false
    let name ← takeAll isName
    let ws ← if ← eatKey "in" then some <$> words n else pure none
    let _ ← eat ";"
    return .each name ws (← block n)

/-- Whether a function's definition comes next, by the word that comes next. -/
def definesFunction (k : String) : Nat → Read Bool
  | 0 => failure
  | _ + 1 => do
    let behind := (← get).drop k.length
    let noBlank (cs : List Char) : List Char := cs.dropWhile fun c => c = ' ' || c = '\t'
    return !k.isEmpty && k.toList.all isName && match noBlank behind with
      | '(' :: rest => (noBlank rest).head? = some ')'
      | _ => false

/-- One command. -/
def command : Nat → Read Command
  | 0 => failure
  | n + 1 => do
    blank true
    let k ← key
    if k = "if" then need k; redirected (← branches n) n
    else if k = "while" || k = "until" then need k; redirected (.loop (k = "while") (← commands n) (← block n)) n
    else if k = "for" then need k; redirected (← loopOver n) n
    else if k = "case" then
      need k
      blank false
      let w ← word n
      needKey "in"
      redirected (.choose w (← arms n)) n
    else if k = "\x7b" then
      need k
      let c ← commands n
      needKey "\x7d"
      redirected c n
    else if ← eat "(" then
      let c ← commands n
      need ")"
      return .group true c (← redirections n)
    else if k = "!" || closers.contains k then failure
    else if ← definesFunction k n then
      need k
      blank false
      need "("
      blank false
      need ")"
      return .define k (← command n)
    else simple ((← get).count '\n') [] [] [] n

/-- A command that others make up, with redirections behind it. -/
def redirected (c : Command) : Nat → Read Command
  | 0 => failure
  | n + 1 => do
    match ← redirections n with
    | [] => return c
    | rs => return .group false c rs

/-- A redirection, if one comes next. -/
def redirection? : Nat → Read (Option Redirection)
  | 0 => failure
  | n + 1 => do
    blank false
    let digits := (← get).takeWhile Char.isDigit
    match (← get).drop digits.length with
    | '>' :: _ | '<' :: _ =>
      modify (·.drop digits.length)
      let sign ← eatOne [">>", ">&", "<<-", "<<", "<&", ">|", ">", "<"]
      blank false
      let target ← word n
      if sign = some "<<" || sign = some "<<-" then
        let (last, quoted) := plainText target
        let text ← inputLines last (sign = some "<<-")
        if quoted then return some (0, .here, [.text (String.ofList text) true])
        let (w, _) ← ((pieces true (fun _ => false) n).run text : Option (Word × List Char))
        return some (0, .here, w)
      let reads := sign = some "<" || sign = some "<&"
      let direction : Direction :=
        if sign = some ">>" then .append
        else if sign = some ">&" || sign = some "<&" then .copy
        else if reads then .read
        else .write
      return some ((String.ofList digits).toNat?.getD (if reads then 0 else 1), direction, target)
    | _ => return none

def redirections : Nat → Read (List Redirection)
  | 0 => failure
  | n + 1 => do
    match ← redirection? n with
    | some r => return r :: (← redirections n)
    | none => return []

/-- A simple command, of which some is there. -/
def simple (linesLeft : Nat) (assignments : List (String × Word)) (ws : List Word) (rs : List Redirection) :
    Nat → Read Command
  | 0 => failure
  | n + 1 => do
    match ← redirection? n with
    | some r => simple linesLeft assignments ws (rs ++ [r]) n
    | none =>
      let cs ← get
      let name := cs.takeWhile isName
      if cs.head?.all isMeta then
        if assignments.isEmpty && ws.isEmpty && rs.isEmpty then failure
        return .simple linesLeft assignments ws rs
      else if ws.isEmpty && name.head?.any (fun c => !c.isDigit) && (cs.drop name.length).head? = some '=' then
        set (cs.drop (name.length + 1))
        simple linesLeft (assignments ++ [(String.ofList name, ← pieces false isMeta n)]) ws rs n
      else simple linesLeft assignments (ws ++ [← word n]) rs n

end

/-- The rest of a line, whose commands come one after another. -/
def lineRow : Nat → Read (List Command)
  | 0 => failure
  | n + 1 => do
    blank false
    if (← get).isEmpty || (← ahead "\n") then return []
    let c ← chain n
    blank false
    if (← get).isEmpty || (← ahead "\n") then return [c]
    match ← eatOne [";", "&"] with
    | some s => return (if s = "&" then .aside c else c) :: (← lineRow n)
    | none => failure

end Read

/-- How deep readers may call one another. -/
def depthOf (cs : List Char) : Nat := 16 * cs.length + 64

/-- **Reads the next line of a script**: its commands and the rest, or nothing if there is a fault. -/
def readLine (cs : List Char) : Option (Command × List Char) := do
  let cs := Read.skipBlanks true false cs
  let (row, rest) ← (Read.lineRow (depthOf cs)).run cs
  return (.row row, rest)

end Leasehold.Shell
