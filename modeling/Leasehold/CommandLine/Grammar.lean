/-
  Reading the words of a command line.

  A `Grammar` knows options and at most one positional word.  Reading goes in two passes:

  1. **`readWord`** — every word is looked at by itself: it is an option if it spells one, or begins exactly one; it
     is plain if it does not begin with a hyphen, or looks like a negative number, or has a blank in it;
  2. **`consume`** — the words are used up from the left: options with their arguments, then the positional word;
     what nobody wants is set aside.

  An option that asks for help ends the reading on the spot, and so does the first fault.
-/
import Leasehold.Json.Literal
import Leasehold.Number.Reading
namespace Leasehold.CommandLine

/-! ## Grammars -/

/-- What an option wants: to show the help, a word out of a few, or a number. -/
inductive Want where
  | help
  | choice (allowed : List String)
  | number
  deriving DecidableEq, Repr

/-- An option: its forms, the longest last, and what it wants. -/
structure OptionRule where
  forms : List String
  want : Want
  required : Bool
  deriving DecidableEq, Repr

/-- The positional word: any word, or the name of a command that takes all the words after it. -/
inductive Positional where
  | word (name : String)
  | command (name : String) (allowed : List String)
  deriving DecidableEq, Repr

/-- **What words a program takes**, and how it tells. -/
structure Grammar where
  program : String
  usage : String
  details : String
  options : List OptionRule
  positional : Option Positional
  deriving Repr

/-- The forms of an option as one name. -/
def OptionRule.label (rule : OptionRule) : String := "/".intercalate rule.forms

/-- The form by which an option's value is kept. -/
def OptionRule.key (rule : OptionRule) : String := rule.forms.getLast?.getD ""

def Positional.name : Positional → String
  | word name => name
  | command name _ => name

/-! ## Faults -/

/-- What is wrong with the words of a command line. -/
inductive WordFault where
  | argumentMissing (label : String)
  | notANumber (label text : String)
  | notAllowed (label text : String) (allowed : List String)
  | argumentIgnored (label text : String)
  | ambiguous (word : String) (forms : List String)
  | missing (names : List String)
  | unrecognized (words : List String)
  | nothingToRun
  deriving DecidableEq, Repr

def WordFault.message : WordFault → String
  | argumentMissing label => "argument " ++ label ++ ": expected one argument"
  | notANumber label text => "argument " ++ label ++ ": invalid float value: " ++ Text.quoted text
  | notAllowed label text allowed =>
    "argument " ++ label ++ ": invalid choice: " ++ Text.quoted text
      ++ " (choose from " ++ Value.commaList (allowed.map Text.quoted) ++ ")"
  | argumentIgnored label text => "argument " ++ label ++ ": ignored explicit argument " ++ Text.quoted text
  | ambiguous word forms => "ambiguous option: " ++ word ++ " could match " ++ Value.commaList forms
  | missing names => "the following arguments are required: " ++ Value.commaList names
  | unrecognized words => "unrecognized arguments: " ++ " ".intercalate words
  | nothingToRun => "run needs a command after --"

/-- Why reading stops: somebody asked for help, or there is a fault. -/
inductive Stop where
  | help
  | fault (f : WordFault)
  deriving DecidableEq, Repr

/-! ## One word -/

/-- What a word is: plain, an option nobody knows, an option with the argument joined to it by an equals sign, or an
option of one letter with more characters behind it, an equals sign between them or not. -/
inductive Reading where
  | plain
  | unknown
  | option (rule : OptionRule) (joined : Option String)
  | cluster (rule : OptionRule) (rest : List Char)
  deriving DecidableEq, Repr

/-- A word in two parts at its first equals sign. -/
def splitAtEquals (w : String) : String × Option String :=
  let cs := w.toList
  match cs.dropWhile (· ≠ '=') with
  | [] => (w, none)
  | _ :: rest => (String.ofList (cs.takeWhile (· ≠ '=')), some (String.ofList rest))

/-- Whether characters are digits of any script, at least one. -/
def areDigits (cs : List Char) : Bool := !cs.isEmpty && cs.all fun c => (Text.digit? c).isSome

/-- Whether a word looks like a negative number: digits, or a point with digits after it.  One line feed may follow. -/
def looksNegative (w : String) : Bool :=
  match w.toList with
  | '-' :: cs =>
    let body := if cs.getLast? = some '\n' then cs.dropLast else cs
    areDigits body || match body.dropWhile (· ≠ '.') with
      | _ :: fraction =>
        let whole := body.takeWhile (· ≠ '.')
        (whole.isEmpty || areDigits whole) && areDigits fraction
      | [] => false
  | _ => false

/-- What a word is that spells no option. -/
def readOther (w : String) : Reading :=
  if looksNegative w || w.toList.contains ' ' then .plain else .unknown

namespace Grammar

/-- The option with a form. -/
def rule? (g : Grammar) (form : String) : Option OptionRule := g.options.find? fun r => r.forms.contains form

/-- The forms that begin with a text, each with its option. -/
def beginning (g : Grammar) (front : String) : List (String × OptionRule) :=
  g.options.flatMap fun r => (r.forms.filter fun f => front.toList.isPrefixOf f.toList).map (·, r)

/-- What a word with two hyphens is: an option if exactly one form begins with it. -/
def readLong (g : Grammar) (w : String) : Except WordFault Reading :=
  let (front, joined) := splitAtEquals w
  match g.beginning front with
  | [] => .ok (readOther w)
  | [(_, rule)] => .ok (.option rule joined)
  | many => .error (.ambiguous w (many.map (·.1)))

/-- What a word with one hyphen is: an option if its letter is one. -/
def readShort (g : Grammar) (w : String) : Reading :=
  match w.toList with
  | hyphen :: letter :: rest => match g.rule? (String.ofList [hyphen, letter]) with
    | some rule => .cluster rule rest
    | none => readOther w
  | _ => readOther w

/-- **What a word is.** -/
def readWord (g : Grammar) (w : String) : Except WordFault Reading :=
  match w.toList with
  | '-' :: c :: _ =>
    let (front, joined) := splitAtEquals w
    match g.rule? w, g.rule? front with
    | some rule, _ => .ok (.option rule none)
    | none, some rule => .ok (if c = '-' then .option rule joined else .cluster rule (joined.getD "").toList)
    | none, none => if c = '-' then g.readLong w else .ok (g.readShort w)
  | _ => .ok .plain

end Grammar

/-! ## All words -/

/-- What was gathered from the words so far. -/
structure Gathered where
  values : List (String × Value)
  word : Option String
  rest : List String
  extras : List String
  deriving Repr

/-- Nothing gathered yet. -/
def Gathered.empty : Gathered := ⟨[], none, [], []⟩

def Gathered.setAside (words : List String) (acc : Gathered) : Gathered := { acc with extras := acc.extras ++ words }

/-- The argument of an option as a value. -/
def OptionRule.read (rule : OptionRule) (text : String) : Except Stop Value :=
  match rule.want with
  | .help => .error (.fault (.argumentIgnored rule.label text))
  | .choice allowed =>
    if allowed.contains text then .ok (.text text) else .error (.fault (.notAllowed rule.label text allowed))
  | .number => match Number.readReal? text with
    | some x => .ok (.real x)
    | none => .error (.fault (.notANumber rule.label text))

namespace Grammar

/-- What the characters behind an option of one letter mean, when no such option takes an argument: each has to be the
letter of an option again, and the last option is the one that acts.  The characters from the first that is no such
letter on are an argument that nobody asked for. -/
def readCluster (g : Grammar) (rule : OptionRule) : List Char → Stop
  | [] => .fault (.argumentIgnored rule.label "")
  | c :: rest => match g.rule? (String.ofList ['-', c]) with
    | none => .fault (.argumentIgnored rule.label (String.ofList (c :: rest)))
    | some next => if rest.isEmpty then .help else readCluster g next rest

/-- **Uses up the words.** -/
def consume (g : Grammar) : List (String × Reading) → Gathered → Except Stop Gathered
  | [], acc => .ok acc
  | (w, .plain) :: rest, acc =>
    match g.positional, acc.word with
    | some (.word _), none => consume g rest { acc with word := some w }
    | some (.command name allowed), none =>
      if allowed.contains w then .ok { acc with word := some w, rest := rest.map (·.1) }
      else .error (.fault (.notAllowed name w allowed))
    | _, _ => consume g rest (acc.setAside [w])
  | (w, .unknown) :: rest, acc => consume g rest (acc.setAside [w])
  | (_, .cluster rule cs) :: _, _ => .error (g.readCluster rule cs)
  | (_, .option rule (some text)) :: rest, acc => do
    let v ← rule.read text
    consume g rest { acc with values := Value.putField rule.key v acc.values }
  | (_, .option rule none) :: rest, acc =>
    if rule.want = .help then .error .help
    else match rest with
      | (text, .plain) :: rest => do
        let v ← rule.read text
        consume g rest { acc with values := Value.putField rule.key v acc.values }
      | _ => .error (.fault (.argumentMissing rule.label))

/-- The names of what has to be there and is not: the positional word, then options. -/
def missing (g : Grammar) (got : Gathered) : List String :=
  (match g.positional, got.word with
    | some p, none => [p.name]
    | _, _ => [])
  ++ (g.options.filter fun r => r.required && (Value.field? r.key got.values).isNone).map (·.label)

/-- **Reads the words of a command line.** -/
def read (g : Grammar) (words : List String) : Except Stop Gathered := do
  let readings ← (words.mapM g.readWord).mapError Stop.fault
  let got ← g.consume (words.zip readings) .empty
  match g.missing got with
  | [] => return got
  | names => .error (.fault (.missing names))

/-- The text that help shows. -/
def help (g : Grammar) : String := g.usage ++ "\n" ++ g.details

/-- The text of a fault: the usage, and what is wrong. -/
def refusal (g : Grammar) (f : WordFault) : String := g.usage ++ g.program ++ ": error: " ++ f.message ++ "\n"

end Grammar

/-! ## Samples -/

example : looksNegative "-5.5" = true := by decide +kernel
example : looksNegative "-1e3" = false := by decide +kernel
example : splitAtEquals "--at-most=5=6" = ("--at-most", some "5=6") := by decide +kernel

end Leasehold.CommandLine
