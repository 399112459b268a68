/-
  Whole-number expressions of a shell.

  Variables are names; those that are not set count as zero.  The operators have the ranks and the meaning that they
  have in C, on 64 bits: quotients are cut towards zero, and sums wrap around.  An assignment changes a variable.

  `evaluate` is given the variables, and gives them back.
-/
import Leasehold.Text.Digit
namespace Leasehold.Shell

/-- The variables of a shell. -/
abbrev Bindings := List (String × String)

namespace Bindings

/-- The value of a variable. -/
def find? (name : String) (b : Bindings) : Option String := (List.find? (·.1 = name) b).map (·.2)

/-- Sets a variable. -/
def put (name value : String) : Bindings → Bindings
  | [] => [(name, value)]
  | (k, v) :: rest => if k = name then (k, value) :: rest else (k, v) :: put name value rest

/-- Takes a variable away. -/
def erase (name : String) (b : Bindings) : Bindings := b.filter (·.1 ≠ name)

end Bindings

namespace Arithmetic

/-- Why an expression has no value: something else had to come, a quotient by zero, or a variable that is no number. -/
inductive Fault where
  | expecting (what : String)
  | divisionByZero
  | noNumber (text : String)
  deriving DecidableEq, Repr

/-- The words for a fault of an expression. -/
def Fault.message (expression : String) : Fault → String
  | expecting what => "arithmetic expression: expecting " ++ what ++ ": \"" ++ expression ++ "\""
  | divisionByZero => "arithmetic expression: division by zero: \"" ++ expression ++ "\""
  | noNumber text => "Illegal number: " ++ text

/-! ## Numbers -/

/-- The number that 64 bits hold. -/
def wrap (i : Int) : Int := Int.bmod i (Nat.pow 2 64)

/-- The least and the greatest number that 64 bits hold. -/
def least : Int := -(Nat.pow 2 63 : Nat)
def greatest : Int := Nat.pow 2 63 - 1

/-- The nearest number that 64 bits hold. -/
def clamp (i : Int) : Int := max least (min greatest i)

/-- The value of a digit, in any base up to sixteen. -/
def digitOf? (c : Char) : Option Nat :=
  if c.isDigit then some (c.toNat - 48)
  else if 'a' ≤ c && c ≤ 'f' then some (c.toNat - 87)
  else if 'A' ≤ c && c ≤ 'F' then some (c.toNat - 55)
  else none

/-- Whether a character is a digit in a base. -/
def isDigitIn (base : Nat) (c : Char) : Bool := (digitOf? c).any (· < base)

/-- The number of digits, so far, and what comes behind them. -/
def digitsIn (base acc : Nat) : List Char → Nat × List Char
  | [] => (acc, [])
  | c :: rest =>
    if isDigitIn base c then digitsIn base (base * acc + (digitOf? c).getD 0) rest else (acc, c :: rest)

/-- The number at the front of characters, and what comes behind it: in base eight after a nought, sixteen after a nought
and an x, and ten otherwise. -/
def natAtFront? : List Char → Option (Nat × List Char)
  | '0' :: x :: c :: rest =>
    if (x = 'x' || x = 'X') && isDigitIn 16 c then some (digitsIn 16 0 (c :: rest)) else some (digitsIn 8 0 (x :: c :: rest))
  | '0' :: rest => some (digitsIn 8 0 rest)
  | c :: rest => if c.isDigit then some (digitsIn 10 0 (c :: rest)) else none
  | [] => none

/-- The same with blanks and a sign before it; the reader of the number itself is given. -/
def intAtFront? (nat? : List Char → Option (Nat × List Char)) (cs : List Char) : Option (Int × List Char) :=
  match cs.dropWhile Char.isWhitespace with
  | '-' :: rest => (nat? rest).map fun (n, rest) => (-(n : Int), rest)
  | '+' :: rest => (nat? rest).map fun (n, rest) => ((n : Int), rest)
  | cs => (nat? cs).map fun (n, rest) => ((n : Int), rest)

/-- A number and nothing else but blanks, if 64 bits hold it. -/
def wholeInt? (nat? : List Char → Option (Nat × List Char)) (s : String) : Option Int :=
  match intAtFront? nat? s.toList with
  | some (i, rest) => if rest.all Char.isWhitespace && clamp i = i then some i else none
  | none => none

/-- The value of a variable's text; a blank one counts as zero. -/
def valueOf (s : String) : Except Fault Int :=
  if s.toList.all Char.isWhitespace then .ok 0 else (wholeInt? natAtFront? s).elim (.error (.noNumber s)) .ok

/-! ## Operators -/

/-- The operators between two values with their ranks; an operator stands before those that begin it. -/
def operators : List (String × Nat) :=
  [("||", 1), ("&&", 2), ("<<", 8), (">>", 8), ("<=", 7), (">=", 7), ("==", 6), ("!=", 6), ("|", 3), ("^", 4), ("&", 5),
   ("<", 7), (">", 7), ("+", 9), ("-", 9), ("*", 10), ("/", 10), ("%", 10)]

/-- The operators that an assignment may have. -/
def assigners : List String := ["<<", ">>", "*", "/", "%", "+", "-", "&", "^", "|"]

/-- A truth as a number. -/
def truth (b : Bool) : Int := if b then 1 else 0

/-- Works bit by bit, on 64 bits. -/
def bitwise (work : Nat → Nat → Nat) (a b : Int) : Int :=
  wrap (work (a % Nat.pow 2 64).toNat (b % Nat.pow 2 64).toNat)

/-- What an operator makes of two values. -/
def apply (op : String) (a b : Int) : Except Fault Int :=
  match op with
  | "||" => .ok (truth (a ≠ 0 || b ≠ 0))
  | "&&" => .ok (truth (a ≠ 0 && b ≠ 0))
  | "<<" => .ok (wrap (a * Nat.pow 2 (b % 64).toNat))
  | ">>" => .ok (a.fdiv (Nat.pow 2 (b % 64).toNat))
  | "<=" => .ok (truth (a ≤ b))
  | ">=" => .ok (truth (a ≥ b))
  | "==" => .ok (truth (a = b))
  | "!=" => .ok (truth (a ≠ b))
  | "<" => .ok (truth (a < b))
  | ">" => .ok (truth (a > b))
  | "|" => .ok (bitwise Nat.lor a b)
  | "^" => .ok (bitwise Nat.xor a b)
  | "&" => .ok (bitwise Nat.land a b)
  | "+" => .ok (wrap (a + b))
  | "-" => .ok (wrap (a - b))
  | "*" => .ok (wrap (a * b))
  | "/" => if b = 0 then .error .divisionByZero else .ok (wrap (a.tdiv b))
  | "%" => if b = 0 then .error .divisionByZero else .ok (a.tmod b)
  | _ => .error (.expecting "EOF")

/-! ## Evaluation -/

/-- The state of an evaluation: the characters left, the variables, and whether what is read is not to be evaluated. -/
structure State where
  rest : List Char
  bindings : Bindings
  idle : Bool

abbrev Eval := StateT State (Except Fault)

def skip : Eval Unit := modify fun s => { s with rest := s.rest.dropWhile Char.isWhitespace }

/-- Takes a text if it comes next. -/
def eat (t : String) : Eval Bool := do
  skip
  let s ← get
  if t.toList.isPrefixOf s.rest then
    set { s with rest := s.rest.drop t.length }
    return true
  else return false

/-- Does something without evaluating it, if told so. -/
def idly (idle : Bool) (x : Eval Int) : Eval Int := do
  let before := (← get).idle
  modify fun s => { s with idle := before || idle }
  let v ← x
  modify fun s => { s with idle := before }
  return v

/-- What an operator makes of two values, if that is to be evaluated. -/
def applied (op : String) (a b : Int) : Eval Int := do
  if (← get).idle then return b else apply op a b

/-- The value of a variable. -/
def lookUp (name : String) : Eval Int := do
  let s ← get
  if s.idle then return 0 else valueOf ((Bindings.find? name s.bindings).getD "")

/-- The operator that comes next, if its rank is high enough; one that an equals sign makes an assignment is none. -/
def nextOperator? (rank : Nat) : Eval (Option (String × Nat)) := do
  skip
  let cs := (← get).rest
  match operators.find? fun op => op.1.toList.isPrefixOf cs with
  | some op =>
    let assigns := assigners.contains op.1 && (cs.drop op.1.length).head? = some '='
    return if rank ≤ op.2 && !assigns then some op else none
  | none => return none

/-- The name of a variable that comes next. -/
def name? : Eval (Option String) := do
  skip
  let s ← get
  let word := s.rest.takeWhile fun c => c.isAlphanum || c = '_'
  if word.head?.all Char.isDigit then return none
  set { s with rest := s.rest.drop word.length }
  return some (String.ofList word)

/-- The assignment that comes next, by its operator; none is the plain one. -/
def assigner? : Eval (Option (Option String)) := do
  skip
  let cs := (← get).rest
  if "==".toList.isPrefixOf cs then return none
  if ← eat "=" then return some none
  match assigners.find? fun op => (op ++ "=").toList.isPrefixOf cs with
  | some op =>
    let _ ← eat (op ++ "=")
    return some (some op)
  | none => return none

/-- Assigns a value to a variable. -/
def assign (name : String) (op : Option String) (v : Int) : Eval Int := do
  let v ← match op with
    | none => pure v
    | some op => do applied op (← lookUp name) v
  unless (← get).idle do modify fun s => { s with bindings := s.bindings.put name (toString v) }
  return v

mutual

/-- An assignment, or an expression without one. -/
def whole : Nat → Eval Int
  | 0 => throw (.expecting "EOF")
  | n + 1 => do
    let before := (← get).rest
    match ← name? with
    | none => conditional n
    | some name => match ← assigner? with
      | some op => assign name op (← whole n)
      | none =>
        modify fun s => { s with rest := before }
        conditional n

/-- An expression with a choice in it, or without. -/
def conditional : Nat → Eval Int
  | 0 => throw (.expecting "EOF")
  | n + 1 => do
    let test ← ranked 1 n
    if ← eat "?" then
      let good ← idly (test = 0) (whole n)
      unless ← eat ":" do throw (.expecting "':'")
      let bad ← idly (test ≠ 0) (conditional n)
      return if test ≠ 0 then good else bad
    else return test

/-- Values between which stand operators of a rank or a higher one. -/
def ranked (rank : Nat) : Nat → Eval Int
  | 0 => throw (.expecting "EOF")
  | n + 1 => do rankedAfter rank (← single n) n

def rankedAfter (rank : Nat) (left : Int) : Nat → Eval Int
  | 0 => throw (.expecting "EOF")
  | n + 1 => do
    match ← nextOperator? rank with
    | none => return left
    | some (op, r) =>
      let _ ← eat op
      let right ← idly ((op = "&&" && left = 0) || (op = "||" && left ≠ 0)) (ranked (r + 1) n)
      let v ← if op = "&&" || op = "||" then (apply op left right : Except Fault Int) else applied op left right
      rankedAfter rank v n

/-- One value. -/
def single : Nat → Eval Int
  | 0 => throw (.expecting "EOF")
  | n + 1 => do
    if ← eat "(" then
      let v ← whole n
      unless ← eat ")" do throw (.expecting "')'")
      return v
    else if ← eat "-" then return wrap (-(← single n))
    else if ← eat "+" then single n
    else if ← eat "!" then return truth ((← single n) = 0)
    else if ← eat "~" then return wrap (-(← single n) - 1)
    else match natAtFront? (← get).rest with
      | some (v, rest) =>
        modify fun s => { s with rest }
        return clamp v
      | none => match ← name? with
        | some name => lookUp name
        | none => throw (.expecting "primary")

end

end Arithmetic

/-- **The value of an expression**, and the variables afterwards. -/
def evaluate (expression : String) (bindings : Bindings) : Except Arithmetic.Fault (Int × Bindings) := do
  let cs := expression.toList
  let (v, s) ← (Arithmetic.whole (8 * cs.length + 8)).run ⟨cs, bindings, false⟩
  if s.rest.all Char.isWhitespace then return (v, s.bindings) else .error (.expecting "EOF")

end Leasehold.Shell
