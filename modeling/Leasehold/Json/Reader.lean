/-
  Reading JSON.

  The reader takes characters off the front and returns what is left, so every fault is known by how much was
  left when it arose; only then is the fault's place in the text worked out (`Fault.place`).  Its rules:

  1. blanks are space, tab, line feed and carriage return;
  2. beside JSON's three words it knows `NaN`, `Infinity` and `-Infinity`;
  3. a number with a point or an exponent is a double, any other a whole number;
  4. a control character in a text is a fault, and so is a byte order mark at the start;
  5. of two fields of one key the last value wins, in the first one's place;
  6. a surrogate escape without its partner reads as U+FFFD;
  7. lists and objects stand in one another up to a depth.
-/
import Leasehold.Json.Value
import Leasehold.Number.Reading
import Leasehold.Text.Hex
import Leasehold.Text.Quoted
namespace Leasehold.Json

/-- What the reader missed. -/
inductive Missing where
  | value
  | propertyName
  | comma
  | colon
  | nothingMore
  | closingQuote
  | plainCharacter
  | knownEscape
  | hexDigits
  | noByteOrderMark
  | fewerDigits (count : Nat)
  | lessNesting (inList : Bool)
  deriving DecidableEq, Repr

/-- A fault: what was missing, with how many characters left. -/
structure Fault where
  missing : Missing
  left : Nat
  deriving DecidableEq, Repr

/-- The words for what was missing. -/
def Missing.message : Missing → String
  | value => "Expecting value"
  | propertyName => "Expecting property name enclosed in double quotes"
  | comma => "Expecting ',' delimiter"
  | colon => "Expecting ':' delimiter"
  | nothingMore => "Extra data"
  | closingQuote => "Unterminated string starting at"
  | plainCharacter => "Invalid control character at"
  | knownEscape => "Invalid \\escape"
  | hexDigits => "Invalid \\uXXXX escape"
  | noByteOrderMark => "Unexpected UTF-8 BOM (decode using utf-8-sig)"
  | fewerDigits count => "Exceeds the limit (4300 digits) for integer string conversion: value has "
      ++ toString count ++ " digits; use sys.set_int_max_str_digits() to increase the limit"
  | lessNesting inList => "maximum recursion depth exceeded while decoding a JSON "
      ++ (if inList then "array" else "object") ++ " from a unicode string"

/-- A fault with its place: a position from 0, a line and a column from 1. -/
structure Located where
  missing : Missing
  line : Nat
  column : Nat
  position : Nat
  deriving DecidableEq, Repr

/-- The place of a fault in the whole text. -/
def Fault.place (fault : Fault) (whole : List Char) : Located :=
  let position := whole.length - fault.left
  let before := whole.take position
  { missing := fault.missing
    line := before.count '\n' + 1
    column := (before.reverse.takeWhile (· != '\n')).length + 1
    position := position }

/-- The message of a located fault; a number that is too long has no place, nor has what is nested too deep. -/
def Located.message (l : Located) : String :=
  match l.missing with
  | .fewerDigits _ | .lessNesting _ => l.missing.message
  | missing => missing.message ++ ": line " ++ toString l.line ++ " column " ++ toString l.column
      ++ " (char " ++ toString l.position ++ ")"

/-- The fault of missing something in front of `rest`.  Every step of the reader ends in such a fault, or in a
result and the characters left. -/
def missing {α : Type} (what : Missing) (rest : List Char) : Except Fault (α × List Char) :=
  .error ⟨what, rest.length⟩

/-- Puts a character before the characters that a step read. -/
def keep (c : Char) (step : Except Fault (List Char × List Char)) : Except Fault (List Char × List Char) :=
  step.map fun r => (c :: r.1, r.2)

/-! ## Blanks, texts and numbers -/

def isBlank (c : Char) : Bool := c = ' ' || c = '\t' || c = '\n' || c = '\r'

def skipBlanks (cs : List Char) : List Char := cs.dropWhile isBlank

/-- The character of an escape letter. -/
def escapeLetter? (c : Char) : Option Char :=
  if c = Text.doubleQuote || c = '\\' || c = '/' then some c
  else if c = 'b' then some (Char.ofNat 8)
  else if c = 'f' then some (Char.ofNat 12)
  else if c = 'n' then some '\n'
  else if c = 'r' then some '\r'
  else if c = 't' then some '\t'
  else none

/-- The character of an escaped number; a surrogate has none. -/
def characterOf (n : Nat) : Char := if 0xd800 ≤ n && n ≤ 0xdfff then Char.ofNat 0xfffd else Char.ofNat n

/-- The character that two escaped units make, if they are a surrogate pair. -/
def pairOf? (high low : Nat) : Option Char :=
  if 0xd800 ≤ high && high ≤ 0xdbff && 0xdc00 ≤ low && low ≤ 0xdfff then
    some (Char.ofNat (0x10000 + 1024 * (high - 0xd800) + (low - 0xdc00)))
  else none

/-- Whether a number is the first half of a surrogate pair. -/
def isHighSurrogate (n : Nat) : Bool := 0xd800 ≤ n && n ≤ 0xdbff

/-- The characters of a text up to its closing quote; `opened` is how much was left at the opening one. -/
def scanText (opened : Nat) : List Char → Except Fault (List Char × List Char)
  | [] => .error ⟨.closingQuote, opened⟩
  | '"' :: rest => .ok ([], rest)
  | ['\\'] => .error ⟨.closingQuote, opened⟩
  | '\\' :: 'u' :: a :: b :: c :: d :: '\\' :: 'u' :: a' :: b' :: c' :: d' :: x :: rest =>
    match Text.hexRow? [a, b, c, d] with
    | none => missing .hexDigits ('u' :: a :: b :: c :: d :: '\\' :: 'u' :: a' :: b' :: c' :: d' :: x :: rest)
    | some high =>
      if isHighSurrogate high then
        match Text.hexRow? [a', b', c', d'] with
        | none => missing .hexDigits ('u' :: a' :: b' :: c' :: d' :: x :: rest)
        | some low =>
          match pairOf? high low with
          | some ch => keep ch (scanText opened (x :: rest))
          | none => keep (characterOf high) (scanText opened ('\\' :: 'u' :: a' :: b' :: c' :: d' :: x :: rest))
      else keep (characterOf high) (scanText opened ('\\' :: 'u' :: a' :: b' :: c' :: d' :: x :: rest))
  | '\\' :: 'u' :: a :: b :: c :: d :: x :: rest =>
    match Text.hexRow? [a, b, c, d] with
    | none => missing .hexDigits ('u' :: a :: b :: c :: d :: x :: rest)
    | some n => keep (characterOf n) (scanText opened (x :: rest))
  | '\\' :: 'u' :: rest => missing .hexDigits ('u' :: rest)
  | '\\' :: e :: rest =>
    match escapeLetter? e with
    | none => missing .knownEscape ('\\' :: e :: rest)
    | some ch => keep ch (scanText opened rest)
  | c :: rest =>
    if c.toNat < 0x20 then missing .plainCharacter (c :: rest)
    else keep c (scanText opened rest)
termination_by cs => cs.length

/-- The digits of a whole number: a single zero, or a row that starts with none. -/
def wholeDigits : List Char → List Char × List Char
  | '0' :: rest => (['0'], rest)
  | cs => (cs.takeWhile Char.isDigit, cs.dropWhile Char.isDigit)

/-- A point and the digits after it, if a digit follows the point. -/
def fractionDigits : List Char → List Char × List Char
  | '.' :: d :: rest =>
    if d.isDigit then (d :: rest.takeWhile Char.isDigit, rest.dropWhile Char.isDigit) else ([], '.' :: d :: rest)
  | cs => ([], cs)

/-- The exponent, if it has a digit. -/
def exponentPart : List Char → Option Int × List Char
  | e :: rest =>
    if e = 'e' || e = 'E' then
      let (negative, body) := Number.takeSign rest
      let ds := body.takeWhile Char.isDigit
      if ds.isEmpty then (none, e :: rest)
      else
        let n : Int := Text.digitsValue (ds.filterMap Text.asciiDigit?) 0
        (some (if negative then -n else n), body.dropWhile Char.isDigit)
    else (none, e :: rest)
  | [] => (none, [])

/-- A number; a fault at its start if it has no digit. -/
def scanNumber (cs : List Char) : Except Fault (Value × List Char) :=
  let (negative, body) := match cs with
    | '-' :: rest => (true, rest)
    | _ => (false, cs)
  let (whole, afterWhole) := wholeDigits body
  if whole.isEmpty then missing .value cs
  else
    let (fraction, afterFraction) := fractionDigits afterWhole
    let (exponent, rest) := exponentPart afterFraction
    let digits := Text.digitsValue ((whole ++ fraction).filterMap Text.asciiDigit?) 0
    if fraction.isEmpty && exponent.isNone then
      if Number.maxDigits < whole.length then missing (.fewerDigits whole.length) cs
      else .ok (.int (if negative then -(digits : Int) else digits), rest)
    else .ok (.real (Binary64.ofDecimal negative digits (exponent.getD 0 - fraction.length)), rest)

/-- The words that stand for a value. -/
def words : List (List Char × Value) :=
  [("null".toList, .null), ("true".toList, .bool true), ("false".toList, .bool false), ("NaN".toList, .real .nan),
   ("Infinity".toList, .real (.infinite false)), ("-Infinity".toList, .real (.infinite true))]

/-- A word, or else a number. -/
def scanWord (cs : List Char) : Except Fault (Value × List Char) :=
  match words.find? fun w => w.1.isPrefixOf cs with
  | some (word, v) => .ok (v, cs.drop word.length)
  | none => scanNumber cs

/-! ## Values

  `depth` is how many lists and objects may still be opened.  `fuel` bounds the steps; twice the length of the text is
  always enough, since every second step takes a character. -/

mutual

/-- One value. -/
def scanValue (depth : Nat) : Nat → List Char → Except Fault (Value × List Char)
  | 0, cs => missing .value cs
  | fuel + 1, cs =>
    match cs with
    | [] => missing .value cs
    | '"' :: rest => do
      let (chars, left) ← scanText cs.length rest
      return (.text (String.ofList chars), left)
    | '[' :: rest =>
      if depth = 0 then missing (.lessNesting true) cs
      else match skipBlanks rest with
      | ']' :: left => .ok (.list [], left)
      | items => do
        let (vs, left) ← scanItems (depth - 1) fuel items
        return (.list vs, left)
    | '\x7b' :: rest =>
      if depth = 0 then missing (.lessNesting false) cs
      else match skipBlanks rest with
      | '\x7d' :: left => .ok (.object [], left)
      | fields => do
        let (fs, left) ← scanFields (depth - 1) fuel [] fields
        return (.object fs, left)
    | _ => scanWord cs

/-- The items of a list, from one item to the closing bracket. -/
def scanItems (depth : Nat) : Nat → List Char → Except Fault (List Value × List Char)
  | 0, cs => missing .value cs
  | fuel + 1, cs => do
    let (v, afterItem) ← scanValue depth fuel cs
    match skipBlanks afterItem with
    | ']' :: left => return ([v], left)
    | ',' :: more => do
      let (vs, left) ← scanItems depth fuel (skipBlanks more)
      return (v :: vs, left)
    | other => missing .comma other

/-- The fields of an object, from one key to the closing brace, put behind those read before. -/
def scanFields (depth : Nat) : Nat → List (String × Value) → List Char → Except Fault (List (String × Value) × List Char)
  | 0, _, cs => missing .value cs
  | fuel + 1, done, cs =>
    match cs with
    | '"' :: rest => do
      let (key, afterKey) ← scanText cs.length rest
      match skipBlanks afterKey with
      | ':' :: more => do
        let (v, afterValue) ← scanValue depth fuel (skipBlanks more)
        let fields := Value.putField (String.ofList key) v done
        match skipBlanks afterValue with
        | '\x7d' :: left => return (fields, left)
        | ',' :: next => scanFields depth fuel fields (skipBlanks next)
        | other => missing .comma other
      | other => missing .colon other
    | other => missing .propertyName other

end

/-- How many lists and objects may stand in one another. -/
def maxDepth : Nat := 975

/-- The value that a whole text spells. -/
def readChars (cs : List Char) : Except Fault Value :=
  match cs with
  | '\ufeff' :: _ => .error ⟨.noByteOrderMark, cs.length⟩
  | _ => do
    let (v, rest) ← scanValue maxDepth (2 * cs.length + 2) (skipBlanks cs)
    match skipBlanks rest with
    | [] => return v
    | left => .error ⟨.nothingMore, left.length⟩

/-- **Reads a text as JSON**, a fault with its place. -/
def read (cs : List Char) : Except Located Value :=
  (readChars cs).mapError (·.place cs)

end Leasehold.Json
