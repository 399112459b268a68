/-
  Numbers written as text.

  Blanks around a number are ignored, a sign may lead, single underscores may stand between digits, and the
  digits of every script count.  A whole number is digits only; a double may have a point, an exponent, or be
  one of the words for infinity and NaN.
-/
import Leasehold.Number.Binary64
import Leasehold.Text.Blank
import Leasehold.Text.Digit
namespace Leasehold.Number

/-- The longest row of digits that is read as a whole number. -/
def maxDigits : Nat := 4300

/-- Why a text is no whole number. -/
inductive IntFault where
  | malformed
  | tooManyDigits (count : Nat)
  deriving DecidableEq, Repr

/-- The text with the digits of every script in ASCII, and every space beyond ASCII a plain one. -/
def plainDigits (cs : List Char) : List Char :=
  cs.map fun c =>
    if c.toNat < 0x80 then c
    else match Text.digit? c with
      | some d => Char.ofNat (48 + d)
      | none => if Text.isBlank c then ' ' else c

/-- The text between its ASCII blanks. -/
def trimAscii (cs : List Char) : List Char :=
  ((cs.dropWhile Text.isAsciiBlank).reverse.dropWhile Text.isAsciiBlank).reverse

/-- Takes the sign off the front: whether it is a minus, and the rest. -/
def takeSign : List Char → Bool × List Char
  | '-' :: rest => (true, rest)
  | '+' :: rest => (false, rest)
  | cs => (false, cs)

/-- Digits with single underscores between them, as values; nothing if anything else stands there. -/
def digitRow? : List Char → Option (List Nat)
  | [] => none
  | [c] => (Text.asciiDigit? c).map ([·])
  | c :: '_' :: rest => do return (← Text.asciiDigit? c) :: (← digitRow? rest)
  | c :: rest => do return (← Text.asciiDigit? c) :: (← digitRow? rest)

/-- Whether a character may stand in a row of digits. -/
def isRowChar (c : Char) : Bool := c.isDigit || c = '_'

/-- **Reads a whole number.**  A row of digits that is too long is a fault even if what follows it is no blank. -/
def readInt (s : String) : Except IntFault Int :=
  let (negative, body) := takeSign ((plainDigits s.toList).dropWhile Text.isAsciiBlank)
  match digitRow? (body.takeWhile isRowChar) with
  | none => .error .malformed
  | some ds =>
    if maxDigits < ds.length then .error (.tooManyDigits ds.length)
    else if (body.dropWhile isRowChar).all Text.isAsciiBlank then
      let n : Int := Text.digitsValue ds 0
      .ok (if negative then -n else n)
    else .error .malformed

/-- Drops single underscores between digits; nothing if one stands elsewhere.  `afterDigit` tells what stands
before. -/
def dropUnderscores? (afterDigit : Bool) : List Char → Option (List Char)
  | [] => some []
  | '_' :: d :: rest =>
    if afterDigit && d.isDigit then (dropUnderscores? true rest).map (d :: ·) else none
  | ['_'] => none
  | c :: rest => (dropUnderscores? c.isDigit rest).map (c :: ·)

/-- The part of a number after its mantissa: the power of ten, if a well-formed exponent and no more stands there. -/
def exponent? : List Char → Option Int
  | [] => some 0
  | e :: rest =>
    if e = 'e' || e = 'E' then
      let (negative, ds) := takeSign rest
      if ds.isEmpty || !(ds.all Char.isDigit) then none
      else
        let n : Int := Text.digitsValue (ds.filterMap Text.asciiDigit?) 0
        some (if negative then -n else n)
    else none

/-- An unsigned decimal: digits, a point, digits, an exponent; at least one digit. -/
def decimal? (negative : Bool) (cs : List Char) : Option Binary64 := do
  let whole := cs.takeWhile Char.isDigit
  let rest := cs.dropWhile Char.isDigit
  let (fraction, tail) := match rest with
    | '.' :: r => (r.takeWhile Char.isDigit, r.dropWhile Char.isDigit)
    | r => ([], r)
  if whole.isEmpty && fraction.isEmpty then none
  else
    let power ← exponent? tail
    let digits := Text.digitsValue ((whole ++ fraction).filterMap Text.asciiDigit?) 0
    return Binary64.ofDecimal negative digits (power - fraction.length)

/-- **Reads a double.** -/
def readReal? (s : String) : Option Binary64 := do
  let cs ← dropUnderscores? false (plainDigits s.toList)
  let (negative, body) := takeSign (trimAscii cs)
  let word := String.ofList (body.map Char.toLower)
  if word = "inf" || word = "infinity" then return .infinite negative
  else if word = "nan" then return .nan
  else decimal? negative body

end Leasehold.Number
