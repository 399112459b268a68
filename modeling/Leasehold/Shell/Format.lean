/-
  What `echo` and `printf` write.

  Both know ESCAPES, a backslash and a letter or digits for one character, but not the same ones: `Escapes` says which.
  `echo` as a program looks at them only if it is told to, and `echo` inside a shell always does.

  A format of `printf` is used again as long as it takes arguments and some are left.
-/
import Leasehold.Number.Reading
import Leasehold.Shell.Arithmetic
import Leasehold.Text.Quoted
import Leasehold.Text.Utf8
namespace Leasehold.Shell

/-! ## Escapes -/

/-- Which escapes are known besides the common ones: a hexadecimal number and the escape character, the end of all
output, and three more octal digits after a nought. -/
structure Escapes where
  hexadecimal : Bool
  ending : Bool
  longOctal : Bool

/-- The escapes of `echo` as a program, of `echo` in a shell, and of a format. -/
def Escapes.program : Escapes := ⟨true, true, true⟩
def Escapes.shell : Escapes := ⟨false, true, true⟩
def Escapes.format : Escapes := ⟨false, false, false⟩

/-- The character that a letter stands for. -/
def letterEscape? : Char → Option Char
  | 'a' => some '\x07'
  | 'b' => some '\x08'
  | 'f' => some '\x0c'
  | 'n' => some '\n'
  | 'r' => some '\r'
  | 't' => some '\t'
  | 'v' => some '\x0b'
  | '\\' => some '\\'
  | _ => none

/-- Whether a character is an octal digit. -/
def isOctal (c : Char) : Bool := '0' ≤ c && c ≤ '7'

/-- Whether a character is a hexadecimal digit. -/
def isHexadecimal (c : Char) : Bool := Arithmetic.isDigitIn 16 c

/-- What stands for a byte in a text: a character of its own, or one from the end of all characters where the byte alone is
none. -/
def byteChar (n : Nat) : Char := if n < 128 then Char.ofNat n else Char.ofNat (0x10ff00 + n)

/-- The bytes that a character of a text stands for. -/
def bytesOf (c : Char) : List UInt8 :=
  if 0x10ff80 ≤ c.toNat then [UInt8.ofNat (c.toNat - 0x10ff00)] else String.utf8EncodeChar c

/-- A text as it is read: bytes that make characters together become these. -/
def readable (s : String) : String := String.ofList (Text.Utf8.decodeLossy [] (s.toList.flatMap bytesOf))

/-- The byte of a number in digits, and how many characters it took. -/
def numbered (base : Nat) (digits : List Char) : Char × Nat :=
  (byteChar ((Arithmetic.digitsIn base 0 digits).1 % 256), digits.length)

/-- What the characters after a backslash stand for, and how many of them it takes. -/
def escape? (e : Escapes) : List Char → Option (Char × Nat)
  | [] => none
  | c :: rest =>
    if c = '0' && e.longOctal then
      let (d, n) := numbered 8 ((rest.take 3).takeWhile isOctal)
      some (d, n + 1)
    else if isOctal c then some (numbered 8 (((c :: rest).take 3).takeWhile isOctal))
    else if e.hexadecimal && c = 'e' then some ('\x1b', 1)
    else if e.hexadecimal && c = 'x' && rest.head?.any isHexadecimal then
      let (d, n) := numbered 16 ((rest.take 2).takeWhile isHexadecimal)
      some (d, n + 1)
    else (letterEscape? c).map (·, 1)

/-- A text with its escapes taken, after so many characters that are done with; and whether all output ends there. -/
def unescape (e : Escapes) : Nat → List Char → List Char × Bool
  | _, [] => ([], false)
  | skip + 1, _ :: rest => unescape e skip rest
  | 0, c :: rest =>
    if c = '\\' && e.ending && rest.head? = some 'c' then ([], true)
    else
      let (d, n) := if c = '\\' then (escape? e rest).getD ('\\', 0) else (c, 0)
      let (cs, ends) := unescape e n rest
      (d :: cs, ends)

/-! ## Echo -/

/-- The arguments in a row, with a line end unless all output ended before. -/
def echoed (lineEnd : Bool) : List (List Char × Bool) → List Char
  | [] => if lineEnd then ['\n'] else []
  | [(cs, ends)] => if ends || !lineEnd then cs else cs ++ ['\n']
  | (cs, ends) :: rest => if ends then cs else cs ++ ' ' :: echoed lineEnd rest

/-- **What `echo` writes in a shell.** -/
def echoInShell : List String → String
  | "-n" :: args => String.ofList (echoed false (args.map fun a => unescape .shell 0 a.toList))
  | args => String.ofList (echoed true (args.map fun a => unescape .shell 0 a.toList))

/-- Whether a word is made of options of `echo`. -/
def isEchoOption (w : String) : Bool :=
  match w.toList with
  | '-' :: c :: cs => (c :: cs).all fun d => d = 'n' || d = 'e' || d = 'E'
  | _ => false

/-- **What `echo` writes as a program.** -/
def echoProgram (words : List String) : String :=
  let options := (words.takeWhile isEchoOption).flatMap String.toList
  let args := words.dropWhile isEchoOption
  let escapes := (options.filter fun c => c = 'e' || c = 'E').getLast? = some 'e'
  let texts := args.map fun a => if escapes then unescape .program 0 a.toList else (a.toList, false)
  String.ofList (echoed (!(options.contains 'n')) texts)

/-! ## Formats -/

/-- How a value is to be shown. -/
structure Shape where
  flags : List Char
  width : Nat
  precision : Option Nat

/-- A text in a field of its width. -/
def Shape.field (shape : Shape) (sign body : List Char) (isNumber : Bool) : List Char :=
  let gap := shape.width - (sign.length + body.length)
  if shape.flags.contains '-' then sign ++ body ++ List.replicate gap ' '
  else if shape.flags.contains '0' && isNumber then sign ++ List.replicate gap '0' ++ body
  else List.replicate gap ' ' ++ sign ++ body

/-- The sign of a number that has one. -/
def Shape.sign (shape : Shape) (negative : Bool) : List Char :=
  if negative then ['-']
  else if shape.flags.contains '+' then ['+']
  else if shape.flags.contains ' ' then [' ']
  else []

/-- Digits, with noughts in front up to the precision. -/
def Shape.digits (shape : Shape) (ds : List Char) : List Char :=
  List.replicate (shape.precision.getD 0 - ds.length) '0' ++ ds

/-- The complaint about an argument of which some is left behind its number, or all of it. -/
def conversionFault? (arg : String) (rest : Option Nat) : Option String :=
  match rest with
  | some 0 => none
  | some _ => some (arg ++ ": not completely converted")
  | none => if arg = "" then none else some (arg ++ ": expected numeric value")

/-- The number that an argument spells, and the complaint if it spells none; a quote in front asks for the code of a
character. -/
def numberOf (signed : Bool) (arg : String) : Int × Option String :=
  match arg.toList with
  | c :: rest =>
    if c = Text.apostrophe || c = Text.doubleQuote then
      ((((Text.Utf8.encode rest).head?.map UInt8.toNat).getD 0 : Nat), none)
    else match Arithmetic.intAtFront? Arithmetic.natAtFront? (c :: rest) with
      | none => (0, conversionFault? arg none)
      | some (i, behind) =>
        let kept := if signed then Arithmetic.clamp i else min i (Nat.pow 2 64 - 1)
        (kept, if behind.isEmpty && kept ≠ i then some (arg ++ ": Numerical result out of range")
          else conversionFault? arg (some behind.length))
  | [] => (0, none)

/-- The digits of a double with so many places after the point. -/
def fixedDigits (places mantissa : Nat) (exponent : Int) : List Char :=
  let (num, den) := Binary64.magnitude mantissa exponent
  let n := roundHalfEven (num * Nat.pow 10 places) den
  let ds := Nat.toDigits 10 n
  let ds := List.replicate (places + 1 - ds.length) '0' ++ ds
  ds.take (ds.length - places) ++ (if places = 0 then [] else '.' :: ds.drop (ds.length - places))

/-- The double at the front of characters, and how many characters are left behind it. -/
def realAtFront? (cs : List Char) : Option (Binary64 × Nat) :=
  (List.range (cs.length + 1)).reverse.findSome? fun n =>
    let front := cs.take n
    if front.contains '_' || front.getLast?.any Char.isWhitespace then none
    else (Number.readReal? (String.ofList front)).map (·, cs.length - n)

/-- A double in a shape, and the complaint if the argument spells none. -/
def Shape.real (shape : Shape) (arg : String) : List Char × Option String :=
  let text : Binary64 → List Char
    | .finite negative m e => shape.field (shape.sign negative) (fixedDigits (shape.precision.getD 6) m e) true
    | .infinite negative => shape.field (shape.sign negative) "inf".toList false
    | .nan => shape.field [] "nan".toList false
  match realAtFront? arg.toList with
  | some (r, left) => (text r, conversionFault? arg (some left))
  | none => (text (Binary64.ofInt 0), conversionFault? arg none)

/-- A number without a sign in a base. -/
def Shape.unsigned (shape : Shape) (base : Nat) (capital : Bool) (i : Int) : List Char :=
  let n := (i % Nat.pow 2 64).toNat
  let ds := Nat.toDigits base n
  let ds := if capital then ds.map Char.toUpper else ds
  let front :=
    if shape.flags.contains '#' && n ≠ 0 then (if base = 16 then ['0', if capital then 'X' else 'x'] else if base = 8 then ['0'] else [])
    else []
  shape.field front (shape.digits ds) (shape.precision.isNone)

/-- An argument in a shape by the letter of a conversion: the text, a complaint, and whether all output ends; nothing if no
conversion has the letter. -/
def convert (shape : Shape) (letter : Char) (arg : String) : Option (List Char × Option String × Bool) :=
  let cut (cs : List Char) : List Char := match shape.precision with | some n => cs.take n | none => cs
  let number (signed : Bool) (shown : Int → List Char) : Option (List Char × Option String × Bool) :=
    let (i, complaint) := numberOf signed arg
    some (shown i, complaint, false)
  match letter with
  | 's' => some (shape.field [] (cut arg.toList) false, none, false)
  | 'c' => some (shape.field [] (arg.toList.take 1) false, none, false)
  | 'b' => let (cs, ends) := unescape .shell 0 arg.toList; some (shape.field [] (cut cs) false, none, ends)
  | 'd' | 'i' => number true fun i =>
    shape.field (shape.sign (i < 0)) (shape.digits (Nat.toDigits 10 i.natAbs)) (shape.precision.isNone)
  | 'u' => number false (shape.unsigned 10 false)
  | 'o' => number false (shape.unsigned 8 false)
  | 'x' => number false (shape.unsigned 16 false)
  | 'X' => number false (shape.unsigned 16 true)
  | 'f' | 'F' => let (cs, complaint) := shape.real arg; some (cs, complaint, false)
  | _ => none

/-- What was written so far: the text, the complaints, a status that is nought if all is well, the arguments left, whether
any was asked for, and whether all output ended. -/
structure Written where
  text : List Char
  complaints : List String
  status : Nat
  args : List String
  asked : Bool
  ended : Bool

/-- Adds a complaint, with a status. -/
def Written.complain (status : Nat) (complaint : Option String) (w : Written) : Written :=
  match complaint with
  | some c => { w with complaints := w.complaints ++ [c], status }
  | none => w

/-- A number in a format, or the next argument in place of a star. -/
def takeNumber (cs : List Char) (w : Written) : Option Nat × List Char × Written :=
  match cs with
  | '*' :: rest =>
    let (i, complaint) := numberOf true (w.args.headD "")
    (some i.toNat, rest, { w with args := w.args.drop 1, asked := true }.complain 1 complaint)
  | cs => ((String.ofList (cs.takeWhile Char.isDigit)).toNat?, cs.dropWhile Char.isDigit, w)

/-- The conversion after a percent sign: what is written then, and the rest of the format; it stops at one that nobody
knows. -/
def conversion (cs : List Char) (w : Written) : Written × List Char :=
  let isFlag (c : Char) : Bool := "#-+ 0".toList.contains c
  let (width, rest, w) := takeNumber (cs.dropWhile isFlag) w
  let (precision, rest, w) : Option Nat × List Char × Written := match rest with
    | '.' :: rest => let (n, rest, w) := takeNumber rest w; (some (n.getD 0), rest, w)
    | rest => (none, rest, w)
  match rest with
  | [] => ({ w with ended := true }.complain 2 (some "missing format character"), [])
  | letter :: rest =>
    match convert ⟨cs.takeWhile isFlag, width.getD 0, precision⟩ letter (w.args.headD "") with
    | some (text, complaint, ends) =>
      ({ w with text := w.text ++ text, args := w.args.drop 1, asked := true, ended := ends }.complain 1 complaint, rest)
    | none => ({ w with ended := true }.complain 2 (some ("%" ++ String.singleton letter ++ ": invalid directive")), [])

/-- Goes through a format once, in so many steps at most. -/
def formatOnce : Nat → List Char → Written → Written
  | 0, _, w => w
  | n + 1, cs, w =>
    if w.ended then w
    else match cs with
      | [] => w
      | '%' :: '%' :: rest => formatOnce n rest { w with text := w.text ++ ['%'] }
      | '%' :: rest => let (w, rest) := conversion rest w; formatOnce n rest w
      | '\\' :: rest =>
        let (c, k) := (escape? .format rest).getD ('\\', 0)
        formatOnce n (rest.drop k) { w with text := w.text ++ [c] }
      | c :: rest => formatOnce n rest { w with text := w.text ++ [c] }

/-- Goes through a format as long as it takes arguments, so many times at most. -/
def formatAll : Nat → List Char → Written → Written
  | 0, _, w => w
  | n + 1, cs, w =>
    let after := formatOnce (cs.length + 1) cs { w with asked := false }
    if after.ended || !after.asked || after.args.isEmpty then after else formatAll n cs after

/-- **What `printf` writes**: its complaints, its text and its status. -/
def printed (format : String) (args : List String) : List String × String × Nat :=
  let w := formatAll (args.length + 1) format.toList ⟨[], [], 0, args, false, false⟩
  (w.complaints, String.ofList w.text, w.status)

/-! ## Samples -/

example : echoProgram ["-n", "x"] = "x" := by decide +kernel
example : echoInShell ["a\\tb"] = "a\tb\n" := by decide +kernel

end Leasehold.Shell
