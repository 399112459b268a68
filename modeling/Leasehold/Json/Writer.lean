/-
  Writing JSON.

  Items are separated by a comma and a space, keys from values by a colon and a space.  A text is written in
  ASCII: everything outside the range from space to tilde is escaped, by a letter where JSON has one, else by
  its UTF-16 units.  Doubles have their shortest text; the three that JSON lacks are written as words.
-/
import Leasehold.Json.Literal
import Leasehold.Text.Hex
namespace Leasehold.Value

/-- One UTF-16 unit as an escape. -/
def unitEscape (u : Nat) : List Char := '\\' :: 'u' :: Text.hexWide 4 u

/-- One character of a written text. -/
def writeChar (c : Char) : List Char :=
  if c = Text.doubleQuote || c = '\\' then ['\\', c]
  else if c = '\n' then ['\\', 'n']
  else if c = '\r' then ['\\', 'r']
  else if c = '\t' then ['\\', 't']
  else if c.toNat = 8 then ['\\', 'b']
  else if c.toNat = 12 then ['\\', 'f']
  else if 0x20 ≤ c.toNat && c.toNat ≤ 0x7e then [c]
  else if c.toNat < 0x10000 then unitEscape c.toNat
  else
    let n := c.toNat - 0x10000
    unitEscape (0xd800 + n / 1024) ++ unitEscape (0xdc00 + n % 1024)

/-- A text as JSON. -/
def writeText (s : String) : String :=
  String.ofList (Text.doubleQuote :: s.toList.flatMap writeChar ++ [Text.doubleQuote])

/-- A double as JSON, with words for the three that JSON lacks. -/
def writeReal : Binary64 → String
  | .nan => "NaN"
  | .infinite negative => if negative then "-Infinity" else "Infinity"
  | x => x.toText

mutual

/-- **A value as JSON.** -/
def write : Value → String
  | .null => "null"
  | .bool b => if b then "true" else "false"
  | .int i => toString i
  | .real x => writeReal x
  | .text s => writeText s
  | .list items => "[" ++ commaList (writeItems items) ++ "]"
  | .object fields => "\x7b" ++ commaList (writeFields fields) ++ "\x7d"

def writeItems : List Value → List String
  | [] => []
  | v :: rest => write v :: writeItems rest

def writeFields : List (String × Value) → List String
  | [] => []
  | (k, v) :: rest => (writeText k ++ ": " ++ write v) :: writeFields rest

end

/-- The key under which a value that is no text is written in an object. -/
def keyText : Value → String
  | .text s => s
  | .real x => writeReal x
  | v => v.write

end Leasehold.Value
