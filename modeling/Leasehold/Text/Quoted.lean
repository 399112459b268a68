/-
  A text between quotes.

  The quote is the apostrophe, unless the text holds an apostrophe and no double quote: then it is the double
  quote.  The quote itself and the backslash are escaped by a backslash; line feed, carriage return and tab
  have their letters; every other unprintable character is written by its number, in two, four or eight digits.
-/
import Leasehold.Text.Hex
import Leasehold.Text.Printable
namespace Leasehold.Text

/-- The apostrophe U+0027. -/
def apostrophe : Char := Char.ofNat 0x27

/-- The double quote U+0022. -/
def doubleQuote : Char := Char.ofNat 0x22

/-- The quote that a text is put between. -/
def quoteFor (cs : List Char) : Char :=
  if cs.contains apostrophe && !(cs.contains doubleQuote) then doubleQuote else apostrophe

/-- One character as it stands between quotes `q`. -/
def escapeChar (q c : Char) : List Char :=
  if c = q || c = '\\' then ['\\', c]
  else if c = '\n' then ['\\', 'n']
  else if c = '\r' then ['\\', 'r']
  else if c = '\t' then ['\\', 't']
  else if isPrintable c then [c]
  else if c.toNat < 0x100 then '\\' :: 'x' :: hexWide 2 c.toNat
  else if c.toNat < 0x10000 then '\\' :: 'u' :: hexWide 4 c.toNat
  else '\\' :: 'U' :: hexWide 8 c.toNat

/-- **The quoted text.** -/
def quoted (s : String) : String :=
  let cs := s.toList
  let q := quoteFor cs
  String.ofList (q :: cs.flatMap (escapeChar q) ++ [q])

/-! ## Samples -/

example : quoted "it" = "'it'" := by decide
example : quoted "it's" = "\"it's\"" := by decide
example : quoted "a\nb" = "'a\\nb'" := by decide

end Leasehold.Text
