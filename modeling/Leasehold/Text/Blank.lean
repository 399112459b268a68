/-
  White space around written numbers.

  A number may be surrounded by blanks.  ASCII has six of them (tab to carriage return, and the space); beyond
  ASCII every Unicode space counts too.
-/
namespace Leasehold.Text

/-- The blanks of ASCII: U+0009 to U+000D and the space. -/
def isAsciiBlank (c : Char) : Bool :=
  (9 ≤ c.toNat && c.toNat ≤ 13) || c.toNat == 32

/-- The spaces beyond ASCII. -/
def wideBlanks : List Nat :=
  [0x85, 0xa0, 0x1680, 0x2000, 0x2001, 0x2002, 0x2003, 0x2004, 0x2005, 0x2006, 0x2007, 0x2008, 0x2009, 0x200a,
   0x2028, 0x2029, 0x202f, 0x205f, 0x3000]

/-- A blank of either kind. -/
def isBlank (c : Char) : Bool := isAsciiBlank c || wideBlanks.contains c.toNat

/-- The text without the blanks at its two ends. -/
def trimBlanks (cs : List Char) : List Char :=
  ((cs.dropWhile isBlank).reverse.dropWhile isBlank).reverse

end Leasehold.Text
