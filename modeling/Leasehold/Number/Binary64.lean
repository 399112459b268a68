/-
  Double-precision numbers, exactly.

  A finite double is a sign and `mantissa · 2 ^ exponent`.  Every operation here is exact arithmetic on natural
  numbers; the one rounding is `ofRatio`, to the NEAREST double, of two nearest the one with the even mantissa.
  Its plan:

  1. pick the exponent that gives the quotient 53 bits, but never one below -1074 (subnormals keep fewer bits);
  2. divide, and look at the remainder: more than half goes up, exactly half goes to the even neighbour;
  3. a mantissa that rounding carried to 2 ^ 53 is halved; past the greatest exponent the result is infinite.
-/
namespace Leasehold

/-- A double-precision number. -/
inductive Binary64 where
  | finite (negative : Bool) (mantissa : Nat) (exponent : Int)
  | infinite (negative : Bool)
  | nan
  deriving DecidableEq, Repr, Inhabited

/-- The nearest whole number to a ratio, a tie to the even one. -/
def roundHalfEven (num den : Nat) : Nat :=
  let q := num / den
  let r := num % den
  if 2 * r < den then q
  else if den < 2 * r then q + 1
  else q + q % 2

namespace Binary64

/-! ## Rounding to a double -/

/-- The ratio `num / (den · 2 ^ e)`, as a numerator and a denominator. -/
def scaled (num den : Nat) (e : Int) : Nat × Nat :=
  if 0 ≤ e then (num, den * Nat.pow 2 e.toNat) else (num * Nat.pow 2 (-e).toNat, den)

/-- The exponent that leaves 53 bits of the ratio before the point, or -1074. -/
def exponentFor (num den : Nat) : Int :=
  let e : Int := max (-1074) ((num.log2 : Int) - (den.log2 : Int) - 53)
  let s := scaled num den e
  if s.1 / s.2 < Nat.pow 2 53 then e else e + 1

/-- Puts a rounded mantissa into its range. -/
def pack (negative : Bool) (mantissa : Nat) (exponent : Int) : Binary64 :=
  let m := if mantissa = Nat.pow 2 53 then Nat.pow 2 52 else mantissa
  let e := if mantissa = Nat.pow 2 53 then exponent + 1 else exponent
  if m = 0 then .finite negative 0 (-1074)
  else if 971 < e then .infinite negative
  else .finite negative m e

/-- **The double nearest to a ratio.** -/
def ofRatio (negative : Bool) (num den : Nat) : Binary64 :=
  if num = 0 then .finite negative 0 (-1074)
  else
    let e := exponentFor num den
    let s := scaled num den e
    pack negative (roundHalfEven s.1 s.2) e

/-- The double nearest to `digits · 10 ^ power`.  Far out of range the answer is known from the number of digits
alone, and no great power is built. -/
def ofDecimal (negative : Bool) (digits : Nat) (power : Int) : Binary64 :=
  let width : Int := (Nat.toDigits 10 digits).length
  if digits = 0 || width + power < -400 then .finite negative 0 (-1074)
  else if 400 < width + power then .infinite negative
  else if 0 ≤ power then ofRatio negative (digits * Nat.pow 10 power.toNat) 1
  else ofRatio negative digits (Nat.pow 10 (-power).toNat)

/-- The double nearest to a whole number. -/
def ofInt (i : Int) : Binary64 := ofRatio (i < 0) i.natAbs 1

/-! ## Reading a double exactly -/

/-- The magnitude `mantissa · 2 ^ exponent` as a numerator and a denominator. -/
def magnitude (mantissa : Nat) (exponent : Int) : Nat × Nat :=
  if 0 ≤ exponent then (mantissa * Nat.pow 2 exponent.toNat, 1) else (mantissa, Nat.pow 2 (-exponent).toNat)

/-- Whether the number is at most zero; a NaN is not. -/
def isAtMostZero : Binary64 → Bool
  | .finite negative mantissa _ => negative || mantissa == 0
  | .infinite negative => negative
  | .nan => false

/-- Whether the number counts as false: it is a zero. -/
def isZero : Binary64 → Bool
  | .finite _ mantissa _ => mantissa == 0
  | _ => false

/-- The whole number that a double equals, if there is one. -/
def toInt? : Binary64 → Option Int
  | .finite negative mantissa exponent =>
    let (num, den) := magnitude mantissa exponent
    if num % den = 0 then some (if negative then -((num / den : Nat) : Int) else (num / den : Nat)) else none
  | _ => none

/-- Equality of numbers: the two zeros are one, and a NaN equals nothing. -/
def equals : Binary64 → Binary64 → Bool
  | .finite n m e, .finite n' m' e' => (m == 0 && m' == 0) || (n == n' && m == m' && e == e')
  | .infinite n, .infinite n' => n == n'
  | _, _ => false

/-! ## Samples -/

example : ofDecimal false 5 (-1) = .finite false (Nat.pow 2 52) (-53) := by decide
example : ofDecimal false 1 400 = .infinite false := by decide
example : (ofDecimal true 3 0).toInt? = some (-3) := by decide
example : isAtMostZero (ofInt 0) = true := by decide

end Binary64
end Leasehold
