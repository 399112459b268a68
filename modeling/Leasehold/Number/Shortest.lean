/-
  The shortest text of a double.

  A double stands for an interval of reals: all that round to it.  Of the decimals in that interval the FEWEST
  DIGITS win, then the nearest to the double, then the even last digit.  For 1, 2, … 17 digits the two
  neighbours of the double on that decimal grid are tried in exact arithmetic; 17 digits always suffice.

  The layout is positional while the point falls within the first sixteen digits or at most four zeros stand
  after it; beyond, one digit stands before the point and the exponent has a sign and at least two digits.
-/
import Leasehold.Number.Binary64
import Leasehold.Text.Digit
namespace Leasehold
namespace Binary64

/-! ## The interval -/

/-- The reals that round to a positive double, in units of a quarter of its last bit: the double is `4 · m`, and
the two ends belong to the interval when the mantissa is even. -/
structure Interval where
  low : Nat
  high : Nat
  closed : Bool
  unit : Int

/-- The interval of `mantissa · 2 ^ exponent`.  Below a power of two the neighbours are closer. -/
def intervalOf (mantissa : Nat) (exponent : Int) : Interval :=
  let atPower := mantissa = Nat.pow 2 52 ∧ -1074 < exponent
  { low := 4 * mantissa - (if atPower then 1 else 2)
    high := 4 * mantissa + 2
    closed := mantissa % 2 == 0
    unit := exponent - 2 }

/-- Compares `quarters · 2 ^ unit` with `digits · 10 ^ power`. -/
def compareScaled (quarters : Nat) (unit : Int) (digits : Nat) (power : Int) : Ordering :=
  let left := quarters * Nat.pow 2 unit.toNat * Nat.pow 10 (-power).toNat
  let right := digits * Nat.pow 10 power.toNat * Nat.pow 2 (-unit).toNat
  compare left right

/-- Whether a decimal lies in the interval. -/
def Interval.contains (i : Interval) (digits : Nat) (power : Int) : Bool :=
  let atLow := compareScaled i.low i.unit digits power
  let atHigh := compareScaled i.high i.unit digits power
  (atLow == .lt || (i.closed && atLow == .eq)) && (atHigh == .gt || (i.closed && atHigh == .eq))

/-! ## The digits -/

/-- The power of ten just above a positive ratio, found from `guess` by stepping. -/
def stepMagnitude (num den : Nat) : Nat → Int → Int
  | 0, p => p
  | fuel + 1, p =>
    let above := num * Nat.pow 10 (-p).toNat < den * Nat.pow 10 p.toNat
    let notFar := den * Nat.pow 10 (p - 1).toNat ≤ num * Nat.pow 10 (-(p - 1)).toNat
    if !above then stepMagnitude num den fuel (p + 1)
    else if !notFar then stepMagnitude num den fuel (p - 1)
    else p

/-- The `p` with `10 ^ (p - 1) ≤ num / den < 10 ^ p`. -/
def decimalMagnitude (num den : Nat) : Int :=
  let bits : Int := (num.log2 : Int) - den.log2
  stepMagnitude num den 4 (bits * 30103 / 100000 + 1)

/-- Of the two neighbours of the double on a decimal grid, the one to print, if the interval holds any. -/
def neighbour? (i : Interval) (num den : Nat) (power : Int) : Option Nat :=
  let n := num * Nat.pow 10 (-power).toNat
  let d := den * Nat.pow 10 power.toNat
  let below := n / d
  let lowFits := i.contains below power
  let highFits := i.contains (below + 1) power
  if lowFits && highFits then some (roundHalfEven n d)
  else if lowFits then some below
  else if highFits then some (below + 1)
  else none

/-- The first grid with a hit, from `count` digits on. -/
def firstHit (i : Interval) (num den : Nat) (p : Int) : Nat → Nat → Nat × Int
  | 0, count =>
    (roundHalfEven (num * Nat.pow 10 (-(p - count)).toNat) (den * Nat.pow 10 (p - count).toNat), p - count)
  | fuel + 1, count =>
    match neighbour? i num den (p - count) with
    | some digits => (digits, p - count)
    | none => firstHit i num den p fuel (count + 1)

/-- **The shortest digits** of a positive double: a whole number and the power of ten it is scaled by. -/
def shortest (mantissa : Nat) (exponent : Int) : Nat × Int :=
  let (num, den) := magnitude mantissa exponent
  firstHit (intervalOf mantissa exponent) num den (decimalMagnitude num den) 17 1

/-! ## The layout -/

/-- How digits and a power of ten are laid out. -/
structure Layout where
  greatestPositional : Int
  leastPositional : Int
  exponentDigits : Nat

/-- Positional from 0.0001 up to below 10 ^ 16; exponents have two digits at least. -/
def Layout.plain : Layout := { greatestPositional := 16, leastPositional := -3, exponentDigits := 2 }

/-- The row of digits without the zeros at its end. -/
def significant (digits : Nat) : List Char :=
  ((Nat.toDigits 10 digits).reverse.dropWhile (· = '0')).reverse

/-- Lays out `digits · 10 ^ power`; `point` is where the decimal point falls, counted from the first digit. -/
def Layout.write (layout : Layout) (digits : Nat) (power : Int) : List Char :=
  let point : Int := (Nat.toDigits 10 digits).length + power
  let row := significant digits
  if layout.leastPositional ≤ point && point ≤ layout.greatestPositional then
    if point ≤ 0 then '0' :: '.' :: List.replicate (-point).toNat '0' ++ row
    else if row.length ≤ point.toNat then row ++ List.replicate (point.toNat - row.length) '0' ++ ['.', '0']
    else row.take point.toNat ++ '.' :: row.drop point.toNat
  else
    let exponent := point - 1
    let fraction := if row.length ≤ 1 then [] else '.' :: row.drop 1
    row.take 1 ++ fraction ++ 'e' :: (if exponent < 0 then '-' else '+')
      :: (Text.padded layout.exponentDigits exponent.natAbs).toList

/-- **The text of a double.** -/
def toText : Binary64 → String
  | .nan => "nan"
  | .infinite negative => if negative then "-inf" else "inf"
  | .finite negative mantissa exponent =>
    let body := if mantissa = 0 then "0.0".toList else
      let (digits, power) := shortest mantissa exponent
      Layout.plain.write digits power
    String.ofList (if negative then '-' :: body else body)

end Binary64
end Leasehold
