/-
  Hexadecimal digits, in both cases, and rows of them.
-/
namespace Leasehold.Text

/-- The digit of a value below sixteen, in small letters. -/
def hexDigit (n : Nat) : Char := Char.ofNat (if n < 10 then 48 + n else 87 + n)

/-- The digit of a value below sixteen, in capitals. -/
def hexDigitUpper (n : Nat) : Char := Char.ofNat (if n < 10 then 48 + n else 55 + n)

/-- The value of a hexadecimal digit of either case. -/
def hexValue? (c : Char) : Option Nat :=
  let n := c.toNat
  if 48 ≤ n && n ≤ 57 then some (n - 48)
  else if 97 ≤ n && n ≤ 102 then some (n - 87)
  else if 65 ≤ n && n ≤ 70 then some (n - 55)
  else none

/-- Exactly `width` digits of a number, the leading ones dropped. -/
def hexWide : Nat → Nat → List Char
  | 0, _ => []
  | width + 1, n => hexWide width (n / 16) ++ [hexDigit (n % 16)]

/-- The value of a row of hexadecimal digits. -/
def hexRow? : List Char → Option Nat
  | [] => some 0
  | cs => cs.foldl (fun acc c => do return 16 * (← acc) + (← hexValue? c)) (some 0)

/-! ## A digit reads back -/

theorem hexValue_hexDigitUpper {n : Nat} (h : n < 16) : hexValue? (hexDigitUpper n) = some n := by
  have : ∀ k : Fin 16, hexValue? (hexDigitUpper k.val) = some k.val := by decide
  exact this ⟨n, h⟩

theorem hexValue_hexDigit {n : Nat} (h : n < 16) : hexValue? (hexDigit n) = some n := by
  have : ∀ k : Fin 16, hexValue? (hexDigit k.val) = some k.val := by decide
  exact this ⟨n, h⟩

end Leasehold.Text
