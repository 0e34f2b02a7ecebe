import Promotions.Decimal.Arith
import Promotions.Decimal.Text

/-!
# Other numerals

A numeral may have a plus sign, no digits on one side of its point, digits grouped by low lines, and
an exponent. Digits that find no room are rounded away as in plain numerals.
-/

namespace Promotions.Decimal

open Text

/-! ## Grouped digits -/

/-- Appends digits to `m / 10 ^ s`. A low line may stand after a digit. Behind the first fraction
digit that finds no room nothing is looked at. -/
def readGrouped (pointed begun : Bool) (m s : Nat) : List Char → Option (Nat × Nat)
  | [] => if begun then some (m, s) else none
  | '_' :: cs => if begun then readGrouped pointed begun m s cs else none
  | '.' :: cs => if pointed then none else readGrouped true begun m s cs
  | c :: cs =>
    let digit := digitsValue [c]
    if !c.isDigit then none
    else if 10 * m + digit < twoPow 96 ∧ s < 28 then
      readGrouped pointed true (10 * m + digit) (if pointed then s + 1 else s) cs
    else if !pointed then none
    else if digit < 5 then some (m, s)
    else roundUp m s

def ofGrouped? : List Char → Option Decimal
  | '-' :: cs => (readGrouped false false 0 0 cs).bind fun (m, s) => ofParts? true m s
  | '+' :: cs => (readGrouped false false 0 0 cs).bind fun (m, s) => ofParts? false m s
  | cs => (readGrouped false false 0 0 cs).bind fun (m, s) => ofParts? false m s

/-! ## Exponents -/

/-- Drops the zeros at the end of the fraction. -/
def normalize (a : Decimal) : Decimal := trim a.scale a.coeff a.coeff_lt a.scale_le
where
  trim : (s : Nat) → (n : Int) → n.natAbs < twoPow 96 → s ≤ 28 → Decimal
    | 0, n, hn, hs => ofCoeff n 0 hn hs
    | s + 1, n, hn, hs =>
      if n % 10 = 0 then trim s (n / 10) (by omega) (by omega) else ofCoeff n (s + 1) hn hs

/-- The decimal times `10 ^ n`. It is multiplied by powers of ten that a 64-bit word holds. -/
def scaleUp? (a : Decimal) (n : Nat) : Option Decimal :=
  if n ≤ a.scale then some { a with scale := a.scale - n, scale_le := by have := a.scale_le; omega }
  else if 28 < n then none
  else do
    let first ← ofInt? (tenPow (min n 19))
    let rest ← ofInt? (tenPow (n - 19))
    let product ← a.mul? first
    return (← product.mul? rest).normalize

/-- The decimal over `10 ^ n`. A number below zero keeps its sign where it is rounded to zero. -/
def scaleDown? (a : Decimal) (n : Nat) : Option Decimal :=
  if 28 < n then none
  else if h : a.scale + n ≤ 28 then some { a with scale := a.scale + n, scale_le := h }
  else do
    let unit := tenPow (a.scale + n - 28)
    let rounded ← ofParts? a.isNegative ((a.coeff.natAbs + unit / 2) / unit) 28
    return if a.isNegative then rounded.signZero else rounded

/-- The digits of an exponent, with or without a plus sign. -/
def readExponent? : List Char → Option Nat
  | '+' :: cs | cs => if isDigits cs then some (digitsValue cs) else none

def ofScientific? (cs : List Char) : Option Decimal := do
  let isMark := fun c => c = 'e' ∨ c = 'E'
  let a ← ofGrouped? (cs.takeWhile (¬isMark ·))
  match cs.dropWhile (¬isMark ·) with
  | [] => none
  | _ :: '-' :: exponent => a.scaleDown? (← readExponent? exponent)
  | _ :: exponent => a.scaleUp? (← readExponent? exponent)

def ofNumeral? (cs : List Char) : Option Decimal := (ofGrouped? cs).or (ofScientific? cs)

end Promotions.Decimal
