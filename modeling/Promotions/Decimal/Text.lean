import Promotions.Decimal.Basic
import Promotions.Text.Digits

/-!
# Decimals as text

A numeral is an optional minus sign, digits, and optionally a point and more digits. All fraction
digits are kept, zeros at the end too, so `render` gives back every digit that `ofText?` kept.
-/

namespace Promotions.Decimal

open Text

/-! ## Reading -/

/--
One unit more in the last place of `m / 10 ^ s`. Where the coefficient has no room for it, the last
fraction digit is given up as well.
-/
def roundUp (m s : Nat) : Option (Nat × Nat) :=
  if m + 1 < twoPow 96 then some (m + 1, s)
  else if s = 0 then none
  else some ((m + 5) / 10, s - 1)

/--
Appends fraction digits to `m / 10 ^ s`. The first digit that finds no room, in the coefficient or
in the scale, decides how the number is rounded, and the digits after it are not looked at.
-/
def readFraction (m s : Nat) : List Char → Option (Nat × Nat)
  | [] => some (m, s)
  | c :: cs =>
    let digit := digitsValue [c]
    if 10 * m + digit < twoPow 96 ∧ s < 28 then readFraction (10 * m + digit) (s + 1) cs
    else if digit < 5 then some (m, s)
    else roundUp m s

/-- The coefficient and the scale of a numeral without its sign. -/
def readUnsigned (cs : List Char) : Option (Nat × Nat) :=
  let whole := cs.takeWhile (· != '.')
  let value := digitsValue whole
  if isDigits whole ∧ value < twoPow 96 then
    match cs.dropWhile (· != '.') with
    | [] => some (value, 0)
    | _ :: fraction => if isDigits fraction then readFraction value 0 fraction else none
  else none

/-- The decimal with the given sign and magnitude, if there is one. A zero that is read has no
sign. -/
def ofParts? (negative : Bool) (m s : Nat) : Option Decimal :=
  if h : m < twoPow 96 ∧ s ≤ 28 then
    some (ofCoeff (if negative then -m else m) s (by split <;> simpa using h.1) h.2)
  else none

def ofChars? : List Char → Option Decimal
  | '-' :: cs => (readUnsigned cs).bind fun (m, s) => ofParts? true m s
  | cs => (readUnsigned cs).bind fun (m, s) => ofParts? false m s

def ofText? (text : String) : Option Decimal := ofChars? text.toList

/-! ## Writing -/

/-- The minus sign of a number below zero, and of a zero that carries one. -/
def signChars (a : Decimal) : List Char := if a.isNegative || a.minusZero then ['-'] else []

/-- All digits, with a point before the last `scale` of them. -/
def renderChars (a : Decimal) : List Char :=
  let digits := paddedDigits (a.scale + 1) a.coeff.natAbs
  let whole := digits.take (digits.length - a.scale)
  let fraction := digits.drop (digits.length - a.scale)
  a.signChars ++ whole ++ (if a.scale = 0 then [] else '.' :: fraction)

def render (a : Decimal) : String := String.ofList a.renderChars

end Promotions.Decimal
