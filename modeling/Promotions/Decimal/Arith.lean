import Promotions.Decimal.Basic

/-!
# Arithmetic on decimals

A result is the exact one whenever it has room. Otherwise fraction digits are given up, as few
as possible, by one rounding of the exact result. A result without room even at scale 0
is `none`.
-/

namespace Promotions.Decimal

/-! ## Making room -/

/-- The value `n / 10 ^ s` at the largest scale up to `t` at which its coefficient has room. -/
def fitUpTo (n : Int) (s : Nat) : (t : Nat) → t ≤ 28 → Option Decimal
  | 0, _ =>
    let c := roundHalfEven n (tenPow s)
    if h : c.natAbs < twoPow 96 then some (ofCoeff c 0 h (by decide)) else none
  | t + 1, ht =>
    let c := roundHalfEven n (tenPow (s - (t + 1)))
    if h : c.natAbs < twoPow 96 then some (ofCoeff c (t + 1) h ht) else fitUpTo n s t (by omega)

def fit (n : Int) (s : Nat) : Option Decimal := fitUpTo n s (min s 28) (Nat.min_le_right s 28)

/-! ## Sum, difference, product -/

/-- The sum. A zero operand leaves the other one as it is, scale included. -/
def add? (a b : Decimal) : Option Decimal :=
  if a.coeff = 0 then some b
  else if b.coeff = 0 then some a
  else
    let s := max a.scale b.scale
    fit (a.coeff * tenPow (s - a.scale) + b.coeff * tenPow (s - b.scale)) s

def sub? (a b : Decimal) : Option Decimal := add? a (-b)

/-- The zero of the same scale with a minus sign. Any other number as it is. -/
def signZero (a : Decimal) : Decimal :=
  if h : a.coeff = 0 then { a with minusZero := true, coeff_of_minusZero := fun _ => h } else a

def areShort (a b : Decimal) : Bool := a.coeff.natAbs < twoPow 32 ∧ b.coeff.natAbs < twoPow 32

/--
The product. A zero operand gives the zero of scale 0, and so do two short operands whose product
lies far below the last fraction digit. Where a negative product of longer operands is rounded
to zero, the zero keeps the sign.
-/
def mul? (a b : Decimal) : Option Decimal :=
  if a.coeff = 0 ∨ b.coeff = 0 then some 0
  else if areShort a b then
    if 47 < a.scale + b.scale then some 0 else fit (a.coeff * b.coeff) (a.scale + b.scale)
  else
    let product := fit (a.coeff * b.coeff) (a.scale + b.scale)
    if a.coeff * b.coeff < 0 then product.map signZero else product

/-- The sum, or the greatest decimal with the sign of the left operand. -/
def saturatingAdd (a b : Decimal) : Decimal :=
  (add? a b).getD (if a.isNegative then -greatest else greatest)

/-! ## Places -/

/-- At most `places` fraction digits, half to even. Fewer digits stay as they are. -/
def round (a : Decimal) (places : Nat) : Decimal :=
  if h : a.scale ≤ places then a
  else
    { coeff := roundHalfEven a.coeff (tenPow (a.scale - places))
      scale := places
      coeff_lt :=
        Nat.lt_of_le_of_lt (natAbs_roundHalfEven_le _ (tenPow_pos _)) a.coeff_lt
      scale_le := Nat.le_trans (Nat.le_of_not_le h) a.scale_le
      minusZero := a.minusZero
      coeff_of_minusZero := fun hz => by simp [a.coeff_of_minusZero hz] }

end Promotions.Decimal
