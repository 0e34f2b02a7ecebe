import Promotions.Decimal.Rounding
import Promotions.Power

/-!
# Decimals

A `Decimal` is `coeff / 10 ^ scale`. The coefficient has less than 97 bits and there are at
most 28 fraction digits. The scale is part of the number: `60.0` and `60` are equal in value
and still two decimals. A zero may carry a minus sign, which shows in its text and nowhere
else. The order looks at the value only.
-/

namespace Promotions

structure Decimal where
  coeff : Int
  scale : Nat
  coeff_lt : coeff.natAbs < twoPow 96
  scale_le : scale ≤ 28
  /-- The minus sign of a zero. The sign of any other number is the sign of its coefficient. -/
  minusZero : Bool := false
  coeff_of_minusZero : minusZero = true → coeff = 0 := by nofun
deriving DecidableEq

namespace Decimal

/-! ## Constants -/

/-- The decimal `coeff / 10 ^ scale`. A zero made so has no sign. -/
abbrev ofCoeff (coeff : Int) (scale : Nat) (coeff_lt : coeff.natAbs < twoPow 96)
    (scale_le : scale ≤ 28) : Decimal :=
  { coeff, scale, coeff_lt, scale_le }

instance : OfNat Decimal 0 := ⟨ofCoeff 0 0 (by decide) (by decide)⟩

instance : OfNat Decimal 1 := ⟨ofCoeff 1 0 (by decide) (by decide)⟩

instance : Inhabited Decimal := ⟨0⟩

/-- The largest decimal, `79228162514264337593543950335`. -/
def greatest : Decimal := ofCoeff (twoPow 96 - 1) 0 (by decide) (by decide)

/-- The negative of a number. A zero stays as it is. -/
instance : Neg Decimal where
  neg a :=
    { a with
      coeff := -a.coeff
      coeff_lt := by simpa using a.coeff_lt
      coeff_of_minusZero := fun h => by simp [a.coeff_of_minusZero h] }

def ofInt? (n : Int) : Option Decimal :=
  if h : n.natAbs < twoPow 96 then some (ofCoeff n 0 h (by decide)) else none

/-! ## Order by value -/

/-- Compares `a` and `b` as numbers, both brought to one denominator. -/
instance : Ord Decimal where
  compare a b := compare (a.coeff * tenPow b.scale) (b.coeff * tenPow a.scale)

instance : LE Decimal := ⟨fun a b => a.coeff * tenPow b.scale ≤ b.coeff * tenPow a.scale⟩

instance : LT Decimal := ⟨fun a b => a.coeff * tenPow b.scale < b.coeff * tenPow a.scale⟩

instance (a b : Decimal) : Decidable (a ≤ b) :=
  inferInstanceAs (Decidable (a.coeff * tenPow b.scale ≤ b.coeff * tenPow a.scale))

instance (a b : Decimal) : Decidable (a < b) :=
  inferInstanceAs (Decidable (a.coeff * tenPow b.scale < b.coeff * tenPow a.scale))

/-- Equal as numbers, whatever the scales. -/
def same (a b : Decimal) : Bool := a.coeff * tenPow b.scale == b.coeff * tenPow a.scale

/-- Below zero. A zero is not, whatever its sign. -/
def isNegative (a : Decimal) : Bool := a.coeff < 0

/-- The smaller of two decimals, the left one if they are equal in value. -/
instance : Min Decimal := ⟨fun a b => if b < a then b else a⟩

/-- The larger of two decimals, the left one if they are equal in value. -/
instance : Max Decimal := ⟨fun a b => if a < b then b else a⟩

end Decimal

end Promotions
