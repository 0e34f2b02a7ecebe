/-!
# Powers

Powers of two say what has room in a number of bits, powers of ten move a decimal point.
-/

namespace Promotions

def twoPow (n : Nat) : Nat := Nat.pow 2 n

def tenPow (n : Nat) : Nat := Nat.pow 10 n

@[simp]
theorem twoPow_zero : twoPow 0 = 1 := rfl

theorem twoPow_pos (n : Nat) : 0 < twoPow n := Nat.pow_pos (by decide)

theorem tenPow_pos (n : Nat) : 0 < tenPow n := Nat.pow_pos (by decide)

theorem tenPow_add (m n : Nat) : tenPow (m + n) = tenPow m * tenPow n := Nat.pow_add 10 m n

end Promotions
