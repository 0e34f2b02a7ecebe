/-!
# Digits

Numbers in the digits 0 to 9.
-/

namespace Promotions.Text

def isDigits (cs : List Char) : Bool := !cs.isEmpty && cs.all Char.isDigit

def digitsValue (cs : List Char) : Nat := Nat.ofDigitChars 10 cs 0

/-- The digits of `n`, led by zeros up to `width` of them. -/
def paddedDigits (width n : Nat) : List Char :=
  let digits := Nat.toDigits 10 n
  List.replicate (width - digits.length) '0' ++ digits

theorem toNat_of_isDigit (c : Char) (h : c.isDigit) : 48 ≤ c.toNat ∧ c.toNat ≤ 57 := by
  simp only [Char.isDigit, Bool.and_eq_true, decide_eq_true_eq] at h
  exact h

end Promotions.Text
