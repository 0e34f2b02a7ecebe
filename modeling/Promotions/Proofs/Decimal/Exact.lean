import Promotions.Proofs.Decimal.Order

/-!
# Exact sums

A result that has room at the scale of its operands is not rounded. So a sum or a difference is the
exact one whenever its coefficient has room, and one less a number between zero and one always is.
-/

namespace Promotions.Decimal

/-! ## Room -/

theorem fitUpTo_of_room (n : Int) (s t : Nat) (ht : t ≤ 28)
    (h : (roundHalfEven n (tenPow (s - t))).natAbs < twoPow 96) :
    fitUpTo n s t ht = some (ofCoeff (roundHalfEven n (tenPow (s - t))) t h ht) := by
  cases t with
  | zero => exact dif_pos h
  | succ t => exact dif_pos h

theorem fitUpTo_self (n : Int) (s : Nat) (hn : n.natAbs < twoPow 96) (hs : s ≤ 28) :
    fitUpTo n s s hs = some (ofCoeff n s hn hs) := by
  have hwhole : roundHalfEven n (tenPow (s - s)) = n := by
    rw [Nat.sub_self]
    exact roundHalfEven_one n
  rw [fitUpTo_of_room n s s hs (by rwa [hwhole])]
  simp only [hwhole]

theorem fit_of_room (n : Int) (s : Nat) (hn : n.natAbs < twoPow 96) (hs : s ≤ 28) :
    fit n s = some (ofCoeff n s hn hs) := by
  unfold fit
  simp only [Nat.min_eq_left hs]
  exact fitUpTo_self n s hn hs

/-! ## Sum and difference -/

@[simp]
theorem toRat_neg (a : Decimal) : (-a).toRat = -a.toRat := by
  change ((-a.coeff : Int) : ℚ) / 10 ^ a.scale = -(a.coeff / 10 ^ a.scale)
  rw [Int.cast_neg, neg_div]

theorem toRat_of_coeff_eq_zero {a : Decimal} (h : a.coeff = 0) : a.toRat = 0 := by
  simp [toRat, h]

theorem coeff_mul_div (a : Decimal) {s : Nat} (hs : a.scale ≤ s) :
    ((a.coeff * tenPow (s - a.scale) : Int) : ℚ) / 10 ^ s = a.toRat := by
  have hpow : (10 : ℚ) ^ s = 10 ^ a.scale * 10 ^ (s - a.scale) := by
    rw [← pow_add, Nat.add_sub_cancel' hs]
  rw [toRat, hpow]
  push_cast
  rw [cast_tenPow]
  field_simp

/-- The coefficient of the sum at the larger scale of the two. -/
def sumCoeff (a b : Decimal) : Int :=
  a.coeff * tenPow (max a.scale b.scale - a.scale) +
    b.coeff * tenPow (max a.scale b.scale - b.scale)

theorem exists_add?_eq (a b : Decimal) (hroom : (sumCoeff a b).natAbs < twoPow 96) :
    ∃ c, a.add? b = some c ∧ c.toRat = a.toRat + b.toRat := by
  unfold add?
  by_cases ha : a.coeff = 0
  · exact ⟨b, if_pos ha, by rw [toRat_of_coeff_eq_zero ha, zero_add]⟩
  rw [if_neg ha]
  by_cases hb : b.coeff = 0
  · exact ⟨a, if_pos hb, by rw [toRat_of_coeff_eq_zero hb, add_zero]⟩
  rw [if_neg hb]
  have hscale : max a.scale b.scale ≤ 28 := Nat.max_le.2 ⟨a.scale_le, b.scale_le⟩
  refine ⟨_, fit_of_room (sumCoeff a b) _ hroom hscale, ?_⟩
  rw [← coeff_mul_div a (Nat.le_max_left a.scale b.scale),
    ← coeff_mul_div b (Nat.le_max_right a.scale b.scale), ← add_div, ← Int.cast_add]
  rfl

theorem exists_one_sub?_eq (rate : Decimal) (hnonneg : 0 ≤ rate.toRat) (hle : rate.toRat ≤ 1) :
    ∃ share, (1 : Decimal).sub? rate = some share ∧ share.toRat = 1 - rate.toRat := by
  have hpow : (0 : ℚ) < 10 ^ rate.scale := by positivity
  have hcoeff : 0 ≤ rate.coeff := by
    rw [toRat, le_div_iff₀ hpow, zero_mul] at hnonneg
    exact_mod_cast hnonneg
  have hcoeff' : rate.coeff ≤ tenPow rate.scale := by
    rw [toRat, div_le_iff₀ hpow, one_mul, ← cast_tenPow] at hle
    exact_mod_cast hle
  have hlarge : tenPow rate.scale ≤ tenPow 28 :=
    Nat.pow_le_pow_right (by decide) rate.scale_le
  have hroom : tenPow 28 < twoPow 96 := by decide
  have hsum : sumCoeff 1 (-rate) = tenPow rate.scale - rate.coeff := by
    change 1 * (tenPow (max 0 rate.scale - 0) : Int) +
      -rate.coeff * tenPow (max 0 rate.scale - rate.scale) = _
    rw [Nat.zero_max, Nat.sub_zero, Nat.sub_self]
    change 1 * (tenPow rate.scale : Int) + -rate.coeff * 1 = _
    omega
  obtain ⟨share, hshare, hexact⟩ := exists_add?_eq 1 (-rate) (by rw [hsum]; omega)
  refine ⟨share, hshare, ?_⟩
  rw [hexact, toRat_one, toRat_neg, sub_eq_add_neg]

end Promotions.Decimal
