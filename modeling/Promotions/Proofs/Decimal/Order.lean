import Promotions.Decimal.Arith
import Promotions.Proofs.Decimal.Nearest

/-!
# Decimals as numbers

`toRat` is the number that a decimal stands for. The order of decimals is the order of these
numbers, and rounding to places keeps it.
-/

namespace Promotions.Decimal

@[simp]
theorem cast_tenPow (n : Nat) : ((tenPow n : Nat) : ℚ) = 10 ^ n := by
  change ((10 ^ n : Nat) : ℚ) = 10 ^ n
  push_cast
  rfl

theorem twoPow_96 : twoPow 96 = 2 ^ 96 := rfl

/-- The number `coeff / 10 ^ scale`. -/
def toRat (a : Decimal) : ℚ := a.coeff / 10 ^ a.scale

@[simp]
theorem toRat_zero : toRat 0 = 0 := by
  change ((0 : Int) : ℚ) / 10 ^ 0 = 0
  simp

@[simp]
theorem toRat_one : toRat 1 = 1 := by
  change ((1 : Int) : ℚ) / 10 ^ 0 = 1
  simp

/-! ## Order -/

theorem le_iff_toRat_le (a b : Decimal) : a ≤ b ↔ a.toRat ≤ b.toRat := by
  have ha : (0 : ℚ) < 10 ^ a.scale := by positivity
  have hb : (0 : ℚ) < 10 ^ b.scale := by positivity
  unfold toRat
  rw [div_le_div_iff₀ ha hb]
  change a.coeff * tenPow b.scale ≤ b.coeff * tenPow a.scale ↔ _
  rw [← cast_tenPow, ← cast_tenPow]
  norm_cast

theorem lt_iff_toRat_lt (a b : Decimal) : a < b ↔ a.toRat < b.toRat := by
  have ha : (0 : ℚ) < 10 ^ a.scale := by positivity
  have hb : (0 : ℚ) < 10 ^ b.scale := by positivity
  unfold toRat
  rw [div_lt_div_iff₀ ha hb]
  change a.coeff * tenPow b.scale < b.coeff * tenPow a.scale ↔ _
  rw [← cast_tenPow, ← cast_tenPow]
  norm_cast

theorem max_eq_right_of_lt {a b : Decimal} (h : a < b) : max a b = b := if_pos h

theorem max_eq_left_of_not_lt {a b : Decimal} (h : ¬a < b) : max a b = a := if_neg h

theorem min_eq_right_of_lt {a b : Decimal} (h : b < a) : min a b = b := if_pos h

theorem min_eq_left_of_not_lt {a b : Decimal} (h : ¬b < a) : min a b = a := if_neg h

theorem min_self (a : Decimal) : min a a = a := ite_self a

theorem toRat_max (a b : Decimal) : (max a b).toRat = max a.toRat b.toRat := by
  by_cases h : a < b
  · rw [max_eq_right_of_lt h, max_eq_right ((lt_iff_toRat_lt a b).1 h).le]
  · rw [max_eq_left_of_not_lt h, max_eq_left]
    rwa [lt_iff_toRat_lt, not_lt] at h

theorem toRat_min (a b : Decimal) : (min a b).toRat = min a.toRat b.toRat := by
  by_cases h : b < a
  · rw [min_eq_right_of_lt h, min_eq_right ((lt_iff_toRat_lt b a).1 h).le]
  · rw [min_eq_left_of_not_lt h, min_eq_left]
    rwa [lt_iff_toRat_lt, not_lt] at h

theorem same_iff (a b : Decimal) : a.same b ↔ a.toRat = b.toRat := by
  have ha : (10 : ℚ) ^ a.scale ≠ 0 := by positivity
  have hb : (10 : ℚ) ^ b.scale ≠ 0 := by positivity
  unfold same toRat
  rw [beq_iff_eq, div_eq_div_iff ha hb, ← cast_tenPow, ← cast_tenPow]
  norm_cast

theorem compare_eq_lt_iff (a b : Decimal) : Ord.compare a b = .lt ↔ a.toRat < b.toRat := by
  rw [← lt_iff_toRat_lt]
  exact Int.compare_eq_lt

theorem compare_eq_eq_iff (a b : Decimal) : Ord.compare a b = .eq ↔ a.toRat = b.toRat := by
  rw [← same_iff, same, beq_iff_eq]
  exact Int.compare_eq_eq

theorem compare_swap (a b : Decimal) : Ord.compare b a = (Ord.compare a b).swap :=
  Std.OrientedOrd.eq_swap (α := Int)

theorem isNegative_iff (a : Decimal) : a.isNegative ↔ a.toRat < 0 := by
  have ha : (0 : ℚ) < 10 ^ a.scale := by positivity
  unfold isNegative toRat
  rw [decide_eq_true_eq, div_lt_iff₀ ha, zero_mul]
  norm_cast

/-! ## Rounding to places -/

theorem div_mul_pow (n : Int) {s t : Nat} (hs : s ≤ t) :
    (n : ℚ) / 10 ^ s * 10 ^ t = ((n * 10 ^ (t - s) : Int) : ℚ) := by
  have hpow : (10 : ℚ) ^ t = 10 ^ s * 10 ^ (t - s) := by rw [← pow_add, Nat.add_sub_cancel' hs]
  rw [hpow]
  push_cast
  field_simp

theorem halfEven_roundHalfEven_tenPow (n : Int) {s t : Nat} (ht : t ≤ s) :
    HalfEven (n / 10 ^ s * 10 ^ t) (roundHalfEven n (tenPow (s - t))) := by
  have hpow : (10 : ℚ) ^ s = 10 ^ (s - t) * 10 ^ t := by rw [← pow_add, Nat.sub_add_cancel ht]
  have hquotient : (n : ℚ) / 10 ^ s * 10 ^ t = n / (tenPow (s - t) : Nat) := by
    rw [cast_tenPow, hpow]
    field_simp
  rw [hquotient]
  exact halfEven_roundHalfEven n _ (tenPow_pos _)

/-- `a` is `x` rounded half to even to so many places. -/
def RoundedTo (places : Nat) (x : ℚ) (a : Decimal) : Prop :=
  ∃ units : Int, HalfEven (x * 10 ^ places) units ∧ a.toRat = units / 10 ^ places

theorem roundedTo_round (a : Decimal) (places : Nat) :
    (a.round places).RoundedTo places a.toRat := by
  unfold round
  by_cases h : a.scale ≤ places
  · -- The decimal is a whole number of units already.
    have hunits : a.toRat * 10 ^ places = ((a.coeff * 10 ^ (places - a.scale) : Int) : ℚ) :=
      div_mul_pow a.coeff h
    refine ⟨a.coeff * 10 ^ (places - a.scale), ?_, ?_⟩
    · rw [hunits]
      exact halfEven_intCast _
    · rw [dif_pos h, ← hunits]
      field_simp
  · refine ⟨roundHalfEven a.coeff (tenPow (a.scale - places)), ?_, ?_⟩
    · exact halfEven_roundHalfEven_tenPow a.coeff (Nat.le_of_not_le h)
    · rw [dif_neg h]
      rfl

theorem scale_round_le (a : Decimal) (places : Nat) : (a.round places).scale ≤ places := by
  unfold round
  by_cases h : a.scale ≤ places
  · rw [dif_pos h]
    exact h
  · rw [dif_neg h]

theorem round_mono (a b : Decimal) (places : Nat) (h : a ≤ b) :
    a.round places ≤ b.round places := by
  obtain ⟨r, hnear, hr⟩ := roundedTo_round a places
  obtain ⟨s, hnear', hs⟩ := roundedTo_round b places
  have hpow : (0 : ℚ) < 10 ^ places := by positivity
  rw [le_iff_toRat_le] at h ⊢
  have hrs : r ≤ s := hnear.mono hnear' (mul_le_mul_of_nonneg_right h hpow.le)
  rw [hr, hs]
  apply div_le_div_of_nonneg_right _ hpow.le
  exact_mod_cast hrs

theorem round_zero (places : Nat) : (0 : Decimal).round places = 0 := by
  unfold round
  rw [dif_pos]
  exact Nat.zero_le places

theorem round_nonneg (a : Decimal) (places : Nat) (h : 0 ≤ a) : 0 ≤ a.round places := by
  have := round_mono 0 a places h
  rwa [round_zero] at this

end Promotions.Decimal
