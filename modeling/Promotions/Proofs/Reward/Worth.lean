import Mathlib.Data.Option.Basic
import Promotions.Proofs.Decimal.Fitted
import Promotions.Reward.Basic

/-!
# Rewards that grow

If every reward of a list is worth at least the one at its place in another list, so is their sum,
for all its rounding and its saturation, and so is the best of them.
-/

namespace Promotions.Reward

/-- `y` is worth at least `x`, which is not worth less than nothing. -/
structure Grows (x y : Reward) : Prop where
  nonneg : 0 ≤ x.worth.toRat
  le : x.worth.toRat ≤ y.worth.toRat

theorem Grows.refl {x : Reward} (h : 0 ≤ x.worth.toRat) : Grows x x := ⟨h, le_rfl⟩

@[simp]
theorem worth_none : (none : Reward).worth = 0 := by rw [worth]

@[simp]
theorem worth_discount (amount : Decimal) : (discount amount).worth = amount := by rw [worth]

@[simp]
theorem worth_gift (item : String) (quantity : UInt32) : (gift item quantity).worth = 0 := by
  rw [worth]

@[simp]
theorem worth_points (count : UInt64) : (points count).worth = 0 := by rw [worth]

theorem worth_multiple (rewards : List Reward) :
    (multiple rewards).worth = addWorth 0 rewards := by
  rw [worth]

theorem Grows.of_none {y : Reward} (h : 0 ≤ y.worth.toRat) : Grows none y :=
  ⟨by simp, by simpa using h⟩

/-! ## The sum -/

theorem addWorth_mono {rewards rewards' : List Reward} (h : List.Forall₂ Grows rewards rewards')
    {sum sum' : Decimal} (hsum : 0 ≤ sum.toRat) (hle : sum.toRat ≤ sum'.toRat) :
    0 ≤ (addWorth sum rewards).toRat ∧
      (addWorth sum rewards).toRat ≤ (addWorth sum' rewards').toRat := by
  induction h generalizing sum sum' with
  | nil =>
    rw [addWorth, addWorth]
    exact ⟨hsum, hle⟩
  | @cons x y rewards rewards' hxy _ ih =>
    rw [addWorth, addWorth]
    exact ih (Decimal.saturatingAdd_nonneg hsum hxy.nonneg)
      (Decimal.saturatingAdd_mono hsum hxy.nonneg hle hxy.le)

theorem Grows.multiple {rewards rewards' : List Reward}
    (h : List.Forall₂ Grows rewards rewards') :
    Grows (multiple rewards) (multiple rewards') := by
  obtain ⟨hnonneg, hle⟩ := addWorth_mono h Decimal.toRat_zero.ge le_rfl
  rw [← worth_multiple] at hnonneg
  rw [← worth_multiple, ← worth_multiple] at hle
  exact ⟨hnonneg, hle⟩

/-! ## The best -/

theorem better_of_lt {top next : Reward} (h : top.worth.toRat < next.worth.toRat) :
    better (some top) next = next :=
  if_pos ((Decimal.lt_iff_toRat_lt _ _).2 h)

theorem better_of_le {top next : Reward} (h : next.worth.toRat ≤ top.worth.toRat) :
    better (some top) next = top :=
  if_neg (mt (Decimal.lt_iff_toRat_lt _ _).1 (not_lt.2 h))

theorem worth_better (top next : Reward) :
    (better (some top) next).worth.toRat = max top.worth.toRat next.worth.toRat := by
  rcases lt_or_ge top.worth.toRat next.worth.toRat with h | h
  · rw [better_of_lt h, max_eq_right h.le]
  · rw [better_of_le h, max_eq_left h]

theorem Grows.better {best best' : Option Reward} {next next' : Reward}
    (hbest : Option.Rel Grows best best') (hnext : Grows next next') :
    Grows (better best next) (better best' next') := by
  cases hbest with
  | none => exact hnext
  | some htop =>
    constructor
    · rw [worth_better]
      exact le_max_of_le_left htop.nonneg
    · rw [worth_better, worth_better]
      exact max_le_max htop.le hnext.le

end Promotions.Reward
