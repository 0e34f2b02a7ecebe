import Promotions.Proofs.Reward.Best

/-!
# The discounts in a reward

The worth of a reward is made of the discounts in it, at whatever depth they stand. It is never
below zero if none of them is.
-/

namespace Promotions.Reward

mutual

/-- The amounts of all discounts in a reward, at any depth. -/
def discounts : Reward → List Decimal
  | discount amount => [amount]
  | multiple rewards => discountsAll rewards
  | none | gift _ _ | points _ => []

def discountsAll : List Reward → List Decimal
  | [] => []
  | reward :: rewards => discounts reward ++ discountsAll rewards

end

theorem discountsAll_eq_flatMap (rewards : List Reward) :
    discountsAll rewards = rewards.flatMap discounts := by
  induction rewards with
  | nil => rfl
  | cons reward rewards ih => rw [discountsAll, List.flatMap_cons, ih]

theorem mem_discountsAll_of_mem {reward : Reward} {rewards : List Reward} {amount : Decimal}
    (hmem : reward ∈ rewards) (h : amount ∈ reward.discounts) : amount ∈ discountsAll rewards := by
  rw [discountsAll_eq_flatMap]
  exact List.mem_flatMap_of_mem hmem h

theorem mem_discountsAll_of_best {rewards : List Reward} {amount : Decimal}
    (h : amount ∈ ((best? rewards).getD none).discounts) : amount ∈ discountsAll rewards := by
  cases hbest : best? rewards with
  | none => simp [hbest, discounts] at h
  | some top =>
    rw [hbest, Option.getD_some] at h
    obtain ⟨i, hfirst⟩ := (best?_eq_some_iff rewards top).1 hbest
    exact mem_discountsAll_of_mem hfirst.mem h

/-! ## Worth -/

mutual

theorem worth_nonneg (reward : Reward) (h : ∀ amount ∈ reward.discounts, 0 ≤ amount.toRat) :
    0 ≤ reward.worth.toRat := by
  cases reward with
  | discount amount =>
    rw [worth_discount]
    exact h amount (by simp [discounts])
  | multiple rewards =>
    rw [worth_multiple]
    exact addWorth_nonneg rewards h Decimal.toRat_zero.ge
  | _ => simp

theorem addWorth_nonneg (rewards : List Reward)
    (h : ∀ amount ∈ discountsAll rewards, 0 ≤ amount.toRat) {sum : Decimal} (hsum : 0 ≤ sum.toRat) :
    0 ≤ (addWorth sum rewards).toRat := by
  cases rewards with
  | nil =>
    rw [addWorth]
    exact hsum
  | cons reward rewards =>
    rw [discountsAll, List.forall_mem_append] at h
    rw [addWorth]
    exact addWorth_nonneg rewards h.2
      (Decimal.saturatingAdd_nonneg hsum (worth_nonneg reward h.1))

end

end Promotions.Reward
