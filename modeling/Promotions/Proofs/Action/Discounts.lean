import Promotions.Proofs.Action.Choice
import Promotions.Proofs.Action.Formula
import Promotions.Proofs.Reward.Discounts

/-!
# The discounts of an action

Every discount in the reward of an action is one that a single action gives, at whatever depth it
stands. So it has gone through the clamp and the rounding, even if the action would not pass its
check: negative sums, rates above one and products without room change nothing about that.
-/

namespace Promotions.Action

variable {r : Resolver} {s : Settings} {reward : Reward} {amount : Decimal}

/-! ## One discount -/

theorem Gives.of_mem_discounts (h : Gives r s reward) (hmem : amount ∈ reward.discounts) :
    Gives r s (.discount amount) := by
  cases h with
  | @clamped base hbase off =>
    rw [discount, Reward.discounts, List.mem_singleton] at hmem
    rw [hmem]
    exact .clamped hbase off
  | _ => simp [Reward.discounts] at hmem

theorem Gives.scale_le (h : Gives r s (.discount amount)) : amount.scale ≤ s.places := by
  obtain ⟨base, off, -, hoff⟩ := h.exists_clamped
  rw [discount, Reward.discount.injEq] at hoff
  rw [hoff]
  exact Decimal.scale_round_le _ _

theorem number_of_baseAmount {base : Decimal} (h : baseAmount r s = .ok base) :
    r.value? s.amountField = some (.number base) := by
  unfold baseAmount at h
  split at h
  · rw [← Except.ok.inj h]
    assumption
  · exact nomatch h
  · exact nomatch h

theorem Gives.exists_bound (h : Gives r s (.discount amount)) :
    ∃ base bound, r.value? s.amountField = some (.number base) ∧
      bound.RoundedTo s.places (max base.toRat 0) ∧ amount ≤ bound := by
  obtain ⟨base, off, hbase, -⟩ := h.exists_clamped
  have hrounded := Decimal.roundedTo_round (max base 0) s.places
  rw [Decimal.toRat_max, Decimal.toRat_zero] at hrounded
  exact ⟨base, _, number_of_baseAmount hbase, hrounded, (h.bounds hbase).2⟩

theorem Gives.nonneg (h : Gives r s (.discount amount)) : 0 ≤ amount := by
  obtain ⟨base, off, hbase, -⟩ := h.exists_clamped
  exact (h.bounds hbase).1

/-! ## Nested actions -/

mutual

theorem gives_of_mem_discounts (action : Action) {reward : Reward}
    (h : action.apply r s = .ok reward) (hmem : amount ∈ reward.discounts) :
    Gives r s (.discount amount) := by
  cases action with
  | all actions =>
    rw [apply, bind_eq_ok_iff] at h
    obtain ⟨rewards, hrewards, h⟩ := h
    rw [← Except.ok.inj h, Reward.discounts] at hmem
    exact gives_of_mem_discountsAll actions hrewards hmem
  | best actions =>
    rw [apply_best, bind_eq_ok_iff] at h
    obtain ⟨rewards, hrewards, h⟩ := h
    rw [← Except.ok.inj h] at hmem
    -- One of the rewards is left, with discounts that were there before.
    exact gives_of_mem_discountsAll actions hrewards (Reward.mem_discountsAll_of_best hmem)
  | _ => exact (gives_of_apply _ rfl h).of_mem_discounts hmem

theorem gives_of_mem_discountsAll (actions : List Action) {rewards : List Reward}
    (h : applyAll r s actions = .ok rewards) (hmem : amount ∈ Reward.discountsAll rewards) :
    Gives r s (.discount amount) := by
  cases actions with
  | nil =>
    rw [applyAll] at h
    rw [← Except.ok.inj h] at hmem
    simp [Reward.discountsAll] at hmem
  | cons action actions =>
    rw [applyAll, bind_eq_ok_iff] at h
    obtain ⟨reward, hreward, h⟩ := h
    rw [bind_eq_ok_iff] at h
    obtain ⟨rest, hrest, h⟩ := h
    rw [← Except.ok.inj h, Reward.discountsAll, List.mem_append] at hmem
    rcases hmem with hmem | hmem
    · exact gives_of_mem_discounts action hreward hmem
    · exact gives_of_mem_discountsAll actions hrest hmem

end

theorem worth_nonneg_of_apply {action : Action} (h : action.apply r s = .ok reward) :
    0 ≤ reward.worth.toRat := by
  apply reward.worth_nonneg
  intro amount hmem
  have hnonneg := (gives_of_mem_discounts action h hmem).nonneg
  rwa [Decimal.le_iff_toRat_le, Decimal.toRat_zero] at hnonneg

/-- Whatever the numbers of an action are, each discount that it gives lies between zero and the
amount rounded to places, and has no more places than that. So the worth of its reward lies between
zero and the end of the range. -/
theorem discounts_within_rounded_amount (r : Resolver) (s : Settings) (action : Action)
    (reward : Reward) (h : action.apply r s = .ok reward) :
    (∀ amount ∈ reward.discounts,
      0 ≤ amount ∧ amount.scale ≤ s.places ∧
        ∃ base bound, r.value? s.amountField = some (.number base) ∧
          bound.RoundedTo s.places (max base.toRat 0) ∧ amount ≤ bound) ∧
    0 ≤ reward.worth ∧ reward.worth ≤ .greatest := by
  refine ⟨?_, ?_, ?_⟩
  · intro amount hmem
    have hgives := gives_of_mem_discounts action h hmem
    exact ⟨hgives.nonneg, hgives.scale_le, hgives.exists_bound⟩
  · rw [Decimal.le_iff_toRat_le, Decimal.toRat_zero]
    exact worth_nonneg_of_apply h
  · rw [Decimal.le_iff_toRat_le]
    exact Decimal.le_greatest reward.worth

/-- A negative rate, a negative sum and a negative price without room for the difference. -/
def unchecked : Action :=
  all [best [fixedDiscount (-1), points 10, percentage (-1)], fixedPrice (-.greatest)]

theorem check_unchecked : unchecked.check = .error (.negative .discountAmount (-1)) := rfl

theorem apply_unchecked :
    unchecked.apply (orderOf (.ofCoeff 10015 3 (by decide) (by decide))) .standard =
      .ok (.multiple [.discount (.ofCoeff 1002 2 (by decide) (by decide)), .discount 0]) :=
  rfl

/-- The rate takes 20.03 off 10.015, which gives a discount of 10.02. -/
theorem discounts_within_rounded_amount_unchecked :
    let r := orderOf (.ofCoeff 10015 3 (by decide) (by decide))
    let off : Decimal := .ofCoeff 1002 2 (by decide) (by decide)
    let reward : Reward := .multiple [.discount off, .discount 0]
    unchecked.check ≠ .ok () ∧ unchecked.apply r .standard = .ok reward ∧
      (0 ≤ off ∧ off.scale ≤ 2 ∧
        ∃ base bound, r.value? "order.total" = some (.number base) ∧
          bound.RoundedTo 2 (max base.toRat 0) ∧ off ≤ bound) ∧
      0 ≤ reward.worth ∧ reward.worth ≤ .greatest := by
  intro r off reward
  obtain ⟨hdiscounts, hworth⟩ :=
    discounts_within_rounded_amount r .standard unchecked reward apply_unchecked
  have hoff : off ∈ reward.discounts := by
    simp [reward, Reward.discounts, Reward.discountsAll]
  exact ⟨by simp [check_unchecked], apply_unchecked, hdiscounts off hoff, hworth⟩

end Promotions.Action
