import Promotions.Action.Check
import Promotions.Proofs.Action.Single
import Promotions.Proofs.Decimal.Order

/-!
# How large a discount gets

A discount is brought between zero and the amount before it is rounded, so it stays between zero
and the rounded amount. Rounding up can carry it past the amount itself.
-/

namespace Promotions.Action

variable {r : Resolver} {s : Settings} {base : Decimal}

/-! ## Clamping -/

theorem clamp_nonneg (off base : Decimal) : 0 ≤ max (min off base) 0 := by
  rw [Decimal.le_iff_toRat_le, Decimal.toRat_max]
  exact le_max_right _ _

theorem clamp_le (off base : Decimal) : max (min off base) 0 ≤ max base 0 := by
  rw [Decimal.le_iff_toRat_le, Decimal.toRat_max, Decimal.toRat_max, Decimal.toRat_min]
  exact max_le_max_right _ (min_le_right _ _)

theorem clamp_whole (base : Decimal) : max (min (max base 0) base) 0 = max base 0 := by
  by_cases h : base < 0
  · rw [Decimal.max_eq_right_of_lt h, Decimal.min_eq_right_of_lt h, Decimal.max_eq_right_of_lt h]
  · rw [Decimal.max_eq_left_of_not_lt h, Decimal.min_self, Decimal.max_eq_left_of_not_lt h]

/-! ## The largest discount -/

theorem Gives.bounds {amount : Decimal} (hgives : Gives r s (.discount amount))
    (h : baseAmount r s = .ok base) : 0 ≤ amount ∧ amount ≤ (max base 0).round s.places := by
  obtain ⟨base', off, hbase, hoff⟩ := hgives.exists_clamped
  obtain rfl : base = base' := Except.ok.inj (h.symm.trans hbase)
  rw [discount, Reward.discount.injEq] at hoff
  subst hoff
  constructor
  · exact Decimal.round_nonneg _ _ (clamp_nonneg off base)
  · exact Decimal.round_mono _ _ _ (clamp_le off base)

theorem discount_bounds (h : baseAmount r s = .ok base) (leaf : Action) (hleaf : leaf.isSingle)
    (amount : Decimal) (hamount : leaf.apply r s = .ok (.discount amount)) :
    0 ≤ amount ∧ amount ≤ (max base 0).round s.places :=
  (gives_of_apply leaf hleaf hamount).bounds h

theorem apply_whole (h : baseAmount r s = .ok base) :
    (fixedDiscount (max base 0)).apply r s = .ok (.discount ((max base 0).round s.places)) := by
  rw [apply_fixedDiscount h, discount, clamp_whole]

theorem check_whole (base : Decimal) : (fixedDiscount (max base 0)).check = .ok () := by
  have hpos : ¬(max base 0).isNegative := by
    rw [Decimal.isNegative_iff, Decimal.toRat_max, Decimal.toRat_zero, not_lt]
    exact le_max_right _ _
  rw [check, checkSign, if_neg hpos]

/-! ## Discounts and the amount -/

/-- The discounts of valid actions lie between zero and the rounded amount. They stay within the
amount itself exactly if rounding does not raise it. -/
theorem discounts_within_amount_iff (r : Resolver) (s : Settings) (base : Decimal)
    (h : r.value? s.amountField = some (.number base)) :
    (∀ action leaf : Action, ∀ amount, action.check = .ok () → leaf ∈ action.singles →
      leaf.apply r s = .ok (.discount amount) →
        0 ≤ amount ∧ amount ≤ (max base 0).round s.places) ∧
    ((∀ action leaf : Action, ∀ amount, action.check = .ok () → leaf ∈ action.singles →
      leaf.apply r s = .ok (.discount amount) → 0 ≤ amount ∧ amount ≤ max base 0) ↔
        (max base 0).round s.places ≤ max base 0) := by
  have hbase := baseAmount_of_number h
  have hbounds : ∀ action leaf : Action, ∀ amount, leaf ∈ action.singles →
      leaf.apply r s = .ok (.discount amount) →
        0 ≤ amount ∧ amount ≤ (max base 0).round s.places := by
    intro action leaf amount hmem hamount
    exact discount_bounds hbase leaf (isSingle_of_mem_singles action leaf hmem) amount hamount
  refine ⟨fun action leaf amount _ => hbounds action leaf amount, ?_, ?_⟩
  · intro hwithin
    exact (hwithin _ _ _ (check_whole base) (List.mem_singleton_self _) (apply_whole hbase)).2
  · intro hround action leaf amount _ hmem hamount
    obtain ⟨hnonneg, hle⟩ := hbounds action leaf amount hmem hamount
    refine ⟨hnonneg, ?_⟩
    rw [Decimal.le_iff_toRat_le] at hle hround ⊢
    exact hle.trans hround

theorem baseAmount_orderTotal (total : Decimal) :
    baseAmount (Context.empty.insert "order.total" (.number total)).resolver .standard =
      .ok total :=
  rfl

/-- 15 percent off 19.99 is 2.9985, rounded up to 3.00. -/
theorem apply_fifteenPercent :
    (percentage (.ofCoeff 85 2 (by decide) (by decide))).apply
      (Context.empty.insert "order.total"
        (.number (.ofCoeff 1999 2 (by decide) (by decide)))).resolver .standard =
      .ok (.discount (.ofCoeff 300 2 (by decide) (by decide))) :=
  apply_percentage (baseAmount_orderTotal _) _

/-- In a choice of actions that discount stays within 19.99. -/
theorem discounts_within_amount_iff_percentage :
    (all [best [percentage (.ofCoeff 85 2 (by decide) (by decide)), points 10]]).check = .ok () ∧
      (0 : Decimal) ≤ .ofCoeff 300 2 (by decide) (by decide) ∧
      Decimal.ofCoeff 300 2 (by decide) (by decide) ≤
        max (.ofCoeff 1999 2 (by decide) (by decide)) 0 := by
  have hcheck :
      (all [best [percentage (.ofCoeff 85 2 (by decide) (by decide)), points 10]]).check =
        .ok () := rfl
  have hiff := discounts_within_amount_iff (Context.empty.insert "order.total"
    (.number (.ofCoeff 1999 2 (by decide) (by decide)))).resolver .standard _ rfl
  have hwithin := hiff.2.2 (by decide)
  exact ⟨hcheck, hwithin _ _ _ hcheck (by simp [singles, singlesAll]) apply_fifteenPercent⟩

/-- 20 off 10.015 is at most 10.015, rounded up to 10.02. -/
theorem apply_twentyOff :
    (fixedDiscount (.ofCoeff 20 0 (by decide) (by decide))).apply
      (Context.empty.insert "order.total"
        (.number (.ofCoeff 10015 3 (by decide) (by decide)))).resolver .standard =
      .ok (.discount (.ofCoeff 1002 2 (by decide) (by decide))) :=
  apply_fixedDiscount (baseAmount_orderTotal _) _

/-- The discount of 10.02 is larger than the amount, under the standard settings too. -/
theorem not_discounts_within_amount : ¬ ∀ (r : Resolver) (s : Settings) (base : Decimal),
    r.value? s.amountField = some (.number base) →
      ∀ action leaf : Action, ∀ amount, action.check = .ok () → leaf ∈ action.singles →
        leaf.apply r s = .ok (.discount amount) → 0 ≤ amount ∧ amount ≤ max base 0 := by
  intro h
  have hwithin := h _ _ _ rfl (fixedDiscount (.ofCoeff 20 0 (by decide) (by decide))) _ _ rfl
    (by simp [singles]) apply_twentyOff
  exact absurd hwithin.2 (by decide)

end Promotions.Action
