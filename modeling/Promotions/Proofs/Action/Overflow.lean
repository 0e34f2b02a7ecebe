import Promotions.Proofs.Action.Formula

/-!
# Results without room

Where the product of a percentage or the difference to a fixed price has no room in a decimal, the
action goes on with zero. An action that passes its check loses no discount by that: the product
always has room, and the difference has none only below zero, where no discount is given anyway.
-/

namespace Promotions.Action

variable {s : Settings} {base : Decimal}

theorem discount_of_neg (h : base < 0) (off : Decimal) : discount s off base = .discount 0 := by
  have hneg : min off base < 0 := by
    rw [Decimal.lt_iff_toRat_lt, Decimal.toRat_zero] at h ⊢
    rw [Decimal.toRat_min]
    exact (min_le_right _ _).trans_lt h
  rw [discount, Decimal.max_eq_right_of_lt hneg, Decimal.round_zero]

theorem exists_product (base : Decimal) {rate : Decimal} (hcheck : (percentage rate).check = .ok ()) :
    ∃ share off, (1 : Decimal).sub? rate = some share ∧ share.toRat = 1 - rate.toRat ∧
      base.mul? share = some off ∧ Decimal.Fitted (base.toRat * (1 - rate.toRat)) off.toRat := by
  obtain ⟨⟨hnonneg, hle⟩, -⟩ := (check_percentage_iff rate).1 hcheck
  obtain ⟨share, hshare, hexact, hproduct⟩ := Decimal.exists_share_fitted rate hnonneg hle
  obtain ⟨off, hoff, hfitted⟩ := hproduct base
  exact ⟨share, off, hshare, hexact, hoff, hfitted⟩

theorem exists_difference (hbase : 0 ≤ base) {price : Decimal}
    (hcheck : (fixedPrice price).check = .ok ()) :
    ∃ off, base.sub? price = some off ∧
      Decimal.Fitted (base.toRat - price.toRat) off.toRat := by
  rw [check, checkSign_eq_ok_iff] at hcheck
  rw [Decimal.le_iff_toRat_le, Decimal.toRat_zero] at hbase
  exact Decimal.exists_sub?_fitted hbase hcheck

theorem neg_of_sub?_eq_none {price : Decimal} (hcheck : (fixedPrice price).check = .ok ())
    (hnone : base.sub? price = none) : base < 0 := by
  rw [Decimal.lt_iff_toRat_lt]
  by_contra hge
  obtain ⟨off, hoff, -⟩ := exists_difference
    ((Decimal.le_iff_toRat_le 0 base).2 (not_lt.1 hge)) hcheck
  rw [hnone] at hoff
  exact nomatch hoff

/-- An action that passes its check loses no discount for want of room. One less its rate is exact
and the product with it always has room. The difference to its price has room unless the amount is
negative, and then the discount is zero, as it is for the exact difference. -/
theorem fallback_loses_no_discount (base : Decimal) :
    (∀ rate, (percentage rate).check = .ok () →
      ∃ share off, (1 : Decimal).sub? rate = some share ∧ share.toRat = 1 - rate.toRat ∧
        base.mul? share = some off ∧ Decimal.Fitted (base.toRat * (1 - rate.toRat)) off.toRat ∧
        ∀ (r : Resolver) (s : Settings), r.value? s.amountField = some (.number base) →
          (percentage rate).apply r s = .ok (discount s off base)) ∧
    ∀ price, (fixedPrice price).check = .ok () →
      (0 ≤ base → ∃ off, base.sub? price = some off ∧
        Decimal.Fitted (base.toRat - price.toRat) off.toRat) ∧
      (base.sub? price = none →
        base < 0 ∧ max 0 (min (base.toRat - price.toRat) base.toRat) = 0 ∧
        ∀ (r : Resolver) (s : Settings), r.value? s.amountField = some (.number base) →
          (fixedPrice price).apply r s = .ok (.discount 0)) := by
  constructor
  · intro rate hcheck
    obtain ⟨share, off, hshare, hexact, hoff, hfitted⟩ := exists_product base hcheck
    refine ⟨share, off, hshare, hexact, hoff, hfitted, fun r s hbase => ?_⟩
    simp only [apply_percentage (baseAmount_of_number hbase), hshare, hoff, Option.getD_some]
  · intro price hcheck
    refine ⟨fun hbase => exists_difference hbase hcheck, fun hnone => ?_⟩
    have hneg := neg_of_sub?_eq_none hcheck hnone
    refine ⟨hneg, ?_, fun r s hbase => ?_⟩
    · rw [Decimal.lt_iff_toRat_lt, Decimal.toRat_zero] at hneg
      exact max_eq_left ((min_le_right _ _).trans hneg.le)
    · rw [apply_fixedPrice (baseAmount_of_number hbase), discount_of_neg hneg]

/-- 15 percent off the greatest amount, and the greatest price for the least one. -/
theorem fallback_loses_no_discount_extremes :
    let rate : Decimal := .ofCoeff 85 2 (by decide) (by decide)
    let least : Decimal := -.greatest
    (percentage rate).check = .ok () ∧ (fixedPrice .greatest).check = .ok () ∧
      (∃ share off, (1 : Decimal).sub? rate = some share ∧
        Decimal.greatest.mul? share = some off ∧
        (percentage rate).apply (orderOf .greatest) .standard =
          .ok (discount .standard off .greatest)) ∧
      least.sub? .greatest = none ∧ least < 0 ∧
      (fixedPrice .greatest).apply (orderOf least) .standard = .ok (.discount 0) := by
  intro rate least
  have hrate : (percentage rate).check = .ok () := rfl
  have hprice : (fixedPrice .greatest).check = .ok () := rfl
  have hnone : least.sub? .greatest = none := by decide +kernel
  obtain ⟨share, off, hshare, -, hoff, -, happly⟩ :=
    (fallback_loses_no_discount .greatest).1 rate hrate
  obtain ⟨hneg, -, hzero⟩ := ((fallback_loses_no_discount least).2 _ hprice).2 hnone
  exact ⟨hrate, hprice, ⟨share, off, hshare, hoff, happly _ _ rfl⟩, hnone, hneg, hzero _ _ rfl⟩

end Promotions.Action
