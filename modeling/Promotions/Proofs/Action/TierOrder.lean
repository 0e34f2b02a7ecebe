import Promotions.Proofs.Action.Formula

/-!
# The order of tiers

Tiers may be declared in any order. The search keeps the last one of the highest tiers, but if no
two thresholds are the same number then there is only one highest tier, wherever it stands.
-/

namespace Promotions

namespace Action

variable {tiers tiers' : List Tier}

theorem Highest.perm {base : ℚ} {top : Tier} (h : Highest tiers base top)
    (hperm : tiers.Perm tiers') : Highest tiers' base top := by
  refine ⟨hperm.mem_iff.1 h.mem, h.reached, fun tier htier => ?_⟩
  exact h.highest tier (hperm.mem_iff.2 htier)

theorem reachedTier?_of_perm (hperm : tiers.Perm tiers')
    (hnodup : (tiers.map (·.threshold.toRat)).Nodup) (base : Decimal) :
    reachedTier? tiers' base = reachedTier? tiers base := by
  have hnodup' : (tiers'.map (·.threshold.toRat)).Nodup := (hperm.map _).nodup_iff.1 hnodup
  rcases reachedTier?_cases tiers base with ⟨top, htop, h⟩ | ⟨hnone, hall⟩
  · rw [htop]
    exact reachedTier?_of_highest hnodup' (h.perm hperm)
  · rw [hnone, reachedTier?_eq_none_iff]
    intro tier htier
    exact hall tier (hperm.mem_iff.2 htier)

theorem exists_apply_tiered_eq {r : Resolver} {s : Settings} {base : Decimal}
    (hbase : baseAmount r s = .ok base) (hnodup : (tiers.map (·.threshold.toRat)).Nodup)
    (hreached : ∃ tier ∈ tiers, tier.threshold ≤ base) :
    ∃ top, (∀ tier, Highest tiers base.toRat tier ↔ tier = top) ∧
      (tiered tiers).apply r s = .ok (discount s top.discount base) := by
  rw [apply_tiered hbase]
  rcases reachedTier?_cases tiers base with ⟨top, htop, h⟩ | ⟨-, hall⟩
  · refine ⟨top, fun tier => ?_, by rw [htop]⟩
    constructor
    · intro htier
      exact htier.unique hnodup h
    · rintro rfl
      exact h
  · obtain ⟨tier, hmem, hle⟩ := hreached
    rw [Decimal.le_iff_toRat_le] at hle
    exact absurd hle (not_le.2 (hall tier hmem))

/-- Tiers whose thresholds differ as numbers give the same in every order: the discount of the one
highest tier that the amount reaches, clamped to the amount and rounded, or nothing, exactly if the
amount is below all of them. -/
theorem tiered_in_any_order (r : Resolver) (s : Settings) (tiers tiers' : List Tier)
    (hperm : tiers.Perm tiers') (hnodup : (tiers.map (·.threshold.toRat)).Nodup) :
    (tiered tiers').apply r s = (tiered tiers).apply r s ∧
    ∀ base, r.value? s.amountField = some (.number base) →
      ((tiered tiers).apply r s = .ok .none ↔ ∀ tier ∈ tiers, base < tier.threshold) ∧
      ((∃ tier ∈ tiers, tier.threshold ≤ base) →
        ∃ top amount, (∀ tier, Highest tiers base.toRat tier ↔ tier = top) ∧
          (tiered tiers).apply r s = .ok (.discount amount) ∧
          .discount amount = discount s top.discount base ∧
          amount.RoundedTo s.places (max 0 (min top.discount.toRat base.toRat))) := by
  constructor
  · rw [apply, apply]
    simp only [reachedTier?_of_perm hperm hnodup]
  · intro base hvalue
    have hbase := baseAmount_of_number hvalue
    refine ⟨apply_tiered_eq_none_iff hbase tiers, fun hreached => ?_⟩
    obtain ⟨top, hunique, happly⟩ := exists_apply_tiered_eq hbase hnodup hreached
    obtain ⟨amount, hdiscount, hrounded⟩ := exists_discount (s := s) top.discount base
    exact ⟨top, amount, hunique, happly.trans (congrArg _ hdiscount), hdiscount.symm, hrounded⟩

/-- Of 25 off from 250 on and 5 off from 100.0 on, 249.90 reaches the latter only, and finds it in
both orders. -/
theorem tiered_in_any_order_falling :
    let tiers : List Tier :=
      [⟨.ofCoeff 250 0 (by decide) (by decide), .ofCoeff 25 0 (by decide) (by decide)⟩,
       ⟨.ofCoeff 1000 1 (by decide) (by decide), .ofCoeff 5 0 (by decide) (by decide)⟩]
    let base : Decimal := .ofCoeff 24990 2 (by decide) (by decide)
    tiers.Perm tiers.reverse ∧ (tiers.map (·.threshold.toRat)).Nodup ∧
      ∃ top amount, (∀ tier, Highest tiers base.toRat tier ↔ tier = top) ∧
        (tiered tiers.reverse).apply (orderOf base) .standard = .ok (.discount amount) ∧
        amount.RoundedTo 2 (max 0 (min top.discount.toRat base.toRat)) := by
  intro tiers base
  have hperm : tiers.Perm tiers.reverse := tiers.reverse_perm.symm
  have hnodup : (tiers.map (·.threshold.toRat)).Nodup := by
    norm_num [tiers, Decimal.toRat, Decimal.ofCoeff]
  obtain ⟨hsame, hgives⟩ := tiered_in_any_order (orderOf base) .standard tiers _ hperm hnodup
  obtain ⟨top, amount, hunique, happly, -, hrounded⟩ := (hgives base rfl).2 (by decide)
  exact ⟨hperm, hnodup, top, amount, hunique, hsame.trans happly, hrounded⟩

end Action

end Promotions
