import Promotions.Proofs.Action.Formula
import Promotions.Proofs.Fallible
import Promotions.Proofs.Reward.Worth

/-!
# Growing orders

Under a larger amount no discount gets smaller, if no higher tier takes less off. Every single
action keeps the order of the amounts, through the rounding of its formula, the clamp to an amount
that moves too, and the places. Sums and choices keep it at every depth.
-/

namespace Promotions.Action

variable {r₁ r₂ : Resolver} {s : Settings} {base₁ base₂ : Decimal}

/-! ## Single actions -/

theorem discount_worth_nonneg (off base : Decimal) :
    0 ≤ (discount s off base).worth.toRat := by
  have h := Decimal.round_nonneg _ s.places (clamp_nonneg off base)
  rwa [Decimal.le_iff_toRat_le, Decimal.toRat_zero] at h

/-- Below zero nothing is taken off, so what the formula gives there does not matter. -/
theorem grows_discount {off₁ off₂ : Decimal} (hbase : base₁.toRat ≤ base₂.toRat)
    (hoff : 0 ≤ base₁.toRat → off₁.toRat ≤ off₂.toRat) :
    (discount s off₁ base₁).Grows (discount s off₂ base₂) := by
  have hclamp : max (min off₁ base₁) 0 ≤ max (min off₂ base₂) 0 := by
    simp only [Decimal.le_iff_toRat_le, Decimal.toRat_max, Decimal.toRat_min, Decimal.toRat_zero]
    rcases le_total 0 base₁.toRat with h | h
    · exact max_le_max_right 0 (min_le_min (hoff h) hbase)
    · rw [max_eq_right ((min_le_right _ _).trans h)]
      exact le_max_right _ _
  exact ⟨discount_worth_nonneg off₁ base₁,
    (Decimal.le_iff_toRat_le _ _).1 (Decimal.round_mono _ _ s.places hclamp)⟩

/-- No tier takes more off than a higher one. -/
def TiersRise (tiers : List Tier) : Prop :=
  ∀ low ∈ tiers, ∀ high ∈ tiers, low.threshold ≤ high.threshold → low.discount ≤ high.discount

/-- Both runs of `action` succeed, and the second reward is worth no less. -/
def GrowsFrom (r₁ r₂ : Resolver) (s : Settings) (action : Action) : Prop :=
  BothOk Reward.Grows (action.apply r₁ s) (action.apply r₂ s)

section Single

variable (h₁ : baseAmount r₁ s = .ok base₁) (h₂ : baseAmount r₂ s = .ok base₂)
  (hbase : base₁.toRat ≤ base₂.toRat)

include h₁ h₂ hbase

theorem percentage_grows {rate : Decimal} (hnonneg : 0 ≤ rate.toRat) (hle : rate.toRat ≤ 1) :
    GrowsFrom r₁ r₂ s (percentage rate) := by
  obtain ⟨share, hshare, -, hproduct⟩ := Decimal.exists_share_fitted rate hnonneg hle
  obtain ⟨off₁, hoff₁, hfit₁⟩ := hproduct base₁
  obtain ⟨off₂, hoff₂, hfit₂⟩ := hproduct base₂
  have hoff := hfit₁.mono hfit₂ (mul_le_mul_of_nonneg_right hbase (sub_nonneg.2 hle))
  unfold GrowsFrom
  simp only [apply_percentage h₁, apply_percentage h₂, hshare, hoff₁, hoff₂, Option.getD_some]
  exact .ok (grows_discount hbase fun _ => hoff)

theorem fixedPrice_grows {price : Decimal} (hprice : 0 ≤ price.toRat) :
    GrowsFrom r₁ r₂ s (fixedPrice price) := by
  unfold GrowsFrom
  rw [apply_fixedPrice h₁, apply_fixedPrice h₂]
  refine .ok (grows_discount hbase fun hpos => ?_)
  obtain ⟨off₁, hoff₁, hfit₁⟩ := Decimal.exists_sub?_fitted hpos hprice
  obtain ⟨off₂, hoff₂, hfit₂⟩ := Decimal.exists_sub?_fitted (hpos.trans hbase) hprice
  rw [hoff₁, hoff₂]
  exact hfit₁.mono hfit₂ (sub_le_sub_right hbase _)

theorem threshold_grows (least off : Decimal) : GrowsFrom r₁ r₂ s (threshold least off) := by
  unfold GrowsFrom
  rw [apply_threshold h₁, apply_threshold h₂]
  by_cases hreached : least ≤ base₁
  · have hreached₂ : least ≤ base₂ := by
      rw [Decimal.le_iff_toRat_le] at hreached ⊢
      exact hreached.trans hbase
    rw [if_pos hreached, if_pos hreached₂]
    exact .ok (grows_discount hbase fun _ => le_rfl)
  · rw [if_neg hreached]
    split
    · exact .ok (.of_none (discount_worth_nonneg off base₂))
    · exact .ok (.of_none (by simp))

theorem tiered_grows {tiers : List Tier} (hrise : TiersRise tiers) :
    GrowsFrom r₁ r₂ s (tiered tiers) := by
  unfold GrowsFrom
  rw [apply_tiered h₁, apply_tiered h₂]
  rcases reachedTier?_cases tiers base₁ with ⟨top₁, htop₁, hhighest₁⟩ | ⟨hnone, -⟩
  · rcases reachedTier?_cases tiers base₂ with ⟨top₂, htop₂, hhighest₂⟩ | ⟨-, hbelow⟩
    · have hthreshold := hhighest₁.mono hhighest₂ hbase
      have hoff := hrise top₁ hhighest₁.mem top₂ hhighest₂.mem
        ((Decimal.le_iff_toRat_le _ _).2 hthreshold)
      rw [htop₁, htop₂]
      exact .ok (grows_discount hbase fun _ => (Decimal.le_iff_toRat_le _ _).1 hoff)
    · exact absurd (hhighest₁.reached.trans hbase) (not_le.2 (hbelow top₁ hhighest₁.mem))
  · rw [hnone]
    cases reachedTier? tiers base₂ with
    | none => exact .ok (.of_none (by simp))
    | some top₂ => exact .ok (.of_none (discount_worth_nonneg top₂.discount base₂))

theorem single_grows (leaf : Action) (hleaf : leaf.isSingle) (hsensible : leaf.Sensible)
    (hrise : ∀ tiers, leaf = tiered tiers → TiersRise tiers) : GrowsFrom r₁ r₂ s leaf := by
  cases leaf with
  | percentage rate => exact percentage_grows h₁ h₂ hbase hsensible.1 hsensible.2
  | fixedDiscount off =>
    unfold GrowsFrom
    rw [apply_fixedDiscount h₁, apply_fixedDiscount h₂]
    exact .ok (grows_discount hbase fun _ => le_rfl)
  | fixedPrice price => exact fixedPrice_grows h₁ h₂ hbase hsensible
  | threshold least off => exact threshold_grows h₁ h₂ hbase least off
  | tiered tiers => exact tiered_grows h₁ h₂ hbase (hrise tiers rfl)
  | gift item quantity =>
    unfold GrowsFrom
    rw [apply, apply]
    exact .ok (.refl (by simp))
  | points count =>
    unfold GrowsFrom
    rw [apply, apply]
    exact .ok (.refl (by simp))
  | all actions => simp [isSingle] at hleaf
  | best actions => simp [isSingle] at hleaf

end Single

/-! ## Nested actions -/

mutual

theorem grows_of_singles (action : Action) (h : ∀ leaf ∈ action.singles, GrowsFrom r₁ r₂ s leaf) :
    GrowsFrom r₁ r₂ s action := by
  cases action with
  | all actions =>
    unfold GrowsFrom
    rw [apply, apply]
    exact (allGrow_of_singles actions h).bind fun _ _ hrewards => .ok (.multiple hrewards)
  | best actions =>
    unfold GrowsFrom
    rw [apply, apply]
    refine (bestGrows_of_singles actions h .none).bind fun _ _ hbest => .ok ?_
    cases hbest with
    | none => exact .of_none (by simp)
    | some htop => exact htop
  | _ => exact h _ (List.mem_singleton_self _)

theorem allGrow_of_singles (actions : List Action)
    (h : ∀ leaf ∈ singlesAll actions, GrowsFrom r₁ r₂ s leaf) :
    BothOk (List.Forall₂ Reward.Grows) (applyAll r₁ s actions) (applyAll r₂ s actions) := by
  cases actions with
  | nil =>
    rw [applyAll, applyAll]
    exact .ok .nil
  | cons action actions =>
    rw [singlesAll, List.forall_mem_append] at h
    rw [applyAll, applyAll]
    refine (grows_of_singles action h.1).bind fun _ _ hreward => ?_
    exact (allGrow_of_singles actions h.2).bind fun _ _ hrewards => .ok (.cons hreward hrewards)

theorem bestGrows_of_singles (actions : List Action)
    (h : ∀ leaf ∈ singlesAll actions, GrowsFrom r₁ r₂ s leaf) {best₁ best₂ : Option Reward}
    (hbest : Option.Rel Reward.Grows best₁ best₂) :
    BothOk (Option.Rel Reward.Grows) (applyBest r₁ s best₁ actions)
      (applyBest r₂ s best₂ actions) := by
  cases actions with
  | nil =>
    rw [applyBest, applyBest]
    exact .ok hbest
  | cons action actions =>
    rw [singlesAll, List.forall_mem_append] at h
    rw [applyBest, applyBest]
    refine (grows_of_singles action h.1).bind fun _ _ hreward => ?_
    exact bestGrows_of_singles actions h.2 (.some (.better hbest hreward))

end

/-- A valid action whose tiers rise succeeds under both amounts, and under the larger one its reward
is worth no less. -/
theorem worth_mono (s : Settings) (r₁ r₂ : Resolver) (base₁ base₂ : Decimal)
    (h₁ : r₁.value? s.amountField = some (.number base₁))
    (h₂ : r₂.value? s.amountField = some (.number base₂)) (hbase : base₁ ≤ base₂)
    (action : Action) (hcheck : action.check = .ok ())
    (hrise : ∀ tiers, tiered tiers ∈ action.singles → TiersRise tiers) :
    ∃ reward₁ reward₂, action.apply r₁ s = .ok reward₁ ∧ action.apply r₂ s = .ok reward₂ ∧
      reward₁.worth ≤ reward₂.worth := by
  have hgrows : GrowsFrom r₁ r₂ s action := by
    refine grows_of_singles action fun leaf hmem => ?_
    refine single_grows (baseAmount_of_number h₁) (baseAmount_of_number h₂)
      ((Decimal.le_iff_toRat_le _ _).1 hbase) leaf (isSingle_of_mem_singles action leaf hmem)
      (valid_of_check hcheck leaf hmem) ?_
    rintro tiers rfl
    exact hrise tiers hmem
  obtain ⟨reward₁, reward₂, hreward₁, hreward₂, hworth⟩ := hgrows.exists_ok
  exact ⟨reward₁, reward₂, hreward₁, hreward₂, (Decimal.le_iff_toRat_le _ _).2 hworth.le⟩

/-- In a choice between 15 percent with a tier on top and a price of 200, no less is taken off 250
than off 149.990. -/
theorem worth_mono_nested :
    let tiers : List Tier :=
      [⟨.ofCoeff 250 0 (by decide) (by decide), .ofCoeff 25 0 (by decide) (by decide)⟩,
       ⟨.ofCoeff 100 0 (by decide) (by decide), .ofCoeff 5 0 (by decide) (by decide)⟩]
    let action : Action :=
      best [all [percentage (.ofCoeff 85 2 (by decide) (by decide)), tiered tiers],
        fixedPrice (.ofCoeff 200 0 (by decide) (by decide)), gift "mug" 1]
    action.check = .ok () ∧
    ∃ reward₁ reward₂,
      action.apply (orderOf (.ofCoeff 149990 3 (by decide) (by decide))) .standard = .ok reward₁ ∧
      action.apply (orderOf (.ofCoeff 250 0 (by decide) (by decide))) .standard = .ok reward₂ ∧
      reward₁.worth ≤ reward₂.worth := by
  intro tiers action
  have hcheck : action.check = .ok () := rfl
  have hrise : ∀ tiers', tiered tiers' ∈ action.singles → TiersRise tiers' := by
    intro tiers' hmem
    obtain rfl : tiers' = tiers := by simpa [action, singles, singlesAll] using hmem
    unfold TiersRise
    decide
  exact ⟨hcheck, worth_mono .standard _ _ _ _ rfl rfl (by decide) action hcheck hrise⟩

end Promotions.Action
