import Promotions.Proofs.Action.Bound
import Promotions.Proofs.Action.Tiers
import Promotions.Proofs.Action.Valid
import Promotions.Proofs.Decimal.Fitted

/-!
# What a discount comes to

Every discount is some number taken off an amount, brought between zero and the amount and rounded.
`TakesOff` says which number, in exact arithmetic. Decimals get that number whenever one of them
stands for it.
-/

namespace Promotions

namespace Action

/-- What a single action takes off `base` before the clamp. A threshold or a tier that `base` does
not reach takes nothing off. -/
inductive TakesOff (base : ℚ) : Action → ℚ → Prop
  | percentage (rate : Decimal) : TakesOff base (percentage rate) (base * (1 - rate.toRat))
  | fixedDiscount (off : Decimal) : TakesOff base (fixedDiscount off) off.toRat
  | fixedPrice (price : Decimal) : TakesOff base (fixedPrice price) (base - price.toRat)
  | threshold {least : Decimal} (off : Decimal) (reached : least.toRat ≤ base) :
    TakesOff base (threshold least off) off.toRat
  | tiered {tiers : List Tier} {top : Tier} (h : Highest tiers base top) :
    TakesOff base (tiered tiers) top.discount.toRat

variable {r : Resolver} {s : Settings} {base : Decimal}

theorem exists_discount (off base : Decimal) :
    ∃ amount, discount s off base = .discount amount ∧
      amount.RoundedTo s.places (max 0 (min off.toRat base.toRat)) := by
  have hrounded := Decimal.roundedTo_round (max (min off base) 0) s.places
  rw [Decimal.toRat_max, Decimal.toRat_min, Decimal.toRat_zero, max_comm] at hrounded
  exact ⟨_, rfl, hrounded⟩

theorem exists_apply_eq_discount (hbase : baseAmount r s = .ok base) {leaf : Action}
    (hleaf : leaf.Sensible) {x : ℚ} (hx : TakesOff base.toRat leaf x)
    (hdecimal : ∃ d : Decimal, d.toRat = x) :
    ∃ off, leaf.apply r s = .ok (discount s off base) ∧ off.toRat = x := by
  obtain ⟨d, hd⟩ := hdecimal
  cases hx with
  | percentage rate =>
    obtain ⟨share, hshare, hexact⟩ := Decimal.exists_one_sub?_eq rate hleaf.1 hleaf.2
    rw [← hexact] at hd ⊢
    obtain ⟨off, hoff, hvalue⟩ := (hd ▸ Decimal.fitsTo_mul? base share).exists_exact
    refine ⟨off, ?_, hvalue.trans hd⟩
    simp only [apply_percentage hbase, hshare, hoff, Option.getD_some]
  | fixedDiscount off => exact ⟨off, apply_fixedDiscount hbase off, rfl⟩
  | fixedPrice price =>
    obtain ⟨off, hoff, hvalue⟩ := (hd ▸ Decimal.fitsTo_sub? base price).exists_exact
    refine ⟨off, ?_, hvalue.trans hd⟩
    rw [apply_fixedPrice hbase, hoff, Option.getD_some]
  | @threshold least off hreached =>
    refine ⟨off, ?_, rfl⟩
    rw [apply_threshold hbase, if_pos ((Decimal.le_iff_toRat_le _ _).2 hreached)]
  | @tiered tiers top hhighest =>
    obtain ⟨-, -, hnodup⟩ := hleaf
    refine ⟨top.discount, ?_, rfl⟩
    rw [apply_tiered hbase, reachedTier?_of_highest hnodup hhighest]

theorem apply_threshold_eq_none_iff (hbase : baseAmount r s = .ok base) (least off : Decimal) :
    (threshold least off).apply r s = .ok .none ↔ base < least := by
  rw [apply_threshold hbase, Decimal.lt_iff_toRat_lt]
  by_cases h : least ≤ base
  · rw [if_pos h]
    rw [Decimal.le_iff_toRat_le] at h
    simp [discount, h]
  · rw [if_neg h]
    rw [Decimal.le_iff_toRat_le] at h
    simpa using h

theorem apply_tiered_eq_none_iff (hbase : baseAmount r s = .ok base) (tiers : List Tier) :
    (tiered tiers).apply r s = .ok .none ↔ ∀ tier ∈ tiers, base < tier.threshold := by
  simp only [Decimal.lt_iff_toRat_lt]
  rw [apply_tiered hbase, ← reachedTier?_eq_none_iff]
  cases reachedTier? tiers base with
  | none => simp
  | some top => simp [discount]

/-- The formulas of the discounts. The number to take off is clamped to the amount and rounded, with
no other rounding where a decimal stands for it, and no discount is given exactly below the
threshold or below every tier. -/
theorem discount_formula (r : Resolver) (s : Settings) (base : Decimal) (leaf : Action)
    (hbase : r.value? s.amountField = some (.number base)) (hcheck : leaf.check = .ok ()) :
    (∀ x, TakesOff base.toRat leaf x → (∃ d : Decimal, d.toRat = x) →
      ∃ amount, leaf.apply r s = .ok (.discount amount) ∧
        amount.RoundedTo s.places (max 0 (min x base.toRat))) ∧
    (∀ least off, leaf = threshold least off →
      (leaf.apply r s = .ok .none ↔ base < least)) ∧
    (∀ tiers, leaf = tiered tiers →
      (leaf.apply r s = .ok .none ↔ ∀ tier ∈ tiers, base < tier.threshold)) := by
  have hamount := baseAmount_of_number hbase
  refine ⟨?_, ?_, ?_⟩
  · intro x hx hdecimal
    have hsensible : leaf.Sensible := by
      have hmem : leaf ∈ leaf.singles := by cases hx <;> exact List.mem_singleton_self _
      exact valid_of_check hcheck leaf hmem
    obtain ⟨off, hoff, hvalue⟩ := exists_apply_eq_discount hamount hsensible hx hdecimal
    obtain ⟨amount, hdiscount, hrounded⟩ := exists_discount (s := s) off base
    rw [hvalue] at hrounded
    exact ⟨amount, hoff.trans (congrArg _ hdiscount), hrounded⟩
  · rintro least off rfl
    exact apply_threshold_eq_none_iff hamount least off
  · rintro tiers rfl
    exact apply_tiered_eq_none_iff hamount tiers

/-- An order over `total` and nothing else. -/
def orderOf (total : Decimal) : Resolver :=
  (Context.empty.insert "order.total" (.number total)).resolver

/-- 15 percent off 19.99 is 2.9985 rounded to places. Of 25 off from 250 on and 5 off from 100 on,
249.90 reaches the latter only. -/
theorem discount_formula_sale :
    let tiers : List Tier :=
      [⟨.ofCoeff 250 0 (by decide) (by decide), .ofCoeff 25 0 (by decide) (by decide)⟩,
       ⟨.ofCoeff 100 0 (by decide) (by decide), .ofCoeff 5 0 (by decide) (by decide)⟩]
    (∃ amount, (percentage (.ofCoeff 85 2 (by decide) (by decide))).apply
        (orderOf (.ofCoeff 1999 2 (by decide) (by decide))) .standard = .ok (.discount amount) ∧
      amount.RoundedTo Settings.standard.places (max 0 (min (29985 / 10000) (1999 / 100)))) ∧
    ∃ amount, (tiered tiers).apply
        (orderOf (.ofCoeff 24990 2 (by decide) (by decide))) .standard = .ok (.discount amount) ∧
      amount.RoundedTo Settings.standard.places (max 0 (min 5 (24990 / 100))) := by
  intro tiers
  have hpercent := (discount_formula (orderOf (.ofCoeff 1999 2 (by decide) (by decide))) .standard _
    (percentage (.ofCoeff 85 2 (by decide) (by decide))) rfl rfl).1 _ (.percentage _)
    ⟨.ofCoeff 29985 4 (by decide) (by decide), by norm_num [Decimal.toRat, Decimal.ofCoeff]⟩
  have hlower : Highest tiers (24990 / 100)
      ⟨.ofCoeff 100 0 (by decide) (by decide), .ofCoeff 5 0 (by decide) (by decide)⟩ := by
    refine ⟨by simp [tiers], ?_, ?_⟩
    · norm_num [Decimal.toRat, Decimal.ofCoeff]
    · simp only [tiers, List.forall_mem_cons, List.not_mem_nil, false_imp_iff, implies_true,
        and_true]
      norm_num [Decimal.toRat, Decimal.ofCoeff]
  have htier := (discount_formula (orderOf (.ofCoeff 24990 2 (by decide) (by decide))) .standard _
    (tiered tiers) rfl rfl).1 _ (.tiered hlower) ⟨_, rfl⟩
  constructor
  · convert hpercent using 5
    norm_num [Decimal.toRat, Decimal.ofCoeff]
  · convert htier using 5
    norm_num [Decimal.toRat, Decimal.ofCoeff]

end Action

end Promotions
