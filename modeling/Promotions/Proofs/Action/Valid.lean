import Promotions.Action.Check
import Promotions.Proofs.Action.Single
import Promotions.Proofs.Decimal.Exact
import Promotions.Proofs.Fallible

/-!
# Valid actions

An action passes its check exactly if every single action in it makes sense as a matter of
numbers, and no rate is a zero with a minus sign.
-/

namespace Promotions

namespace Action

/-! ## Checks one after the other -/

theorem check_then_iff (x y : Except Fault Unit) :
    (do x; y) = .ok () ↔ x = .ok () ∧ y = .ok () := by
  rw [bind_eq_ok_iff]
  constructor
  · rintro ⟨⟨⟩, hx, hy⟩
    exact ⟨hx, hy⟩
  · rintro ⟨hx, hy⟩
    exact ⟨(), hx, hy⟩

theorem checkSign_eq_ok_iff (what : Quantity) (value : Decimal) :
    checkSign what value = .ok () ↔ 0 ≤ value.toRat := by
  unfold checkSign
  by_cases h : value.isNegative
  · rw [if_pos h]
    rw [Decimal.isNegative_iff] at h
    simpa using h
  · rw [if_neg h]
    rw [Decimal.isNegative_iff, not_lt] at h
    simpa using h

theorem checkTiers_eq_ok_iff (tiers : List Tier) :
    tiers.forM checkTier = .ok () ↔
      ∀ tier ∈ tiers, 0 ≤ tier.threshold.toRat ∧ 0 ≤ tier.discount.toRat := by
  rw [forM_eq_ok_iff]
  refine forall₂_congr fun tier _ => ?_
  unfold checkTier
  rw [check_then_iff, checkSign_eq_ok_iff, checkSign_eq_ok_iff]

theorem repeatedThreshold?_eq_none_iff (seen : List Decimal) (tiers : List Tier) :
    repeatedThreshold? seen tiers = none ↔
      (tiers.map (·.threshold.toRat)).Nodup ∧
        ∀ tier ∈ tiers, ∀ least ∈ seen, least.toRat ≠ tier.threshold.toRat := by
  induction tiers generalizing seen with
  | nil => simp [repeatedThreshold?]
  | cons tier tiers ih =>
    have hseen : seen.any (·.same tier.threshold) ↔
        ∃ least ∈ seen, least.toRat = tier.threshold.toRat := by
      simp [Decimal.same_iff]
    unfold repeatedThreshold?
    by_cases h : ∃ least ∈ seen, least.toRat = tier.threshold.toRat
    · rw [if_pos (hseen.2 h)]
      obtain ⟨least, hleast, heq⟩ := h
      simp only [reduceCtorEq, false_iff, not_and]
      intro _ hall
      exact hall tier List.mem_cons_self least hleast heq
    · rw [if_neg (mt hseen.1 h), ih]
      push Not at h
      simp only [List.map_cons, List.nodup_cons, List.mem_map, List.forall_mem_cons]
      constructor
      · rintro ⟨hnodup, hall⟩
        refine ⟨⟨?_, hnodup⟩, h, fun t ht => (hall t ht).2⟩
        rintro ⟨t, ht, heq⟩
        exact (hall t ht).1 heq.symm
      · rintro ⟨⟨hfresh, hnodup⟩, -, hall⟩
        exact ⟨hnodup, fun t ht => ⟨fun heq => hfresh ⟨t, ht, heq.symm⟩, hall t ht⟩⟩

/-! ## Single actions -/

/-- The numbers of a single action make sense. -/
def Sensible : Action → Prop
  | percentage rate => 0 ≤ rate.toRat ∧ rate.toRat ≤ 1
  | fixedDiscount amount => 0 ≤ amount.toRat
  | fixedPrice price => 0 ≤ price.toRat
  | threshold least off => 0 ≤ least.toRat ∧ 0 ≤ off.toRat
  | tiered tiers =>
    tiers ≠ [] ∧ (∀ tier ∈ tiers, 0 ≤ tier.threshold.toRat ∧ 0 ≤ tier.discount.toRat) ∧
      (tiers.map (·.threshold.toRat)).Nodup
  | gift item quantity => item ≠ "" ∧ 0 < quantity
  | points _ | all _ | best _ => True

/-- Every single action makes sense, at whatever depth it stands. -/
def Valid (action : Action) : Prop := ∀ leaf ∈ action.singles, leaf.Sensible

/-- The rate of a percentage is not a zero with a minus sign. -/
def RateUnsigned : Action → Prop
  | percentage rate => rate.minusZero = false
  | _ => True

theorem check_percentage_iff (rate : Decimal) :
    (percentage rate).check = .ok () ↔
      (0 ≤ rate.toRat ∧ rate.toRat ≤ 1) ∧ rate.minusZero = false := by
  rw [check]
  by_cases h : rate.isNegative ∨ rate.minusZero ∨ (1 : Decimal) < rate
  · rw [if_pos h]
    rw [Decimal.isNegative_iff, Decimal.lt_iff_toRat_lt, Decimal.toRat_one] at h
    simp only [reduceCtorEq, false_iff, not_and, Bool.not_eq_false]
    rintro ⟨hnonneg, hle⟩
    rcases h with h | h | h
    · exact absurd h (not_lt.2 hnonneg)
    · exact h
    · exact absurd h (not_lt.2 hle)
  · rw [if_neg h]
    rw [Decimal.isNegative_iff, Decimal.lt_iff_toRat_lt, Decimal.toRat_one] at h
    push Not at h
    simpa [and_assoc, and_comm, and_left_comm] using h

theorem check_tiered_iff (tiers : List Tier) :
    (tiered tiers).check = .ok () ↔ (tiered tiers).Sensible := by
  unfold Sensible
  rw [check]
  cases tiers with
  | nil => simp [bind, Except.bind, throw, throwThe, MonadExceptOf.throw]
  | cons tier tiers =>
    simp only [List.isEmpty_cons, Bool.false_eq_true, if_false, ne_eq, reduceCtorEq,
      not_false_eq_true, true_and]
    rw [check_then_iff, checkTiers_eq_ok_iff]
    apply and_congr_right'
    have hnone := repeatedThreshold?_eq_none_iff [] (tier :: tiers)
    simp only [List.not_mem_nil, false_imp_iff, implies_true, and_true] at hnone
    rw [← hnone]
    cases repeatedThreshold? [] (tier :: tiers) with
    | none => simp [pure, Except.pure]
    | some least => simp [throw, throwThe, MonadExceptOf.throw]

theorem check_gift_iff (item : String) (quantity : UInt32) :
    (gift item quantity).check = .ok () ↔ item ≠ "" ∧ 0 < quantity := by
  rw [check]
  by_cases hitem : item = ""
  · simp [hitem]
  · by_cases hquantity : quantity = 0
    · simp [hitem, hquantity]
    · simp [hitem, hquantity, UInt32.pos_iff_ne_zero]

theorem check_single_iff (leaf : Action) (h : leaf.isSingle) :
    leaf.check = .ok () ↔ leaf.Sensible ∧ leaf.RateUnsigned := by
  cases leaf with
  | percentage rate => exact check_percentage_iff rate
  | fixedDiscount amount =>
    rw [check, checkSign_eq_ok_iff]
    exact (and_iff_left trivial).symm
  | fixedPrice price =>
    rw [check, checkSign_eq_ok_iff]
    exact (and_iff_left trivial).symm
  | threshold least off =>
    rw [check, check_then_iff, checkSign_eq_ok_iff, checkSign_eq_ok_iff]
    exact (and_iff_left trivial).symm
  | tiered tiers =>
    rw [check_tiered_iff]
    exact (and_iff_left trivial).symm
  | gift item quantity =>
    rw [check_gift_iff]
    exact (and_iff_left trivial).symm
  | points count => simp [check, Sensible, RateUnsigned]
  | all actions => simp [isSingle] at h
  | best actions => simp [isSingle] at h

/-! ## Nested actions -/

mutual

theorem check_eq_forM (action : Action) : action.check = action.singles.forM check := by
  cases action with
  | all actions =>
    rw [check, singles]
    exact checkAll_eq_forM actions
  | best actions =>
    rw [check, singles]
    exact checkAll_eq_forM actions
  | _ =>
    simp only [singles, List.forM_eq_forM, List.forM_cons, List.forM_nil]
    exact (bind_pure _).symm

theorem checkAll_eq_forM (actions : List Action) :
    checkAll actions = (singlesAll actions).forM check := by
  cases actions with
  | nil => rw [checkAll, singlesAll]; rfl
  | cons action actions =>
    rw [checkAll, singlesAll, check_eq_forM action, checkAll_eq_forM actions]
    simp only [List.forM_eq_forM, List.forM_append]

end

theorem check_iff_singles (action : Action) :
    action.check = .ok () ↔ ∀ leaf ∈ action.singles, leaf.check = .ok () := by
  rw [check_eq_forM, forM_eq_ok_iff]

theorem check_eq_ok_iff (action : Action) :
    action.check = .ok () ↔ action.Valid ∧ ∀ leaf ∈ action.singles, leaf.RateUnsigned := by
  unfold Valid
  rw [check_iff_singles, ← forall₂_and]
  apply forall₂_congr
  intro leaf hmem
  exact check_single_iff leaf (isSingle_of_mem_singles action leaf hmem)

theorem valid_of_check {action : Action} (h : action.check = .ok ()) : action.Valid :=
  ((check_eq_ok_iff action).1 h).1

theorem Valid.exists_one_sub {action : Action} (h : action.Valid) {rate : Decimal}
    (hmem : percentage rate ∈ action.singles) :
    ∃ share, (1 : Decimal).sub? rate = some share ∧ share.toRat = 1 - rate.toRat := by
  obtain ⟨hnonneg, hle⟩ := h _ hmem
  exact Decimal.exists_one_sub?_eq rate hnonneg hle

end Action

end Promotions
