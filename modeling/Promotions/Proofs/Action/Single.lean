import Promotions.Action.Apply
import Promotions.Proofs.Fallible

/-!
# Single actions

An action is a tree whose leaves are single actions. What each of them gives is said here in one
equation, for an amount that has been read.
-/

namespace Promotions.Action

/-! ## Leaves -/

def isSingle : Action → Bool
  | all _ | best _ => false
  | _ => true

mutual

/-- The single actions in an action, at any depth. -/
def singles : Action → List Action
  | all actions => singlesAll actions
  | best actions => singlesAll actions
  | percentage rate => [percentage rate]
  | fixedDiscount amount => [fixedDiscount amount]
  | fixedPrice price => [fixedPrice price]
  | threshold least off => [threshold least off]
  | tiered tiers => [tiered tiers]
  | gift item quantity => [gift item quantity]
  | points count => [points count]

def singlesAll : List Action → List Action
  | [] => []
  | action :: actions => singles action ++ singlesAll actions

end

mutual

theorem isSingle_of_mem_singles (action leaf : Action) (h : leaf ∈ action.singles) :
    leaf.isSingle := by
  cases action with
  | all actions => exact isSingle_of_mem_singlesAll actions leaf h
  | best actions => exact isSingle_of_mem_singlesAll actions leaf h
  | _ =>
    rw [singles, List.mem_singleton] at h
    subst h
    rfl

theorem isSingle_of_mem_singlesAll (actions : List Action) (leaf : Action)
    (h : leaf ∈ singlesAll actions) : leaf.isSingle := by
  cases actions with
  | nil => simp [singlesAll] at h
  | cons action actions =>
    rw [singlesAll, List.mem_append] at h
    rcases h with h | h
    · exact isSingle_of_mem_singles action leaf h
    · exact isSingle_of_mem_singlesAll actions leaf h

end

/-! ## What they give -/

variable {r : Resolver} {s : Settings} {base : Decimal}

theorem baseAmount_of_number (h : r.value? s.amountField = some (.number base)) :
    baseAmount r s = .ok base := by
  unfold baseAmount
  rw [h]

theorem apply_percentage (h : baseAmount r s = .ok base) (rate : Decimal) :
    (percentage rate).apply r s =
      match (1 : Decimal).sub? rate with
      | some share => .ok (discount s ((base.mul? share).getD 0) base)
      | none => .error .rateOverflow := by
  unfold apply
  rw [h]
  rfl

theorem apply_fixedDiscount (h : baseAmount r s = .ok base) (off : Decimal) :
    (fixedDiscount off).apply r s = .ok (discount s off base) := by
  unfold apply
  rw [h]
  rfl

theorem apply_fixedPrice (h : baseAmount r s = .ok base) (price : Decimal) :
    (fixedPrice price).apply r s = .ok (discount s ((base.sub? price).getD 0) base) := by
  unfold apply
  rw [h]
  rfl

theorem apply_threshold (h : baseAmount r s = .ok base) (least off : Decimal) :
    (threshold least off).apply r s =
      .ok (if least ≤ base then discount s off base else .none) := by
  unfold apply
  rw [h]
  rfl

theorem apply_tiered (h : baseAmount r s = .ok base) (tiers : List Tier) :
    (tiered tiers).apply r s =
      match reachedTier? tiers base with
      | some tier => .ok (discount s tier.discount base)
      | none => .ok .none := by
  unfold apply
  rw [h]
  rfl

/-! ## What they can give -/

/-- What single actions give: some sum off an amount, clamped to the amount and rounded, or no
discount. -/
inductive Gives (r : Resolver) (s : Settings) : Reward → Prop
  | clamped {base : Decimal} (hbase : baseAmount r s = .ok base) (off : Decimal) :
    Gives r s (discount s off base)
  | none : Gives r s .none
  | gift (item : String) (quantity : UInt32) : Gives r s (.gift item quantity)
  | points (count : UInt64) : Gives r s (.points count)

theorem gives_of_apply (leaf : Action) (hleaf : leaf.isSingle) {reward : Reward}
    (h : leaf.apply r s = .ok reward) : Gives r s reward := by
  cases leaf with
  | percentage rate =>
    rw [apply, bind_eq_ok_iff] at h
    obtain ⟨base, hbase, h⟩ := h
    split at h
    · rw [← Except.ok.inj h]
      exact .clamped hbase _
    · exact nomatch h
  | fixedDiscount off =>
    rw [apply, bind_eq_ok_iff] at h
    obtain ⟨base, hbase, h⟩ := h
    rw [← Except.ok.inj h]
    exact .clamped hbase off
  | fixedPrice price =>
    rw [apply, bind_eq_ok_iff] at h
    obtain ⟨base, hbase, h⟩ := h
    rw [← Except.ok.inj h]
    exact .clamped hbase _
  | threshold least off =>
    rw [apply, bind_eq_ok_iff] at h
    obtain ⟨base, hbase, h⟩ := h
    rw [← Except.ok.inj h]
    split
    · exact .clamped hbase off
    · exact .none
  | tiered tiers =>
    rw [apply, bind_eq_ok_iff] at h
    obtain ⟨base, hbase, h⟩ := h
    split at h
    · rw [← Except.ok.inj h]
      exact .clamped hbase _
    · rw [← Except.ok.inj h]
      exact .none
  | gift item quantity =>
    rw [apply] at h
    rw [← Except.ok.inj h]
    exact .gift item quantity
  | points count =>
    rw [apply] at h
    rw [← Except.ok.inj h]
    exact .points count
  | all actions => simp [isSingle] at hleaf
  | best actions => simp [isSingle] at hleaf

theorem Gives.exists_clamped {amount : Decimal} (h : Gives r s (.discount amount)) :
    ∃ base off, baseAmount r s = .ok base ∧ .discount amount = discount s off base := by
  generalize hreward : Reward.discount amount = reward at h
  cases h with
  | clamped hbase off => exact ⟨_, off, hbase, rfl⟩
  | _ => simp at hreward

end Promotions.Action
