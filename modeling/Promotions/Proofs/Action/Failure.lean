import Promotions.Proofs.Action.Single
import Promotions.Proofs.Fallible

/-!
# Why an action fails

An action fails with the error of one of its single actions. A single action fails because the
amount cannot be read, or because one less its rate has no room in a decimal.
-/

namespace Promotions.Action

variable {r : Resolver} {s : Settings} {e : ActionError}

theorem exists_amount_of_baseAmount (h : baseAmount r s = .error e) :
    ∃ cause, e = .amount cause := by
  unfold baseAmount at h
  split at h
  · simp at h
  · exact ⟨_, (Except.error.inj h).symm⟩
  · exact ⟨_, (Except.error.inj h).symm⟩

/-! ## Single actions -/

theorem error_of_baseAmount {cause : ActionError} (hbase : baseAmount r s = .error cause)
    (leaf : Action) (hleaf : leaf.isSingle) (h : leaf.apply r s = .error e) : e = cause := by
  cases leaf with
  | gift item quantity => simp [apply] at h
  | points count => simp [apply] at h
  | all actions => simp [isSingle] at hleaf
  | best actions => simp [isSingle] at hleaf
  | _ =>
    rw [apply, hbase, error_bind] at h
    exact (Except.error.inj h).symm

theorem rate_of_error {base : Decimal} (hbase : baseAmount r s = .ok base) (leaf : Action)
    (hleaf : leaf.isSingle) (h : leaf.apply r s = .error e) :
    ∃ rate, leaf = percentage rate ∧ (1 : Decimal).sub? rate = none := by
  cases leaf with
  | percentage rate =>
    rw [apply_percentage hbase] at h
    split at h
    · simp at h
    · exact ⟨rate, rfl, ‹_›⟩
  | fixedDiscount off => simp [apply_fixedDiscount hbase] at h
  | fixedPrice price => simp [apply_fixedPrice hbase] at h
  | threshold least off => simp [apply_threshold hbase] at h
  | tiered tiers =>
    rw [apply_tiered hbase] at h
    split at h <;> simp at h
  | gift item quantity => simp [apply] at h
  | points count => simp [apply] at h
  | all actions => simp [isSingle] at hleaf
  | best actions => simp [isSingle] at hleaf

theorem baseAmount_of_error (leaf : Action) (hleaf : leaf.isSingle)
    (hrate : ∀ rate, leaf = percentage rate → (1 : Decimal).sub? rate ≠ none)
    (h : leaf.apply r s = .error e) : baseAmount r s = .error e := by
  cases hbase : baseAmount r s with
  | error cause => rw [error_of_baseAmount hbase leaf hleaf h]
  | ok base =>
    obtain ⟨rate, hpercentage, hnone⟩ := rate_of_error hbase leaf hleaf h
    exact absurd hnone (hrate rate hpercentage)

/-! ## Nested actions -/

mutual

theorem exists_single_error (action : Action) (h : action.apply r s = .error e) :
    ∃ leaf ∈ action.singles, leaf.apply r s = .error e := by
  cases action with
  | all actions =>
    rw [apply, bind_eq_error_iff] at h
    rcases h with h | ⟨rewards, -, h⟩
    · exact exists_single_error_all actions h
    · simp at h
  | best actions =>
    rw [apply, bind_eq_error_iff] at h
    rcases h with h | ⟨reward, -, h⟩
    · exact exists_single_error_best actions .none h
    · simp at h
  | _ => exact ⟨_, by simp [singles], h⟩

theorem exists_single_error_all (actions : List Action) (h : applyAll r s actions = .error e) :
    ∃ leaf ∈ singlesAll actions, leaf.apply r s = .error e := by
  cases actions with
  | nil => simp [applyAll] at h
  | cons action actions =>
    rw [applyAll, bind_eq_error_iff] at h
    simp only [singlesAll, List.mem_append]
    rcases h with h | ⟨reward, -, h⟩
    · obtain ⟨leaf, hleaf, herror⟩ := exists_single_error action h
      exact ⟨leaf, .inl hleaf, herror⟩
    · rw [bind_eq_error_iff] at h
      rcases h with h | ⟨rewards, -, h⟩
      · obtain ⟨leaf, hleaf, herror⟩ := exists_single_error_all actions h
        exact ⟨leaf, .inr hleaf, herror⟩
      · simp at h

theorem exists_single_error_best (actions : List Action) (top : Option Reward)
    (h : applyBest r s top actions = .error e) :
    ∃ leaf ∈ singlesAll actions, leaf.apply r s = .error e := by
  cases actions with
  | nil => simp [applyBest] at h
  | cons action actions =>
    rw [applyBest, bind_eq_error_iff] at h
    simp only [singlesAll, List.mem_append]
    rcases h with h | ⟨reward, -, h⟩
    · obtain ⟨leaf, hleaf, herror⟩ := exists_single_error action h
      exact ⟨leaf, .inl hleaf, herror⟩
    · obtain ⟨leaf, hleaf, herror⟩ := exists_single_error_best actions _ h
      exact ⟨leaf, .inr hleaf, herror⟩

end

theorem exists_amount_of_apply (action : Action)
    (hrates : ∀ rate, percentage rate ∈ action.singles → (1 : Decimal).sub? rate ≠ none)
    (h : action.apply r s = .error e) : ∃ cause, e = .amount cause := by
  obtain ⟨leaf, hmem, herror⟩ := exists_single_error action h
  apply exists_amount_of_baseAmount
  refine baseAmount_of_error leaf (isSingle_of_mem_singles action leaf hmem) ?_ herror
  rintro rate rfl
  exact hrates rate hmem

end Promotions.Action
