import Promotions.Proofs.Action.Discounts
import Promotions.Proofs.RuleBook.Evaluation

/-!
# The best of an evaluation

The best reward of an evaluation and the best discount are two searches through the same results.
They agree, for all that one keeps the first of equals and the other the last, and neither goes
below zero, since no action gives a reward that is worth less than nothing.
-/

namespace Promotions.RuleBook

variable {book : RuleBook} {r : Resolver} {now : Instant}

theorem worth_nonneg_of_mem_evaluate {reward : Reward} (h : reward ∈ book.evaluate r now) :
    0 ≤ reward.worth.toRat := by
  obtain ⟨rule, -, happly⟩ := exists_rule_of_mem_evaluate h
  exact Action.worth_nonneg_of_apply happly

/-- The best reward of an evaluation is the first result that none is worth more than, if there are
results at all. The best discount is worth the same, or zero without results, and is never below
zero. -/
theorem bestDiscount_eq_worth_best (book : RuleBook) (r : Resolver) (now : Instant) :
    let results := book.evaluate r now
    (book.bestReward? r now = none ↔ results = []) ∧
    (∀ top, book.bestReward? r now = some top ↔ ∃ i, Reward.FirstBest results i top) ∧
    (book.bestDiscount r now).toRat =
      ((book.bestReward? r now).map (·.worth.toRat)).getD 0 ∧
    0 ≤ book.bestDiscount r now := by
  intro results
  have hworth : (book.bestDiscount r now).toRat =
      ((Reward.best? results).map (·.worth.toRat)).getD 0 := Reward.toRat_bestWorth results
  refine ⟨Reward.best?_eq_none_iff results, Reward.best?_eq_some_iff results, hworth, ?_⟩
  rw [Decimal.le_iff_toRat_le, Decimal.toRat_zero, hworth]
  cases hbest : Reward.best? results with
  | none => exact le_rfl
  | some top =>
    obtain ⟨i, hfirst⟩ := (Reward.best?_eq_some_iff results top).1 hbest
    exact worth_nonneg_of_mem_evaluate hfirst.mem

end Promotions.RuleBook
