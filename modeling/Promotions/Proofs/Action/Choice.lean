import Promotions.Action.Apply
import Promotions.Proofs.Fallible
import Promotions.Proofs.Reward.Best

/-!
# Choices

A choice compares the rewards of its actions as they come in. It gives the same as a search among
the rewards of all of them once they are there, and it fails where they fail, with the same error.
-/

namespace Promotions.Action

variable {r : Resolver} {s : Settings}

theorem applyBest_eq (top : Option Reward) (actions : List Action) :
    applyBest r s top actions = do
      let rewards ← applyAll r s actions
      return rewards.foldl (fun top next => some (Reward.better top next)) top := by
  induction actions generalizing top with
  | nil =>
    rw [applyBest, applyAll]
    rfl
  | cons action actions ih =>
    rw [applyBest, applyAll]
    cases action.apply r s with
    | error e => rfl
    | ok reward =>
      -- The search has seen `reward` already when a later action fails.
      rw [ok_bind, ok_bind, ih]
      cases applyAll r s actions <;> rfl

theorem apply_best (actions : List Action) :
    (best actions).apply r s = do
      let rewards ← applyAll r s actions
      return (Reward.best? rewards).getD .none := by
  rw [apply, applyBest_eq]
  cases applyAll r s actions <;> rfl

/-- A choice agrees with all of its actions together: it fails with the error that they fail with,
and else gives the best of their rewards, or nothing if there are none. The best reward is the first
one that none is worth more than, also for a search that notes the worth of its best reward. -/
theorem choice_agrees_with_all (r : Resolver) (s : Settings) (actions : List Action) :
    ((∃ e, (all actions).apply r s = .error e ∧ (best actions).apply r s = .error e) ∨
      ∃ rewards, (all actions).apply r s = .ok (.multiple rewards) ∧
        (best actions).apply r s = .ok ((Reward.best? rewards).getD .none)) ∧
    ∀ rewards : List Reward,
      (Reward.best? rewards = none ↔ rewards = []) ∧
      (∀ top, Reward.best? rewards = some top ↔ ∃ i, Reward.FirstBest rewards i top) ∧
      (rewards.foldl Reward.noteBetter none).map Prod.snd = Reward.best? rewards := by
  constructor
  · rw [apply_best, apply]
    cases applyAll r s actions with
    | error e => exact .inl ⟨e, rfl, rfl⟩
    | ok rewards => exact .inr ⟨rewards, rfl, rfl⟩
  · intro rewards
    refine ⟨Reward.best?_eq_none_iff rewards, Reward.best?_eq_some_iff rewards, ?_⟩
    rw [Reward.foldl_noteBetter, Option.map_map]
    exact Option.map_id'

theorem apply_halves :
    (all [points 5, fixedDiscount (.ofCoeff 5 1 (by decide) (by decide)),
      percentage (.ofCoeff 50 2 (by decide) (by decide))]).apply
        (Context.empty.insert "order.total" (.number 1)).resolver .standard =
      .ok (.multiple [.points 5, .discount (.ofCoeff 5 1 (by decide) (by decide)),
        .discount (.ofCoeff 50 2 (by decide) (by decide))]) := by
  rfl

/-- Five points, and one half twice in different digits. The first half is chosen, and without an
amount the choice fails. -/
theorem choice_agrees_with_all_halves :
    let halves := [points 5, fixedDiscount (.ofCoeff 5 1 (by decide) (by decide)),
      percentage (.ofCoeff 50 2 (by decide) (by decide))]
    (best halves).apply (Context.empty.insert "order.total" (.number 1)).resolver .standard =
        .ok (.discount (.ofCoeff 5 1 (by decide) (by decide))) ∧
      (∃ i, Reward.FirstBest [.points 5, .discount (.ofCoeff 5 1 (by decide) (by decide)),
        .discount (.ofCoeff 50 2 (by decide) (by decide))] i
        (.discount (.ofCoeff 5 1 (by decide) (by decide)))) ∧
      (best halves).apply Context.empty.resolver .standard =
        .error (.amount (.unknownVariable "order.total")) := by
  intro halves
  obtain ⟨hchoice, hbest⟩ := choice_agrees_with_all
    (Context.empty.insert "order.total" (.number 1)).resolver .standard halves
  refine ⟨?_, ((hbest _).2.1 _).1 rfl, ?_⟩
  · rcases hchoice with ⟨e, herror, -⟩ | ⟨rewards, hrewards, hchosen⟩
    · exact nomatch apply_halves.symm.trans herror
    · obtain rfl := Reward.multiple.inj (Except.ok.inj (apply_halves.symm.trans hrewards))
      exact hchosen
  · have hmissing : (all halves).apply Context.empty.resolver .standard =
        .error (.amount (.unknownVariable "order.total")) := rfl
    rcases (choice_agrees_with_all Context.empty.resolver .standard halves).1 with
      ⟨e, herror, hchosen⟩ | ⟨rewards, hrewards, -⟩
    · cases hmissing.symm.trans herror
      exact hchosen
    · exact nomatch hmissing.symm.trans hrewards

end Promotions.Action
