import Promotions.Action.Basic
import Promotions.Resolver
import Promotions.Reward.Basic
import Promotions.Settings.Basic

/-!
# Applying an action

A discount is brought between zero and the amount first and rounded after that. Gifts and points ask
for no amount. All other single actions do, and fail without one, and a failing
action fails the actions around it.
-/

namespace Promotions

inductive ActionError where
  | amount (cause : EvalError)
  /-- One less the rate of a percentage finds no room in a decimal. -/
  | rateOverflow
deriving DecidableEq

def ActionError.message : ActionError → String
  | amount cause => s!"cannot read base amount: {cause.message}"
  | rateOverflow => "the rate is out of range"

namespace Action

/-! ## Amounts -/

def baseAmount (r : Resolver) (s : Settings) : Except ActionError Decimal :=
  match r.value? s.amountField with
  | some (.number base) => .ok base
  | some v => .error (.amount (.typeMismatch s.amountField [.number] v.kind))
  | none => .error (.amount (.unknownVariable s.amountField))

def discount (s : Settings) (amount base : Decimal) : Reward :=
  .discount ((max (min amount base) 0).round s.places)

/-- Of the tiers that `base` reaches the one with the highest threshold, the last one of equals. -/
def reachedTier? (tiers : List Tier) (base : Decimal) : Option Tier :=
  (tiers.filter (·.threshold ≤ base)).foldl
    (fun reached tier =>
      match reached with
      | some top => if tier.threshold < top.threshold then some top else some tier
      | none => some tier)
    none

/-! ## Rewards -/

mutual

def apply (r : Resolver) (s : Settings) : Action → Except ActionError Reward
  | percentage rate => do
    let base ← baseAmount r s
    match (1 : Decimal).sub? rate with
    | some share => return discount s ((base.mul? share).getD 0) base
    | none => throw .rateOverflow
  | fixedDiscount amount => do
    let base ← baseAmount r s
    return discount s amount base
  | fixedPrice price => do
    let base ← baseAmount r s
    return discount s ((base.sub? price).getD 0) base
  | threshold least off => do
    let base ← baseAmount r s
    return if least ≤ base then discount s off base else .none
  | tiered tiers => do
    let base ← baseAmount r s
    match reachedTier? tiers base with
    | some tier => return discount s tier.discount base
    | none => return .none
  | gift item quantity => return .gift item quantity
  | points count => return .points count
  | all actions => return .multiple (← applyAll r s actions)
  | best actions => return (← applyBest r s .none actions).getD .none

def applyAll (r : Resolver) (s : Settings) : List Action → Except ActionError (List Reward)
  | [] => return []
  | action :: actions => do
    let reward ← apply r s action
    let rewards ← applyAll r s actions
    return reward :: rewards

def applyBest (r : Resolver) (s : Settings) (best : Option Reward) :
    List Action → Except ActionError (Option Reward)
  | [] => return best
  | action :: actions => do
    let reward ← apply r s action
    applyBest r s (some (Reward.better best reward)) actions

end

end Action

end Promotions
