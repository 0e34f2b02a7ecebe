import Promotions.Action.Basic
import Promotions.Decimal.Text

/-!
# Checking an action

A rule is accepted only with an action that makes sense: rates between zero and one, no negative
money, tiers that differ, gifts that are something. The first fault is reported.
-/

namespace Promotions

namespace Action

/-- A number of an action that must not be negative. -/
inductive Quantity where
  | discountAmount
  | fixedPrice
  | threshold
  | thresholdDiscount
  | tierThreshold
  | tierDiscount
deriving DecidableEq

def Quantity.name : Quantity → String
  | discountAmount => "discount amount"
  | fixedPrice => "fixed price"
  | threshold => "threshold"
  | thresholdDiscount => "threshold discount"
  | tierThreshold => "tier threshold"
  | tierDiscount => "tier discount"

inductive Fault where
  | rateOutside (rate : Decimal)
  | negative (what : Quantity) (value : Decimal)
  | noTiers
  | repeatedThreshold (least : Decimal)
  | noItem
  | noQuantity (item : String)
deriving DecidableEq

def Fault.message : Fault → String
  | rateOutside rate => s!"percentage rate {rate.render} is outside 0..=1"
  | negative what value => s!"{what.name} {value.render} is negative"
  | noTiers => "tiered discount has no tiers"
  | repeatedThreshold least => s!"duplicate tier threshold {least.render}"
  | noItem => "gift item is empty"
  | noQuantity item => s!"gift '{item}' has zero quantity"

def checkSign (what : Quantity) (value : Decimal) : Except Fault Unit :=
  if value.isNegative then .error (.negative what value) else .ok ()

def checkTier (tier : Tier) : Except Fault Unit := do
  checkSign .tierThreshold tier.threshold
  checkSign .tierDiscount tier.discount

/-- The first threshold that equals one in `seen` or one before it, by value. -/
def repeatedThreshold? (seen : List Decimal) : List Tier → Option Decimal
  | [] => none
  | tier :: tiers =>
    if seen.any (·.same tier.threshold) then some tier.threshold
    else repeatedThreshold? (tier.threshold :: seen) tiers

mutual

def check : Action → Except Fault Unit
  | percentage rate =>
    if rate.isNegative ∨ rate.minusZero ∨ (1 : Decimal) < rate then .error (.rateOutside rate)
    else .ok ()
  | fixedDiscount amount => checkSign .discountAmount amount
  | fixedPrice price => checkSign .fixedPrice price
  | threshold least off => do
    checkSign .threshold least
    checkSign .thresholdDiscount off
  | tiered tiers => do
    if tiers.isEmpty then throw .noTiers
    tiers.forM checkTier
    match repeatedThreshold? [] tiers with
    | some least => throw (.repeatedThreshold least)
    | none => return
  | gift item quantity =>
    if item.isEmpty then .error .noItem
    else if quantity = 0 then .error (.noQuantity item)
    else .ok ()
  | points _ => .ok ()
  | all actions | best actions => checkAll actions

def checkAll : List Action → Except Fault Unit
  | [] => .ok ()
  | action :: actions => do
    check action
    checkAll actions

end

end Action

end Promotions
