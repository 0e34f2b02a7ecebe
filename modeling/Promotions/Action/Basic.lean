import Promotions.Decimal.Basic

/-!
# Actions

What a rule does once its condition holds.
-/

namespace Promotions

/-- A step of a tiered discount: `discount` off from `threshold` on. -/
structure Tier where
  threshold : Decimal
  discount : Decimal
deriving DecidableEq

inductive Action where
  /-- The customer pays the share `rate` of the amount. -/
  | percentage (rate : Decimal)
  | fixedDiscount (amount : Decimal)
  | fixedPrice (price : Decimal)
  /-- `discount` off if the amount reaches `threshold`. -/
  | threshold (threshold discount : Decimal)
  /-- The highest tier that the amount reaches. -/
  | tiered (tiers : List Tier)
  | gift (item : String) (quantity : UInt32)
  | points (count : UInt64)
  /-- Every action, all rewards together. -/
  | all (actions : List Action)
  /-- Every action, the best reward of them. -/
  | best (actions : List Action)
deriving Inhabited

end Promotions
