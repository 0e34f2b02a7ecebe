import Promotions.Decimal.Arith

/-!
# Rewards

What a customer gets from a matched rule. `worth` is the money in it: discounts count, also those in
nested rewards, while gifts and points count nothing.
-/

namespace Promotions

inductive Reward where
  | none
  | discount (amount : Decimal)
  | gift (item : String) (quantity : UInt32)
  | points (count : UInt64)
  | multiple (rewards : List Reward)
deriving Inhabited

namespace Reward

/-! ## Worth -/

mutual

/-- The total discount. -/
def worth : Reward → Decimal
  | discount amount => amount
  | multiple rewards => addWorth 0 rewards
  | none | gift _ _ | points _ => 0

/-- Adds the worth of the rewards to `sum`, from left to right. A sum without room stays at the end
of the range. -/
def addWorth (sum : Decimal) : List Reward → Decimal
  | [] => sum
  | reward :: rewards => addWorth (sum.saturatingAdd reward.worth) rewards

end

def totalWorth (rewards : List Reward) : Decimal := addWorth 0 rewards

def isNone : Reward → Bool
  | none => true
  | _ => false

/-! ## The best of several -/

/-- The better of the best so far and the next reward. On a tie the earlier one stays. -/
def better (best : Option Reward) (next : Reward) : Reward :=
  match best with
  | some top => if top.worth < next.worth then next else top
  | .none => next

/-- The first reward that no other one is worth more than. -/
def best? (rewards : List Reward) : Option Reward :=
  rewards.foldl (fun best next => some (better best next)) .none

/-- The greatest worth, zero without rewards. Of equal ones the last gives the scale. -/
def bestWorth : List Reward → Decimal
  | [] => 0
  | reward :: rewards => rewards.foldl (fun top next => max next.worth top) reward.worth

end Reward

end Promotions
