import Promotions.Action.Apply
import Promotions.Expr.Evaluate
import Promotions.Rule.Basic

/-!
# What becomes of a rule

A rule is left out if it is disabled, outside its window, or exclusive when an exclusive rule has
matched before. Otherwise its condition decides, and then its action gives the reward. An error
stays with the rule that made it.
-/

namespace Promotions

inductive Outcome where
  | matched (reward : Reward)
  | notMatched
  | skipped (reason : Rule.SkipReason)
  | conditionFailed (e : EvalError)
  | actionFailed (e : ActionError)
deriving Inhabited

namespace Outcome

def isMatch : Outcome → Bool
  | matched _ => true
  | _ => false

def isError : Outcome → Bool
  | conditionFailed _ | actionFailed _ => true
  | _ => false

def reward? : Outcome → Option Reward
  | matched reward => some reward
  | _ => none

end Outcome

namespace Rule

/-- Why the rule is left out at `now`, given whether an exclusive rule has matched before. -/
def skipped? (rule : Rule) (now : Instant) (taken : Bool) : Option SkipReason :=
  if !rule.enabled then some .disabled
  else (rule.outsideWindow? now).or (if taken && rule.exclusive then some .excluded else none)

def fire (r : Resolver) (s : Settings) (rule : Rule) : Outcome :=
  match rule.expr.holds r with
  | .error e => .conditionFailed e
  | .ok false => .notMatched
  | .ok true =>
    match rule.action.apply r s with
    | .error e => .actionFailed e
    | .ok reward => .matched reward

def outcome (r : Resolver) (s : Settings) (now : Instant) (taken : Bool) (rule : Rule) : Outcome :=
  match rule.skipped? now taken with
  | some reason => .skipped reason
  | none => rule.fire r s

def outcomes (r : Resolver) (s : Settings) (now : Instant) (taken : Bool) : List Rule → List Outcome
  | [] => []
  | rule :: rules =>
    let o := rule.outcome r s now taken
    o :: outcomes r s now (taken || rule.exclusive && o.isMatch) rules

end Rule

end Promotions
