import Promotions.Report

/-!
# Rule books

The rules of a shop, highest priority first. A book is a value: a book that is kept stays as it
was when others are made from it. The version counts the changes.
-/

namespace Promotions

structure RuleBook where
  version : Nat
  settings : Settings
  rules : List Rule

namespace RuleBook

def empty (s : Settings) : RuleBook := ⟨0, s, []⟩

def ids (book : RuleBook) : List String := book.rules.map (·.id)

def get? (book : RuleBook) (id : String) : Option Rule := book.rules.find? (·.id = id)

def contains (book : RuleBook) (id : String) : Bool := (book.get? id).isSome

def render (book : RuleBook) : String :=
  let enabled := (book.rules.filter (·.enabled)).length
  s!"RuleSet(v{book.version}, {book.rules.length} rules, {enabled} enabled)"

/-! ## Evaluation -/

def evaluate (book : RuleBook) (r : Resolver) (now : Instant) : List Reward :=
  (Rule.outcomes r book.settings now false book.rules).filterMap Outcome.reward?

def report (book : RuleBook) (r : Resolver) (now : Instant) : Report where
  version := book.version
  entries :=
    (book.rules.zip (Rule.outcomes r book.settings now false book.rules)).map
      fun (rule, outcome) => ⟨rule.id, rule.priority, outcome⟩

def bestDiscount (book : RuleBook) (r : Resolver) (now : Instant) : Decimal :=
  Reward.bestWorth (book.evaluate r now)

def bestReward? (book : RuleBook) (r : Resolver) (now : Instant) : Option Reward :=
  Reward.best? (book.evaluate r now)

end RuleBook

end Promotions
