import Promotions.Rule.Outcome

/-!
# Reports

One entry for each rule, in the order of the rules, with what became of it.
-/

namespace Promotions

structure Report.Entry where
  ruleId : String
  priority : Int32
  outcome : Outcome

structure Report where
  version : Nat
  entries : List Report.Entry

namespace Report

def rewards (report : Report) : List Reward := report.entries.filterMap (·.outcome.reward?)

def matched (report : Report) : List String :=
  (report.entries.filter (·.outcome.isMatch)).map (·.ruleId)

def errors (report : Report) : List Entry := report.entries.filter (·.outcome.isError)

def outcome? (report : Report) (ruleId : String) : Option Outcome :=
  (report.entries.find? (·.ruleId = ruleId)).map (·.outcome)

def totalDiscount (report : Report) : Decimal := Reward.totalWorth report.rewards

def render (report : Report) : String :=
  let matched := String.intercalate ", " report.matched
  let count := report.errors.length
  s!"version: {report.version}, matched: [{matched}]" ++
    if count = 0 then "" else s!", errors: {count}"

end Report

end Promotions
