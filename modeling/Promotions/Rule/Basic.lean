import Promotions.Action.Basic
import Promotions.Expr.Basic
import Promotions.Instant.Basic

/-!
# Rules

A definition is a rule as its author writes it. A rule is a definition whose condition has been
read.
-/

namespace Promotions

structure RuleDefinition where
  id : String
  name : String
  description : String
  priority : Int32
  enabled : Bool
  condition : String
  action : Action
  exclusive : Bool
  validFrom : Option Instant
  validTo : Option Instant

namespace RuleDefinition

/-- An enabled rule of priority zero without a window, named after its id. -/
def ofCondition (id condition : String) (action : Action) : RuleDefinition where
  id := id
  name := id
  description := ""
  priority := 0
  enabled := true
  condition := condition
  action := action
  exclusive := false
  validFrom := none
  validTo := none

def withName (d : RuleDefinition) (name : String) : RuleDefinition := { d with name := name }

def withDescription (d : RuleDefinition) (description : String) : RuleDefinition :=
  { d with description := description }

def withPriority (d : RuleDefinition) (priority : Int32) : RuleDefinition :=
  { d with priority := priority }

def withEnabled (d : RuleDefinition) (enabled : Bool) : RuleDefinition :=
  { d with enabled := enabled }

def withExclusive (d : RuleDefinition) (exclusive : Bool) : RuleDefinition :=
  { d with exclusive := exclusive }

def withWindow (d : RuleDefinition) (validFrom validTo : Option Instant) : RuleDefinition :=
  { d with validFrom := validFrom, validTo := validTo }

end RuleDefinition

structure Rule extends RuleDefinition where
  expr : Expr

namespace Rule

/-- Why a rule is left out before its condition is looked at. -/
inductive SkipReason where
  | disabled
  | notYetValid
  | expired
  | excluded
deriving DecidableEq

def SkipReason.describe : SkipReason → String
  | disabled => "disabled"
  | notYetValid => "not yet valid"
  | expired => "expired"
  | excluded => "excluded"

/-- Where `now` lies outside the window of the rule. Both ends belong to the window. -/
def outsideWindow? (rule : Rule) (now : Instant) : Option SkipReason :=
  if rule.validFrom.any (now < ·) then some .notYetValid
  else if rule.validTo.any (· < now) then some .expired
  else none

/-- Whether `now` lies in the window. A disabled rule can be valid. -/
def isValidAt (rule : Rule) (now : Instant) : Bool := (rule.outsideWindow? now).isNone

end Rule

end Promotions
