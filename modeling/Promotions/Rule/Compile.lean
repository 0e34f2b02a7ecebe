import Promotions.Action.Check
import Promotions.Expr.Text
import Promotions.Rule.Basic
import Promotions.Settings.Basic

/-!
# From definitions to rules

A definition is checked in a fixed order: its id, its window, its action, and its condition last.
The first fault is the answer.
-/

namespace Promotions

/-- Why a definition makes no rule, or a book of rules cannot be changed. -/
inductive RuleError where
  | condition (e : ConditionError)
  | duplicateRule (id : String)
  | emptyId
  | unknownRule (id : String)
  | invalidAction (id : String) (fault : Action.Fault)
  | invalidWindow (id : String)
deriving DecidableEq

def RuleError.message : RuleError → String
  | condition e => e.message
  | duplicateRule id => s!"duplicate rule id '{id}'"
  | emptyId => "rule id must not be empty"
  | unknownRule id => s!"no rule with id '{id}'"
  | invalidAction id fault => s!"invalid action in rule '{id}': {fault.message}"
  | invalidWindow id => s!"rule '{id}' has valid_from after valid_to"

namespace RuleDefinition

def isWindowReversed (d : RuleDefinition) : Bool :=
  match d.validFrom, d.validTo with
  | some start, some stop => stop < start
  | _, _ => false

def compile (s : Settings) (d : RuleDefinition) : Except RuleError Rule :=
  if Text.isBlankText d.id then .error .emptyId
  else if d.isWindowReversed then .error (.invalidWindow d.id)
  else
    match d.action.check with
    | .error fault => .error (.invalidAction d.id fault)
    | .ok () =>
      match Expr.ofText s.limit d.condition with
      | .error e => .error (.condition e)
      | .ok expr => .ok { d with expr := expr }

/-- The rules of several definitions. No id may repeat one before it, or one in `seen`. -/
def compileAll (s : Settings) (seen : List String) :
    List RuleDefinition → Except RuleError (List Rule)
  | [] => .ok []
  | d :: ds =>
    if d.id ∈ seen then .error (.duplicateRule d.id)
    else do
      let rule ← d.compile s
      let rules ← compileAll s (d.id :: seen) ds
      return rule :: rules

end RuleDefinition

end Promotions
