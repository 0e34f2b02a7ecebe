import Promotions.Value.Basic

/-!
# Why an evaluation fails
-/

namespace Promotions

inductive EvalError where
  | unknownVariable (path : String)
  | unknownFunction (name : String)
  /-- A call of `function` with `found` arguments, where it takes `arity` of them. -/
  | wrongArgCount (function : String) (arity found : Nat)
  /-- A value of kind `found`, where `operation` takes one of the kinds `expected`. -/
  | typeMismatch (operation : String) (expected : List Kind) (found : Kind)
  | functionFailed (function reason : String)
deriving DecidableEq

namespace EvalError

def message : EvalError → String
  | unknownVariable path => s!"unknown variable '{path}'"
  | unknownFunction name => s!"unknown function '{name}'"
  | wrongArgCount function arity found =>
    s!"function '{function}' takes {arity} argument(s), got {found}"
  | typeMismatch operation expected found =>
    let kinds := String.intercalate " or " (expected.map Kind.name)
    s!"type mismatch in '{operation}': expected {kinds}, found {found.name}"
  | functionFailed function reason => s!"function '{function}' failed: {reason}"

end EvalError

end Promotions
