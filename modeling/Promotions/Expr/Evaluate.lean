import Promotions.Expr.Basic
import Promotions.Resolver
import Promotions.Value.Compare

/-!
# Evaluating an expression

Operands are evaluated from left to right, and the first error is the answer. `and` and `or` leave
their right operand alone when the left one decides. A call looks at the number of
its arguments before it evaluates any of them.
-/

namespace Promotions

def Value.truth (operation : String) : Value → Except EvalError Bool
  | .bool b => .ok b
  | v => .error (.typeMismatch operation [.bool] v.kind)

namespace Expr

mutual

def evaluate (r : Resolver) : Expr → Except EvalError Value
  | bool b => .ok (.bool b)
  | number n => .ok (.number n)
  | string s => .ok (.string s)
  | var path =>
    match r.value? path.text with
    | some v => .ok v
    | none => .error (.unknownVariable path.text)
  | compare op a b => do
    let left ← evaluate r a
    let right ← evaluate r b
    return .bool (← left.compare op right)
  | and a b => do
    let left ← (← evaluate r a).truth "and"
    if left then
      return .bool (← (← evaluate r b).truth "and")
    else
      return .bool false
  | or a b => do
    let left ← (← evaluate r a).truth "or"
    if left then
      return .bool true
    else
      return .bool (← (← evaluate r b).truth "or")
  | not a => do
    let operand ← (← evaluate r a).truth "not"
    return .bool (!operand)
  | call name args =>
    match r.callable? name with
    | none => .error (.unknownFunction name)
    | some f =>
      if args.length = f.arity then do
        f.run (← evaluateAll r args)
      else .error (.wrongArgCount name f.arity args.length)

def evaluateAll (r : Resolver) : List Expr → Except EvalError (List Value)
  | [] => .ok []
  | e :: es => do
    let v ← evaluate r e
    let vs ← evaluateAll r es
    return v :: vs

end

def holds (r : Resolver) (e : Expr) : Except EvalError Bool := do
  (← evaluate r e).truth "condition"

end Expr

end Promotions
