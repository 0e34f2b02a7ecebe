import Promotions.Comparator
import Promotions.EvalError

/-!
# Comparing values

Only values of one kind compare. Numbers and strings are ordered, numbers by value and strings by
code point. Truth values and lists are equal or not, and have no order.
-/

namespace Promotions.Value

def compare (op : Comparator) (left right : Value) : Except EvalError Bool :=
  if left.kind ≠ right.kind then .error (.typeMismatch op.sign [left.kind] right.kind)
  else
    match left, right with
    | number a, number b => .ok (op.holds (Ord.compare a b))
    | string a, string b => .ok (op.holds (Ord.compare a b))
    | _, _ =>
      match op with
      | .eq => .ok (left.same right)
      | .ne => .ok (!left.same right)
      | _ => .error (.typeMismatch op.sign [.number, .string] left.kind)

end Promotions.Value
