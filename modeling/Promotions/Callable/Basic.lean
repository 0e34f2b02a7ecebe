import Promotions.EvalError

/-!
# Callables

What a call in a condition runs. The arity is the number of arguments that a condition has to give.
What the body does with another number of them is its own matter.
-/

namespace Promotions

structure Callable where
  arity : Nat
  run : List Value → Except EvalError Value

end Promotions
