import Promotions.Comparator
import Promotions.Decimal.Text
import Promotions.Expr.Path

/-!
# Expressions

The tree of a condition. `depth` counts the nodes on the longest way down, and `render` writes the
tree with brackets around every operator.
-/

namespace Promotions

inductive Expr where
  | bool (b : Bool)
  | number (n : Decimal)
  | string (s : String)
  | var (path : Path)
  | compare (op : Comparator) (left right : Expr)
  | and (left right : Expr)
  | or (left right : Expr)
  | not (operand : Expr)
  | call (name : String) (args : List Expr)
deriving Inhabited

namespace Expr

/-! ## Depth -/

mutual

/-- The number of nodes on the longest way from the root to a leaf. -/
def depth : Expr → Nat
  | bool _ | number _ | string _ | var _ => 1
  | compare _ a b | and a b | or a b => 1 + max a.depth b.depth
  | not a => 1 + a.depth
  | call _ args => 1 + maxDepth args

def maxDepth : List Expr → Nat
  | [] => 0
  | e :: es => max e.depth (maxDepth es)

end

/-! ## Equality by value -/

mutual

/-- The same tree, numbers compared by value. -/
def same : Expr → Expr → Bool
  | bool a, bool b => a == b
  | number a, number b => a.same b
  | string a, string b => a == b
  | var p, var q => p == q
  | compare op a b, compare op' a' b' => op == op' && a.same a' && b.same b'
  | and a b, and a' b' => a.same a' && b.same b'
  | or a b, or a' b' => a.same a' && b.same b'
  | not a, not a' => a.same a'
  | call f as, call g bs => f == g && sameAll as bs
  | _, _ => false

def sameAll : List Expr → List Expr → Bool
  | [], [] => true
  | a :: as, b :: bs => a.same b && sameAll as bs
  | _, _ => false

end

/-! ## Text -/

mutual

/-- The tree as condition text. Every operator stands in brackets of its own. -/
def render : Expr → String
  | bool b => if b then "true" else "false"
  | number n => n.render
  | string s => "\"" ++ s ++ "\""
  | var p => p.text
  | compare op a b => "(" ++ a.render ++ " " ++ op.sign ++ " " ++ b.render ++ ")"
  | and a b => "(" ++ a.render ++ " and " ++ b.render ++ ")"
  | or a b => "(" ++ a.render ++ " or " ++ b.render ++ ")"
  | not a => "(not " ++ a.render ++ ")"
  | call name args => name ++ "(" ++ String.intercalate ", " (renderAll args) ++ ")"

def renderAll : List Expr → List String
  | [] => []
  | e :: es => e.render :: renderAll es

end

end Expr

end Promotions
