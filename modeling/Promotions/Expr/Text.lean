import Promotions.Expr.Parse
import Promotions.Token.Scan

/-!
# From text to an expression
-/

namespace Promotions

inductive ConditionError where
  | lexical (e : LexicalError)
  | parse (e : ParseError)
deriving DecidableEq

def ConditionError.message : ConditionError → String
  | lexical e => e.message
  | parse e => e.message

def Expr.ofText (limit : Nat) (text : String) : Except ConditionError Expr :=
  match Token.scan text with
  | .error e => .error (.lexical e)
  | .ok tokens => (Expr.ofTokens limit tokens).mapError .parse

end Promotions
