import Promotions.Comparator
import Promotions.Decimal.Text

/-!
# Tokens

The words of a condition. A token knows the byte at which it starts.
-/

namespace Promotions

namespace Token

inductive Kind where
  | and
  | or
  | not
  | true
  | false
  | compare (op : Comparator)
  | ident (name : String)
  | number (n : Decimal)
  | string (s : String)
  | leftParen
  | rightParen
  | dot
  | comma
  | endOfInput
deriving DecidableEq

/-- How an error message names the token. -/
def Kind.describe : Kind → String
  | and => "'and'"
  | or => "'or'"
  | not => "'not'"
  | true => "'true'"
  | false => "'false'"
  | compare op => s!"'{op.sign}'"
  | ident name => s!"identifier '{name}'"
  | number n => s!"number {n.render}"
  | string s => "string \"" ++ s ++ "\""
  | leftParen => "'('"
  | rightParen => "')'"
  | dot => "'.'"
  | comma => "','"
  | endOfInput => "end of input"

end Token

structure Token where
  kind : Token.Kind
  /-- The byte at which the token starts, counted from the start of the text. -/
  offset : Nat
deriving DecidableEq

def byteLength : List Char → Nat
  | [] => 0
  | c :: cs => c.utf8Size + byteLength cs

end Promotions
