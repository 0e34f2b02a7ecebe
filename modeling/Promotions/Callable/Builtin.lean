import Promotions.Callable.Basic
import Promotions.Text.Search

/-!
# Built-in callables

`contains` looks for an item in a list or a text in a text, `length` counts items or characters,
and `starts_with` and `ends_with` look at the ends of a text.
-/

namespace Promotions

/-- A count as a decimal. A count that finds no room becomes the greatest decimal. -/
def Decimal.ofCount (n : Nat) : Decimal := (ofInt? n).getD greatest

namespace Callable

/-! ## Bodies -/

def contains : List Value → Except EvalError Value
  | [.list items, item] => .ok (.bool (items.any (·.same item)))
  | [.string s, .string part] => .ok (.bool (Text.occursIn part.toList s.toList))
  | [.string _, other] => .error (.typeMismatch "contains" [.string] other.kind)
  | [other, _] => .error (.typeMismatch "contains" [.list, .string] other.kind)
  | args => .error (.wrongArgCount "contains" 2 args.length)

def length : List Value → Except EvalError Value
  | [.list items] => .ok (.number (.ofCount items.length))
  | [.string s] => .ok (.number (.ofCount s.length))
  | [other] => .error (.typeMismatch "length" [.list, .string] other.kind)
  | args => .error (.wrongArgCount "length" 1 args.length)

def ofTexts (name : String) (test : List Char → List Char → Bool) :
    List Value → Except EvalError Value
  | [.string s, .string t] => .ok (.bool (test s.toList t.toList))
  | [.string _, other] | [other, _] => .error (.typeMismatch name [.string] other.kind)
  | args => .error (.wrongArgCount name 2 args.length)

def startsWith : List Value → Except EvalError Value :=
  ofTexts "starts_with" fun s part => part.isPrefixOf s

def endsWith : List Value → Except EvalError Value :=
  ofTexts "ends_with" fun s part => part.isSuffixOf s

/-! ## The table -/

def builtins : List (String × Callable) :=
  [("contains", ⟨2, contains⟩), ("length", ⟨1, length⟩), ("starts_with", ⟨2, startsWith⟩),
    ("ends_with", ⟨2, endsWith⟩)]

def builtin? (name : String) : Option Callable := builtins.lookup name

end Callable

end Promotions
