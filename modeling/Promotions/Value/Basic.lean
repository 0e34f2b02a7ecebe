import Promotions.Decimal.Text

/-!
# Values

What a condition computes with: truth values, numbers, texts and lists, which may mix kinds.
-/

namespace Promotions

inductive Value where
  | bool (b : Bool)
  | number (n : Decimal)
  | string (s : String)
  | list (items : List Value)
deriving Inhabited

inductive Kind where
  | bool
  | number
  | string
  | list
deriving DecidableEq

def Kind.name : Kind → String
  | bool => "bool"
  | number => "number"
  | string => "string"
  | list => "list"

namespace Value

def kind : Value → Kind
  | bool _ => .bool
  | number _ => .number
  | string _ => .string
  | list _ => .list

def bool? : Value → Option Bool
  | bool b => some b
  | _ => none

def number? : Value → Option Decimal
  | number n => some n
  | _ => none

def string? : Value → Option String
  | string s => some s
  | _ => none

/-! ## Equality by value -/

mutual

/-- Equal in kind and content. Numbers are equal by value, lists item by item. -/
def same : Value → Value → Bool
  | bool a, bool b => a == b
  | number a, number b => a.same b
  | string a, string b => a == b
  | list xs, list ys => sameItems xs ys
  | _, _ => false

def sameItems : List Value → List Value → Bool
  | [], [] => true
  | x :: xs, y :: ys => x.same y && sameItems xs ys
  | _, _ => false

end

/-! ## Text -/

mutual

/-- The text of a value. A string stands in quotes, a list in brackets. -/
def render : Value → String
  | bool b => if b then "true" else "false"
  | number n => n.render
  | string s => "\"" ++ s ++ "\""
  | list items => "[" ++ String.intercalate ", " (renderItems items) ++ "]"

def renderItems : List Value → List String
  | [] => []
  | item :: items => item.render :: renderItems items

end

end Value

end Promotions
