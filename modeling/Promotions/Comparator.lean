/-!
# Comparators

The six signs that compare two values of one kind.
-/

namespace Promotions

inductive Comparator where
  | eq
  | ne
  | gt
  | ge
  | lt
  | le
deriving DecidableEq

namespace Comparator

/-- The sign as conditions write it. -/
def sign : Comparator → String
  | eq => "="
  | ne => "!="
  | gt => ">"
  | ge => ">="
  | lt => "<"
  | le => "<="

/-- Whether the sign holds of a left side that stands in order `o` to the right side. -/
def holds (op : Comparator) (o : Ordering) : Bool :=
  match op with
  | eq => o == .eq
  | ne => o != .eq
  | gt => o == .gt
  | ge => o != .lt
  | lt => o == .lt
  | le => o != .gt

end Comparator

end Promotions
