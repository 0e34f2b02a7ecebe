import Promotions.Decimal.Numeral
import Promotions.Double
import Promotions.Json

/-!
# Decimals in documents

A decimal is written as a string, which keeps its scale. A string may hold any other numeral, and a
number is read as well: exactly if it is whole and a 64-bit word holds it, else in double precision.
-/

namespace Promotions.Decimal

open Text

def toJson (a : Decimal) : Json := .str a.render

def ofWhole? (n : Int) : Option Decimal :=
  if -twoPow 63 ≤ n ∧ n < twoPow 64 then ofInt? n
  else ofInt? (n.sign * Double.shortest (Double.ofNat n.natAbs))

/-- The number `digits / 10 ^ places`, read as the numeral that double precision has for it. -/
def ofReal? (digits : Int) (places : Nat) : Option Decimal :=
  let (n, places) := Double.shortestScaled (Double.ofScaled digits.natAbs places)
  let numeral := paddedDigits (places + 1) n
  let whole := numeral.take (numeral.length - places)
  let fraction := numeral.drop (numeral.length - places)
  ofChars? ((if digits < 0 then ['-'] else []) ++ whole ++
    if places = 0 then [] else '.' :: fraction)

def ofJson? : Json → Option Decimal
  | .str text => (ofText? text).or (ofNumeral? text.toList)
  | .int n => ofWhole? n
  | .real digits places => ofReal? digits places
  | _ => none

end Promotions.Decimal
