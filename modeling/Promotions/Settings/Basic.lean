/-!
# Settings

What holds for all rules of a book: how deep conditions may be, where the order's amount stands, and
to how many places discounts are rounded.
-/

namespace Promotions

structure Settings where
  maxDepth : UInt64
  /-- The path of the amount that discounts are taken from. -/
  amountField : String
  currencyScale : UInt32
deriving DecidableEq

namespace Settings

def standard : Settings := ⟨64, "order.total", 2⟩

def limit (s : Settings) : Nat := s.maxDepth.toNat

def places (s : Settings) : Nat := s.currencyScale.toNat

def withMaxDepth (s : Settings) (depth : UInt64) : Settings := { s with maxDepth := depth }

def withAmountField (s : Settings) (path : String) : Settings := { s with amountField := path }

def withCurrencyScale (s : Settings) (scale : UInt32) : Settings :=
  { s with currencyScale := scale }

end Settings

end Promotions
