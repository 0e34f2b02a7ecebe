import Promotions.Json
import Promotions.Settings.Basic

/-!
# Settings in documents

A missing field has its standard value.
-/

namespace Promotions.Settings

def toJson (s : Settings) : Json :=
  .obj [("max_depth", .int s.maxDepth.toNat), ("amount_field", .str s.amountField),
    ("currency_scale", .int s.currencyScale.toNat)]

def ofJson? (j : Json) : Option Settings := do
  let fields ← j.fieldsAs? ["max_depth", "amount_field", "currency_scale"]
  return {
    maxDepth := ← fields.optional "max_depth" standard.maxDepth Json.uint64?
    amountField := ← fields.optional "amount_field" standard.amountField Json.string?
    currencyScale := ← fields.optional "currency_scale" standard.currencyScale Json.uint32? }

end Promotions.Settings
