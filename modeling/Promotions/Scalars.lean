import Promotions.Decimal.Json
import Promotions.Instant.Json

/-!
# Scalars in documents

How a decimal and an instant stand in a document. The readers of objects leave it open, so that what
is known of them does not depend on it.
-/

namespace Promotions

structure Scalars where
  decimal? : Json → Option Decimal
  instant? : Json → Option Instant

def Scalars.standard : Scalars := ⟨Decimal.ofJson?, Instant.ofJson?⟩

end Promotions
