import Promotions.Instant.Text
import Promotions.Json

/-!
# Instants in documents
-/

namespace Promotions.Instant

def toJson (i : Instant) : Json := .str i.render

def ofJson? (j : Json) : Option Instant := j.string?.bind ofText?

def optionalToJson : Option Instant → Json
  | some i => i.toJson
  | none => .null

end Promotions.Instant
