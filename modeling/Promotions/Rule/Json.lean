import Promotions.Action.Json
import Promotions.Rule.Basic

/-!
# Definitions in documents

The id, the condition and the action have to be there. All else has a default.
-/

namespace Promotions.RuleDefinition

def toJson (d : RuleDefinition) : Json :=
  .obj [("id", .str d.id), ("name", .str d.name), ("description", .str d.description),
    ("priority", .int d.priority.toInt), ("enabled", .bool d.enabled),
    ("condition", .str d.condition), ("action", d.action.toJson),
    ("exclusive", .bool d.exclusive), ("valid_from", Instant.optionalToJson d.validFrom),
    ("valid_to", Instant.optionalToJson d.validTo)]

def keys : List String :=
  ["id", "name", "description", "priority", "enabled", "condition", "action", "exclusive",
    "valid_from", "valid_to"]

def read? (scalars : Scalars) (j : Json) : Option RuleDefinition := do
  let fields ← j.fieldsAs? keys
  return {
    id := ← fields.required "id" Json.string?
    name := ← fields.optional "name" "" Json.string?
    description := ← fields.optional "description" "" Json.string?
    priority := ← fields.optional "priority" 0 Json.int32?
    enabled := ← fields.optional "enabled" true Json.bool?
    condition := ← fields.required "condition" Json.string?
    action := ← fields.required "action" (Action.read? scalars false)
    exclusive := ← fields.optional "exclusive" false Json.bool?
    validFrom := ← fields.optional "valid_from" none (Json.nullable? scalars.instant?)
    validTo := ← fields.optional "valid_to" none (Json.nullable? scalars.instant?) }

def ofJson? (j : Json) : Option RuleDefinition := read? .standard j

end Promotions.RuleDefinition
