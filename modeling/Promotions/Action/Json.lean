import Promotions.Action.Basic
import Promotions.Scalars

/-!
# Actions in documents

The key `type` tells which action an object holds. Reading an action does not check it.
-/

namespace Promotions

namespace Tier

def toJson (tier : Tier) : Json :=
  .obj [("threshold", tier.threshold.toJson), ("discount", tier.discount.toJson)]

def read? (scalars : Scalars) (j : Json) : Option Tier := do
  let fields ← j.fieldsAs? ["threshold", "discount"]
  let threshold ← fields.required "threshold" scalars.decimal?
  let discount ← fields.required "discount" scalars.decimal?
  return ⟨threshold, discount⟩

end Tier

namespace Action

mutual

def toJson : Action → Json
  | percentage rate => .obj [("type", .str "percentage"), ("rate", rate.toJson)]
  | fixedDiscount amount => .obj [("type", .str "fixed_discount"), ("amount", amount.toJson)]
  | fixedPrice price => .obj [("type", .str "fixed_price"), ("price", price.toJson)]
  | threshold least off =>
    .obj [("type", .str "threshold"), ("threshold", least.toJson), ("discount", off.toJson)]
  | tiered tiers => .obj [("type", .str "tiered"), ("tiers", .arr (tiers.map Tier.toJson))]
  | gift item quantity =>
    .obj [("type", .str "gift"), ("item", .str item), ("quantity", .int quantity.toNat)]
  | points count => .obj [("type", .str "points"), ("points", .int count.toNat)]
  | all actions => .obj [("type", .str "all"), ("actions", .arr (toJsonItems actions))]
  | best actions => .obj [("type", .str "best"), ("actions", .arr (toJsonItems actions))]

def toJsonItems : List Action → List Json
  | [] => []
  | action :: actions => toJson action :: toJsonItems actions

end

def variants : Json.Variants :=
  [("percentage", ["rate"]), ("fixed_discount", ["amount"]), ("fixed_price", ["price"]),
    ("threshold", ["threshold", "discount"]), ("tiered", ["tiers"]),
    ("gift", ["item", "quantity"]), ("points", ["points"]), ("all", ["actions"]),
    ("best", ["actions"])]

variable (scalars : Scalars)

/-- The action of a type. What the actions under a key are is known already. -/
def ofFields? (children : String → Option (List Action)) (fields : Json.Fields) :
    String → Option Action
  | "percentage" => do return .percentage (← fields.required "rate" scalars.decimal?)
  | "fixed_discount" => do return .fixedDiscount (← fields.required "amount" scalars.decimal?)
  | "fixed_price" => do return .fixedPrice (← fields.required "price" scalars.decimal?)
  | "threshold" => do
    let least ← fields.required "threshold" scalars.decimal?
    let off ← fields.required "discount" scalars.decimal?
    return .threshold least off
  | "tiered" => do
    let items ← fields.required "tiers" Json.array?
    return .tiered (← items.mapM (Tier.read? scalars))
  | "gift" => do
    let item ← fields.required "item" Json.string?
    let quantity ← fields.required "quantity" Json.uint32?
    return .gift item quantity
  | "points" => do return .points (← fields.required "points" Json.uint64?)
  | "all" => do return .all (← children "actions")
  | "best" => do return .best (← children "actions")
  | _ => none

mutual

/-- Reads an action. The actions of an `all` or a `best` are nested ones. -/
def read? (nested : Bool) (j : Json) : Option Action :=
  match _h : variants.read? nested j with
  | some (type, fields) =>
    let children := fun key =>
      match _h' : fields.lookup key with
      | some (.arr items) => readItems? items
      | _ => none
    ofFields? scalars children fields type
  | none => none
termination_by sizeOf j
decreasing_by
  have := Json.Variants.sizeOf_lt_of_read? ‹_› ‹_›
  simp only [Json.arr.sizeOf_spec] at this
  omega

def readItems? : List Json → Option (List Action)
  | [] => some []
  | j :: js => do
    let action ← read? true j
    let actions ← readItems? js
    return action :: actions
termination_by js => sizeOf js

end

theorem readItems?_eq_mapM (items : List Json) :
    readItems? scalars items = items.mapM (read? scalars true) := by
  induction items with
  | nil =>
    rw [readItems?, List.mapM_nil]
    rfl
  | cons j js ih => rw [readItems?, List.mapM_cons, ih]

theorem read?_eq_bind (nested : Bool) (j : Json) :
    read? scalars nested j = variants.read? nested j >>= fun (type, fields) =>
      ofFields? scalars
        (fun key => fields.required key Json.array? >>= (·.mapM (read? scalars true)))
        fields type := by
  rw [read?]
  cases variants.read? nested j with
  | none => rfl
  | some variant =>
    obtain ⟨type, fields⟩ := variant
    simp only [readItems?_eq_mapM, Option.bind_eq_bind, Option.bind_some]
    exact congrArg (ofFields? scalars · fields type)
      (funext fun key => fields.match_array_eq key _)

theorem read?_obj (nested : Bool) {fields : Json.Fields} {type : String}
    (h : fields.required "type" (variants.nameOf? nested) = some type) :
    read? scalars nested (.obj fields) =
      ofFields? scalars
        (fun key => fields.required key Json.array? >>= (·.mapM (read? scalars true)))
        fields type := by
  rw [read?_eq_bind, Json.Variants.read?_obj, h]
  rfl

def ofJson? (j : Json) : Option Action := read? .standard false j

end Action

end Promotions
