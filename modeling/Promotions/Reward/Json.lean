import Promotions.Reward.Basic
import Promotions.Scalars

/-!
# Rewards in documents

The key `type` tells which reward an object holds.
-/

namespace Promotions.Reward

mutual

def toJson : Reward → Json
  | none => .obj [("type", .str "none")]
  | discount amount => .obj [("type", .str "discount"), ("amount", amount.toJson)]
  | gift item quantity =>
    .obj [("type", .str "gift"), ("item", .str item), ("quantity", .int quantity.toNat)]
  | points count => .obj [("type", .str "points"), ("points", .int count.toNat)]
  | multiple rewards => .obj [("type", .str "multiple"), ("results", .arr (toJsonItems rewards))]

def toJsonItems : List Reward → List Json
  | [] => []
  | reward :: rewards => toJson reward :: toJsonItems rewards

end

def variants : Json.Variants :=
  [("none", []), ("discount", ["amount"]), ("gift", ["item", "quantity"]), ("points", ["points"]),
    ("multiple", ["results"])]

variable (scalars : Scalars)

/-- The reward of a type. What the rewards under a key are is known already. -/
def ofFields? (children : String → Option (List Reward)) (fields : Json.Fields) :
    String → Option Reward
  | "none" => some .none
  | "discount" => do return .discount (← fields.required "amount" scalars.decimal?)
  | "gift" => do
    let item ← fields.required "item" Json.string?
    let quantity ← fields.required "quantity" Json.uint32?
    return .gift item quantity
  | "points" => do return .points (← fields.required "points" Json.uint64?)
  | "multiple" => do return .multiple (← children "results")
  | _ => .none

mutual

/-- Reads a reward. The rewards of a `multiple` are nested ones. -/
def read? (nested : Bool) (j : Json) : Option Reward :=
  match _h : variants.read? nested j with
  | some (type, fields) =>
    let children := fun key =>
      match _h' : fields.lookup key with
      | some (.arr items) => readItems? items
      | _ => .none
    ofFields? scalars children fields type
  | .none => .none
termination_by sizeOf j
decreasing_by
  have := Json.Variants.sizeOf_lt_of_read? ‹_› ‹_›
  simp only [Json.arr.sizeOf_spec] at this
  omega

def readItems? : List Json → Option (List Reward)
  | [] => some []
  | j :: js => do
    let reward ← read? true j
    let rewards ← readItems? js
    return reward :: rewards
termination_by js => sizeOf js

end

theorem readItems?_eq_mapM (items : List Json) :
    readItems? scalars items = items.mapM (read? scalars true) := by
  induction items with
  | nil =>
    rw [readItems?, List.mapM_nil]
    rfl
  | cons j js ih => rw [readItems?, List.mapM_cons, ih]

theorem read?_eq_bind (nested : Bool) (j : Json) :
    read? scalars nested j = variants.read? nested j >>= fun (type, fields) =>
      ofFields? scalars
        (fun key => fields.required key Json.array? >>= (·.mapM (read? scalars true)))
        fields type := by
  rw [read?]
  cases variants.read? nested j with
  | none => rfl
  | some variant =>
    obtain ⟨type, fields⟩ := variant
    simp only [readItems?_eq_mapM, Option.bind_eq_bind, Option.bind_some]
    exact congrArg (ofFields? scalars · fields type)
      (funext fun key => fields.match_array_eq key _)

theorem read?_obj (nested : Bool) {fields : Json.Fields} {type : String}
    (h : fields.required "type" (variants.nameOf? nested) = some type) :
    read? scalars nested (.obj fields) =
      ofFields? scalars
        (fun key => fields.required key Json.array? >>= (·.mapM (read? scalars true)))
        fields type := by
  rw [read?_eq_bind, Json.Variants.read?_obj, h]
  rfl

def ofJson? (j : Json) : Option Reward := read? .standard false j

end Promotions.Reward
