import Promotions.Power

/-!
# JSON documents

The documents in which rules, rewards and settings are kept. Fields stand in the order in which they
were written and are found by their key. Readers take what has the asked type and the asked range,
and convert nothing.
-/

namespace Promotions

inductive Json where
  | null
  | bool (b : Bool)
  /-- A number written without a point or an exponent. -/
  | int (n : Int)
  /-- Any other number, `digits / 10 ^ places`. -/
  | real (digits : Int) (places : Nat)
  | str (s : String)
  | arr (items : List Json)
  | obj (fields : List (String × Json))
deriving Inhabited

namespace Json

abbrev Fields := List (String × Json)

/-! ## Readers -/

def bool? : Json → Option Bool
  | bool b => some b
  | _ => none

def string? : Json → Option String
  | str s => some s
  | _ => none

def array? : Json → Option (List Json)
  | arr items => some items
  | _ => none

/-- The fields of an object. An array stands for the object that has its items under the first of
these keys. -/
def fieldsAs? (keys : List String) : Json → Option Fields
  | obj fields => some fields
  | arr items => if items.length ≤ keys.length then some (keys.zip items) else none
  | _ => none

/-- Null, or what the reader takes. -/
def nullable? (read : Json → Option α) : Json → Option (Option α)
  | null => some none
  | j => (read j).map some

/-- An integer from `first` up to, and without, `bound`. -/
def intBetween? (first bound : Int) : Json → Option Int
  | int n => if first ≤ n ∧ n < bound then some n else none
  | _ => none

def int32? (j : Json) : Option Int32 := (j.intBetween? (-twoPow 31) (twoPow 31)).map Int32.ofInt

def uint32? (j : Json) : Option UInt32 :=
  (j.intBetween? 0 (twoPow 32)).map fun n => UInt32.ofNat n.toNat

def uint64? (j : Json) : Option UInt64 :=
  (j.intBetween? 0 (twoPow 64)).map fun n => UInt64.ofNat n.toNat

/-! ## Fields -/

namespace Fields

/-- A field that has to be there. -/
def required (fields : Fields) (key : String) (read : Json → Option α) : Option α :=
  (fields.lookup key).bind read

/-- A field that may be missing. One that is there has to be readable. -/
def optional (fields : Fields) (key : String) (default : α) (read : Json → Option α) : Option α :=
  match fields.lookup key with
  | some j => read j
  | none => some default

theorem sizeOf_lt_of_lookup {fields : Fields} {key : String} {j : Json}
    (h : fields.lookup key = some j) : sizeOf j < sizeOf fields := by
  induction fields with
  | nil => simp at h
  | cons field fields ih =>
    obtain ⟨k, v⟩ := field
    rw [List.lookup_cons] at h
    split at h
    · cases h
      simp only [List.cons.sizeOf_spec, Prod.mk.sizeOf_spec]
      omega
    · have := ih h
      simp only [List.cons.sizeOf_spec]
      omega

theorem mem_of_lookup_zip {keys : List String} {items : List Json} {key : String} {j : Json}
    (h : (keys.zip items).lookup key = some j) : j ∈ items := by
  induction keys generalizing items with
  | nil => simp at h
  | cons k keys ih =>
    cases items with
    | nil => simp at h
    | cons item items =>
      rw [List.zip_cons_cons, List.lookup_cons] at h
      split at h
      · cases h
        exact List.mem_cons_self
      · exact List.mem_cons_of_mem _ (ih h)

theorem match_array_eq (fields : Fields) (key : String) (read : List Json → Option α) :
    (match _h : fields.lookup key with
      | some (.arr items) => read items
      | _ => none) = fields.required key array? >>= read := by
  unfold required
  split
  case h_1 items hitems =>
    rw [hitems]
    rfl
  case h_2 hother =>
    cases hvalue : fields.lookup key with
    | none => rfl
    | some j =>
      cases j with
      | arr items => exact absurd hvalue (hother items)
      | _ => rfl

end Fields

theorem sizeOf_lt_of_fieldsAs? {keys : List String} {j value : Json} {fields : Fields} {key : String}
    (h : j.fieldsAs? keys = some fields) (hvalue : fields.lookup key = some value) :
    sizeOf value < sizeOf j := by
  cases j with
  | obj fields' =>
    obtain rfl := Option.some.inj h
    have := Fields.sizeOf_lt_of_lookup hvalue
    simp only [obj.sizeOf_spec]
    omega
  | arr items =>
    rw [fieldsAs?] at h
    split at h
    case isTrue =>
      obtain rfl := Option.some.inj h
      have := List.sizeOf_lt_of_mem (Fields.mem_of_lookup_zip hvalue)
      simp only [arr.sizeOf_spec]
      omega
    case isFalse => cases h
  | _ => cases h

/-! ## Types -/

/-- The types that an object may give under the key `type`, and the other keys that go with each. -/
abbrev Variants := List (String × List String)

namespace Variants

/-- The name of a type. An object inside another one of its kind may give the place of the type in
the list instead. -/
def nameOf? (variants : Variants) (nested : Bool) : Json → Option String
  | str name => some name
  | int n => if nested ∧ 0 ≤ n then variants[n.toNat]?.map (·.1) else none
  | _ => none

/-- The keys in whose order an array gives the values. The type comes first. -/
def keysOf (variants : Variants) (nested : Bool) : Json → List String
  | arr (type :: _) =>
    "type" :: ((variants.nameOf? nested type).bind (List.lookup · variants)).getD []
  | _ => []

/-- The type that an object gives, and all its fields. -/
def read? (variants : Variants) (nested : Bool) (j : Json) : Option (String × Fields) := do
  let fields ← j.fieldsAs? (variants.keysOf nested j)
  let type ← fields.required "type" (variants.nameOf? nested)
  return (type, fields)

@[simp]
theorem nameOf?_str (variants : Variants) (nested : Bool) (name : String) :
    variants.nameOf? nested (.str name) = some name := rfl

@[simp]
theorem read?_obj (variants : Variants) (nested : Bool) (fields : Fields) :
    variants.read? nested (.obj fields) =
      (fields.required "type" (variants.nameOf? nested)).map (·, fields) :=
  Option.map_eq_bind.symm

theorem sizeOf_lt_of_read? {variants : Variants} {nested : Bool} {j value : Json} {type key : String}
    {fields : Fields} (h : variants.read? nested j = some (type, fields))
    (hvalue : fields.lookup key = some value) : sizeOf value < sizeOf j := by
  obtain ⟨fields', hfields, h⟩ := Option.bind_eq_some_iff.1 h
  obtain ⟨_, -, ⟨⟩⟩ := Option.bind_eq_some_iff.1 h
  exact sizeOf_lt_of_fieldsAs? hfields hvalue

end Variants

end Json

end Promotions
