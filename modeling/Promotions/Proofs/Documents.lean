import Promotions.Proofs.Decimal.RoundTrip
import Promotions.Proofs.Fallible
import Promotions.Proofs.Instant.RoundTrip
import Promotions.Reward.Json
import Promotions.Rule.Json
import Promotions.Settings.Json

/-!
# Documents that are read back

What is written as a document and read again is what it was: every field has the same key on both
sides, every whole number is in the range that is asked for, and every decimal keeps its coefficient
and its scale. Only the minus sign of a zero gets lost.
-/

namespace Promotions

/-! ## Numbers and times -/

namespace Json

@[simp]
theorem int32?_toInt (n : Int32) : int32? (.int n.toInt) = some n := by
  rw [int32?, intBetween?, if_pos]
  · rw [Option.map_some, Int32.ofInt_toInt]
  · exact ⟨n.le_toInt, n.toInt_lt⟩

@[simp]
theorem uint32?_toNat (n : UInt32) : uint32? (.int n.toNat) = some n := by
  rw [uint32?, intBetween?, if_pos]
  · rw [Option.map_some, Int.toNat_natCast, UInt32.ofNat_toNat]
  · exact ⟨Int.natCast_nonneg _, Int.ofNat_lt.2 n.toNat_lt⟩

@[simp]
theorem uint64?_toNat (n : UInt64) : uint64? (.int n.toNat) = some n := by
  rw [uint64?, intBetween?, if_pos]
  · rw [Option.map_some, Int.toNat_natCast, UInt64.ofNat_toNat]
  · exact ⟨Int.natCast_nonneg _, Int.ofNat_lt.2 n.toNat_lt⟩

namespace Fields

variable (key key' : String) (j : Json) (fields : Fields)

theorem lookup_cons :
    List.lookup key ((key', j) :: fields) = if key = key' then some j else fields.lookup key := by
  rw [List.lookup_cons]
  by_cases h : key = key'
  · rw [if_pos h, beq_iff_eq.2 h]
  · rw [if_neg h, beq_eq_false_iff_ne.2 h]

@[simp]
theorem required_cons (read : Json → Option α) :
    required ((key', j) :: fields) key read =
      if key = key' then read j else required fields key read := by
  unfold required
  rw [lookup_cons]
  split <;> rfl

@[simp]
theorem optional_cons (default : α) (read : Json → Option α) :
    optional ((key', j) :: fields) key default read =
      if key = key' then read j else optional fields key default read := by
  unfold optional
  rw [lookup_cons]
  by_cases h : key = key'
  · rw [if_pos h, if_pos h]
  · rw [if_neg h, if_neg h]

end Fields

end Json

@[simp]
theorem Scalars.decimal?_toJson (a : Decimal) : standard.decimal? a.toJson = some a.plain := by
  have hread : Decimal.ofText? a.render = some a.plain := by
    rw [Decimal.ofText?, Decimal.render, String.toList_ofList, Decimal.ofChars?_renderChars]
  simp [standard, Decimal.toJson, Decimal.ofJson?, hread]

theorem Scalars.instant?_optionalToJson {i : Option Instant}
    (h : ∀ instant ∈ i, instant.HasFourDigitYear) :
    Json.nullable? standard.instant? (Instant.optionalToJson i) = some i := by
  cases i with
  | none => rfl
  | some instant =>
    have hread := Instant.ofChars?_renderChars (h instant rfl)
    simp [standard, Instant.optionalToJson, Instant.toJson, Json.nullable?, Instant.ofJson?,
      Json.string?, Instant.ofText?, Instant.render, hread]

/-! ## Actions -/

def Tier.mapDecimals (f : Decimal → Decimal) (tier : Tier) : Tier :=
  ⟨f tier.threshold, f tier.discount⟩

theorem Tier.read?_toJson (tier : Tier) :
    read? .standard tier.toJson = some (tier.mapDecimals Decimal.plain) := by
  simp [read?, toJson, Json.fieldsAs?, mapDecimals]

namespace Action

mutual

/-- The action with every decimal in it changed by `f`, at every depth. -/
def mapDecimals (f : Decimal → Decimal) : Action → Action
  | percentage rate => percentage (f rate)
  | fixedDiscount amount => fixedDiscount (f amount)
  | fixedPrice price => fixedPrice (f price)
  | threshold least off => threshold (f least) (f off)
  | tiered tiers => tiered (tiers.map (Tier.mapDecimals f))
  | gift item quantity => gift item quantity
  | points count => points count
  | all actions => all (mapDecimalsAll f actions)
  | best actions => best (mapDecimalsAll f actions)

def mapDecimalsAll (f : Decimal → Decimal) : List Action → List Action
  | [] => []
  | action :: actions => mapDecimals f action :: mapDecimalsAll f actions

end

theorem mapM_toJson_tiers (tiers : List Tier) :
    tiers.mapM (Tier.read? .standard ∘ Tier.toJson) =
      some (tiers.map (Tier.mapDecimals Decimal.plain)) := by
  have htier : Tier.read? .standard ∘ Tier.toJson =
      fun tier => pure (tier.mapDecimals Decimal.plain) :=
    funext Tier.read?_toJson
  rw [htier, List.mapM_pure]
  rfl

mutual

theorem read?_toJson (nested : Bool) (action : Action) :
    read? .standard nested action.toJson = some (action.mapDecimals Decimal.plain) := by
  cases action with
  | all actions =>
    have hread := mapM_toJsonItems actions
    simp [read?_obj, toJson, ofFields?, Json.array?, hread, mapDecimals]
  | best actions =>
    have hread := mapM_toJsonItems actions
    simp [read?_obj, toJson, ofFields?, Json.array?, hread, mapDecimals]
  | tiered tiers =>
    simp [read?_obj, toJson, ofFields?, Json.array?, mapM_toJson_tiers, mapDecimals]
  | _ => simp [read?_obj, toJson, ofFields?, Json.string?, mapDecimals]

theorem mapM_toJsonItems (actions : List Action) :
    (toJsonItems actions).mapM (read? .standard true) =
      some (mapDecimalsAll Decimal.plain actions) := by
  cases actions with
  | nil => rw [toJsonItems, List.mapM_nil, mapDecimalsAll]; rfl
  | cons action actions =>
    rw [toJsonItems, List.mapM_cons, read?_toJson true action, mapM_toJsonItems actions,
      mapDecimalsAll]
    rfl

end

end Action

/-! ## Rewards -/

namespace Reward

mutual

/-- The reward with every decimal in it changed by `f`, at every depth. -/
def mapDecimals (f : Decimal → Decimal) : Reward → Reward
  | none => none
  | discount amount => discount (f amount)
  | gift item quantity => gift item quantity
  | points count => points count
  | multiple rewards => multiple (mapDecimalsAll f rewards)

def mapDecimalsAll (f : Decimal → Decimal) : List Reward → List Reward
  | [] => []
  | reward :: rewards => mapDecimals f reward :: mapDecimalsAll f rewards

end

mutual

theorem read?_toJson (nested : Bool) (reward : Reward) :
    read? .standard nested reward.toJson = some (reward.mapDecimals Decimal.plain) := by
  cases reward with
  | multiple rewards =>
    have hread := mapM_toJsonItems rewards
    simp [read?_obj, toJson, ofFields?, Json.array?, hread, mapDecimals]
  | _ => simp [read?_obj, toJson, ofFields?, Json.string?, mapDecimals]

theorem mapM_toJsonItems (rewards : List Reward) :
    (toJsonItems rewards).mapM (read? .standard true) =
      some (mapDecimalsAll Decimal.plain rewards) := by
  cases rewards with
  | nil => rw [toJsonItems, List.mapM_nil, mapDecimalsAll]; rfl
  | cons reward rewards =>
    rw [toJsonItems, List.mapM_cons, read?_toJson true reward, mapM_toJsonItems rewards,
      mapDecimalsAll]
    rfl

end

end Reward

/-! ## Settings and definitions -/

theorem Settings.ofJson?_eq_some {fields : Json.Fields} {s : Settings}
    (hdepth : fields.optional "max_depth" standard.maxDepth Json.uint64? = some s.maxDepth)
    (hamount : fields.optional "amount_field" standard.amountField Json.string? =
      some s.amountField)
    (hscale : fields.optional "currency_scale" standard.currencyScale Json.uint32? =
      some s.currencyScale) :
    ofJson? (.obj fields) = some s := by
  rw [ofJson?, Json.fieldsAs?, some_bind, hdepth, some_bind, hamount, some_bind, hscale, some_bind]
  rfl

theorem Settings.ofJson?_toJson (s : Settings) : ofJson? s.toJson = some s := by
  rw [toJson]
  apply ofJson?_eq_some <;> simp [Json.string?]

namespace RuleDefinition

/-- The definition with every decimal in its action changed by `f`. -/
def mapDecimals (f : Decimal → Decimal) (d : RuleDefinition) : RuleDefinition :=
  { d with action := d.action.mapDecimals f }

theorem ofJson?_eq_some {fields : Json.Fields} {d : RuleDefinition}
    (hid : fields.required "id" Json.string? = some d.id)
    (hname : fields.optional "name" "" Json.string? = some d.name)
    (hdescription : fields.optional "description" "" Json.string? = some d.description)
    (hpriority : fields.optional "priority" 0 Json.int32? = some d.priority)
    (henabled : fields.optional "enabled" true Json.bool? = some d.enabled)
    (hcondition : fields.required "condition" Json.string? = some d.condition)
    (haction : fields.required "action" (Action.read? .standard false) = some d.action)
    (hexclusive : fields.optional "exclusive" false Json.bool? = some d.exclusive)
    (hfrom : fields.optional "valid_from" none (Json.nullable? Scalars.standard.instant?) =
      some d.validFrom)
    (hto : fields.optional "valid_to" none (Json.nullable? Scalars.standard.instant?) =
      some d.validTo) :
    ofJson? (.obj fields) = some d := by
  rw [ofJson?, read?, Json.fieldsAs?, some_bind, hid, some_bind, hname, some_bind, hdescription, some_bind,
    hpriority, some_bind, henabled, some_bind, hcondition, some_bind, haction, some_bind,
    hexclusive, some_bind, hfrom, some_bind, hto, some_bind]
  rfl

theorem ofJson?_toJson {d : RuleDefinition} (hfrom : ∀ i ∈ d.validFrom, i.HasFourDigitYear)
    (hto : ∀ i ∈ d.validTo, i.HasFourDigitYear) :
    ofJson? d.toJson = some (d.mapDecimals Decimal.plain) := by
  rw [toJson]
  apply ofJson?_eq_some <;>
    simp [mapDecimals, Json.string?, Json.bool?, d.action.read?_toJson,
      Scalars.instant?_optionalToJson hfrom, Scalars.instant?_optionalToJson hto]

end RuleDefinition

/-! ## Documents -/

/--
Definitions, rewards and settings are read back from what is written of them. The decimals are equal
to what they were, with the same coefficient and the same scale.
-/
theorem documents_read_back (d : RuleDefinition) (reward : Reward) (s : Settings)
    (hfrom : ∀ i ∈ d.validFrom, i.HasFourDigitYear) (hto : ∀ i ∈ d.validTo, i.HasFourDigitYear) :
    RuleDefinition.ofJson? d.toJson = some (d.mapDecimals Decimal.plain) ∧
      Reward.ofJson? reward.toJson = some (reward.mapDecimals Decimal.plain) ∧
      Settings.ofJson? s.toJson = some s ∧
      ∀ a : Decimal, a.plain.same a ∧ a.plain.coeff = a.coeff ∧ a.plain.scale = a.scale := by
  refine ⟨?_, ?_, ?_, ?_⟩
  · exact RuleDefinition.ofJson?_toJson hfrom hto
  · exact reward.read?_toJson false
  · exact s.ofJson?_toJson
  · exact fun a => ⟨a.plain_same, rfl, rfl⟩

/-- Nested actions, a decimal with zeros at its end, and a window that ends in a leap second. -/
def yearEnd : RuleDefinition where
  id := "year-end"
  name := "Year end"
  description := ""
  priority := -1
  enabled := true
  condition := "order.total >= 60.00"
  action := .all [.best [.percentage (Decimal.ofCoeff 90 2 (by decide) (by decide)),
    .tiered [⟨Decimal.ofCoeff 6000 2 (by decide) (by decide), 1⟩]], .gift "mug" 2, .points 250]
  exclusive := false
  validFrom := some ⟨1480550400, 250000000, by decide⟩
  validTo := some ⟨1483228799, 1500000000, by decide⟩

theorem documents_read_back_year_end :
    RuleDefinition.ofJson? yearEnd.toJson = some yearEnd ∧
      Reward.ofJson? (Reward.toJson (.multiple [.discount 1, .points 5])) =
        some (.multiple [.discount 1, .points 5]) ∧
      Settings.ofJson? Settings.standard.toJson = some Settings.standard := by
  have hread := documents_read_back yearEnd (.multiple [.discount 1, .points 5]) Settings.standard
    (by rintro _ ⟨⟩; decide) (by rintro _ ⟨⟩; decide)
  exact ⟨hread.1, hread.2.1, hread.2.2.1⟩

end Promotions
