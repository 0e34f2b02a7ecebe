import Mathlib.Data.List.Nodup
import Promotions.Proofs.Fallible
import Promotions.Reward.Json
import Promotions.Rule.Json
import Promotions.Settings.Json

/-!
# The keys of an object

Which keys an object declares depends on what it stands for, and for actions and rewards on its
type as well. `Form.keys` lists them. A reader asks for these keys one after the other and looks at
nothing else, so what it reads depends on their values only, and one value that cannot be read makes
the whole object unreadable. None of it depends on how decimals and instants are written.
-/

namespace Promotions.Json

/-! ## Forms -/

/-- What an object stands for. A nested action or reward stands inside another one. -/
inductive Form where
  | tier
  | action (nested : Bool)
  | reward (nested : Bool)
  | settings
  | definition

@[reducible]
def Form.Value : Form → Type
  | tier => Tier
  | action _ => Action
  | reward _ => Reward
  | settings => Settings
  | definition => RuleDefinition

/-- What stands under a key: a value with no keys of its own, an object, or an array of objects. -/
inductive Content where
  | plain
  | object (form : Form)
  | items (form : Form)

@[reducible]
def Content.Value : Content → Type
  | plain => Json
  | object form => form.Value
  | items form => List form.Value

/-- A key that an object declares. One without a default is required. -/
structure Key where
  name : String
  content : Content
  default : Option Json

namespace Key

def required (name : String) (content : Content := .plain) : Key := ⟨name, content, none⟩

def defaulted (name : String) (default : Json) : Key := ⟨name, .plain, some default⟩

end Key

namespace Form

/-- The keys of an action beside its type. -/
def actionKeys : String → List Key
  | "percentage" => [.required "rate"]
  | "fixed_discount" => [.required "amount"]
  | "fixed_price" => [.required "price"]
  | "threshold" => [.required "threshold", .required "discount"]
  | "tiered" => [.required "tiers" (.items .tier)]
  | "gift" => [.required "item", .required "quantity"]
  | "points" => [.required "points"]
  | "all" | "best" => [.required "actions" (.items (.action true))]
  | _ => []

/-- The keys of a reward beside its type. -/
def rewardKeys : String → List Key
  | "discount" => [.required "amount"]
  | "gift" => [.required "item", .required "quantity"]
  | "points" => [.required "points"]
  | "multiple" => [.required "results" (.items (.reward true))]
  | _ => []

/-- The type that an object gives, in the forms that have one. -/
def type? (form : Form) (fields : Fields) : Option String :=
  match form with
  | action nested => fields.required "type" (Action.variants.nameOf? nested)
  | reward nested => fields.required "type" (Reward.variants.nameOf? nested)
  | tier | settings | definition => none

def keys (form : Form) (fields : Fields) : List Key :=
  match form with
  | tier => [.required "threshold", .required "discount"]
  | settings =>
    [.defaulted "max_depth" (.int 64), .defaulted "amount_field" (.str "order.total"),
      .defaulted "currency_scale" (.int 2)]
  | definition =>
    [.required "id", .defaulted "name" (.str ""), .defaulted "description" (.str ""),
      .defaulted "priority" (.int 0), .defaulted "enabled" (.bool true), .required "condition",
      .required "action" (.object (.action false)), .defaulted "exclusive" (.bool false),
      .defaulted "valid_from" .null, .defaulted "valid_to" .null]
  | action _ => .required "type" :: (form.type? fields).elim [] actionKeys
  | reward _ => .required "type" :: (form.type? fields).elim [] rewardKeys

/-- The keys whose values an array gives one after the other. -/
def itemKeys (form : Form) (items : List Json) : List Key := form.keys (["type"].zip items)

end Form

/-! ## Readers -/

variable (scalars : Scalars)

def Form.read : (form : Form) → Json → Option form.Value
  | tier => Tier.read? scalars
  | action nested => Action.read? scalars nested
  | reward nested => Reward.read? scalars nested
  | settings => Settings.ofJson?
  | definition => RuleDefinition.read? scalars

def Content.read : (content : Content) → Json → Option content.Value
  | plain => some
  | object form => form.read scalars
  | items form => fun j => j.array?.bind (·.mapM (form.read scalars))

def Key.read (key : Key) (fields : Fields) : Option key.content.Value :=
  ((fields.lookup key.name).or key.default).bind (key.content.read scalars)

/-- The reader looks at the value under the key only, and fails where that cannot be read. -/
def Key.Asked {β : Type} (key : Key) (ask : Fields → Option β) : Prop :=
  ∃ convert : key.content.Value → Option β,
    ∀ fields, ask fields = (key.read scalars fields).bind convert

namespace Key

variable {β : Type} (name : String)

theorem Asked.required (read : Json → Option β) :
    (Key.required name).Asked scalars fun fields => fields.required name read := by
  refine ⟨read, fun fields => ?_⟩
  change (fields.lookup name).bind read = (((fields.lookup name).or none).bind some).bind read
  cases fields.lookup name <;> rfl

theorem Asked.optional {read : Json → Option β} {default : β} {j : Json}
    (hdefault : read j = some default) :
    (Key.defaulted name j).Asked scalars fun fields => fields.optional name default read := by
  refine ⟨read, fun fields => ?_⟩
  change fields.optional name default read =
    (((fields.lookup name).or (some j)).bind some).bind read
  unfold Fields.optional
  cases fields.lookup name with
  | none => exact hdefault.symm
  | some j' => rfl

theorem Asked.object (form : Form) :
    (Key.required name (.object form)).Asked scalars fun fields =>
      fields.required name (form.read scalars) := by
  refine ⟨some, fun fields => ?_⟩
  change (fields.lookup name).bind (form.read scalars) =
    (((fields.lookup name).or none).bind (form.read scalars)).bind some
  rw [Option.or_none, Option.bind_fun_some]

theorem Asked.items (form : Form) :
    (Key.required name (.items form)).Asked scalars fun fields =>
      fields.required name array? >>= (·.mapM (form.read scalars)) := by
  refine ⟨some, fun fields => ?_⟩
  change ((fields.lookup name).bind array?).bind (·.mapM (form.read scalars)) =
    (((fields.lookup name).or none).bind
      fun j => j.array?.bind (·.mapM (form.read scalars))).bind some
  rw [Option.or_none, Option.bind_fun_some, Option.bind_assoc]

theorem read_type (fields : Fields) :
    (Key.required "type").read scalars fields = fields.lookup "type" := by
  change ((fields.lookup "type").or none).bind some = _
  rw [Option.or_none, Option.bind_fun_some]

end Key

/-- The reader asks for the keys in this order, and looks at nothing else. -/
inductive Reads {α : Type} : List Key → (Fields → Option α) → Prop where
  | done (result : Option α) : Reads [] fun _ => result
  | field {keys : List Key} {key : Key} {β : Type} {ask : Fields → Option β}
      {next : β → Fields → Option α} (hask : key.Asked scalars ask)
      (h : ∀ b, Reads keys (next b)) :
      Reads (key :: keys) fun fields => ask fields >>= fun b => next b fields

variable {scalars}

namespace Reads

variable {α : Type} {keys : List Key} {reader : Fields → Option α} {fields fields' : Fields}

theorem congr (h : Reads scalars keys reader)
    (hsame : ∀ key ∈ keys, key.read scalars fields' = key.read scalars fields) :
    reader fields' = reader fields := by
  induction h with
  | done result => rfl
  | @field keys key β ask next hask _ ih =>
    obtain ⟨convert, hconvert⟩ := hask
    obtain ⟨hkey, hkeys⟩ := List.forall_mem_cons.1 hsame
    have hvalue : ask fields' = ask fields := by rw [hconvert, hconvert, hkey]
    dsimp only
    rw [hvalue]
    exact bind_congr fun b => ih b hkeys

theorem eq_none (h : Reads scalars keys reader) {key : Key} (hkey : key ∈ keys)
    (hnone : key.read scalars fields = none) : reader fields = none := by
  induction h with
  | done result => simp at hkey
  | @field keys first β ask next hask _ ih =>
    dsimp only
    rcases List.mem_cons.1 hkey with rfl | hkey
    · obtain ⟨convert, hconvert⟩ := hask
      rw [hconvert, hnone]
      rfl
    · cases ask fields with
      | none => rfl
      | some b => exact ih b hkey

end Reads

/-! ## The forms -/

theorem reads_tier :
    Reads scalars (Form.tier.keys []) fun fields => Tier.read? scalars (.obj fields) := by
  simp only [Tier.read?, Json.fieldsAs?, some_bind]
  exact .field (.required _ _ scalars.decimal?) fun _ =>
    .field (.required _ _ scalars.decimal?) fun _ => .done _

theorem reads_settings :
    Reads scalars (Form.settings.keys []) fun fields => Settings.ofJson? (.obj fields) := by
  simp only [Settings.ofJson?, Json.fieldsAs?, some_bind]
  exact .field (.optional _ _ rfl) fun _ => .field (.optional _ _ rfl) fun _ =>
    .field (.optional _ _ rfl) fun _ => .done _

theorem reads_definition :
    Reads scalars (Form.definition.keys []) fun fields =>
      RuleDefinition.read? scalars (.obj fields) := by
  simp only [RuleDefinition.read?, Json.fieldsAs?, some_bind]
  exact .field (.required _ _ string?) fun _ => .field (.optional _ _ rfl) fun _ =>
    .field (.optional _ _ rfl) fun _ => .field (.optional _ _ rfl) fun _ =>
    .field (.optional _ _ rfl) fun _ => .field (.required _ _ string?) fun _ =>
    .field (.object _ _ (.action false)) fun _ => .field (.optional _ _ rfl) fun _ =>
    .field (.optional _ _ rfl) fun _ => .field (.optional _ _ rfl) fun _ => .done _

theorem reads_action (type : String) :
    Reads scalars (Form.actionKeys type) fun fields =>
      Action.ofFields? scalars
        (fun key => fields.required key array? >>= (·.mapM (Action.read? scalars true)))
        fields type := by
  unfold Form.actionKeys
  split
  case h_1 =>
    exact .field (.required _ _ scalars.decimal?) fun rate => .done (some (Action.percentage rate))
  case h_2 =>
    exact .field (.required _ _ scalars.decimal?) fun amount =>
      .done (some (Action.fixedDiscount amount))
  case h_3 =>
    exact .field (.required _ _ scalars.decimal?) fun price => .done (some (Action.fixedPrice price))
  case h_4 =>
    exact .field (.required _ _ scalars.decimal?) fun least =>
      .field (.required _ _ scalars.decimal?) fun off => .done (some (Action.threshold least off))
  case h_5 =>
    simp only [Action.ofFields?, ← bind_assoc]
    exact .field (.items _ _ .tier) fun tiers => .done (some (Action.tiered tiers))
  case h_6 =>
    exact .field (.required _ _ string?) fun item =>
      .field (.required _ _ uint32?) fun quantity => .done (some (Action.gift item quantity))
  case h_7 =>
    exact .field (.required _ _ uint64?) fun count => .done (some (Action.points count))
  case h_8 =>
    exact .field (.items _ _ (.action true)) fun actions => .done (some (Action.all actions))
  case h_9 =>
    exact .field (.items _ _ (.action true)) fun actions => .done (some (Action.best actions))
  case h_10 =>
    have hnone : ∀ fields : Fields, Action.ofFields? scalars
        (fun key => fields.required key array? >>= (·.mapM (Action.read? scalars true)))
        fields type = none := by
      intro fields
      rw [Action.ofFields?] <;> assumption
    simp only [hnone]
    exact .done none

theorem reads_reward (type : String) :
    Reads scalars (Form.rewardKeys type) fun fields =>
      Reward.ofFields? scalars
        (fun key => fields.required key array? >>= (·.mapM (Reward.read? scalars true)))
        fields type := by
  unfold Form.rewardKeys
  split
  case h_1 =>
    exact .field (.required _ _ scalars.decimal?) fun amount => .done (some (Reward.discount amount))
  case h_2 =>
    exact .field (.required _ _ string?) fun item =>
      .field (.required _ _ uint32?) fun quantity => .done (some (Reward.gift item quantity))
  case h_3 =>
    exact .field (.required _ _ uint64?) fun count => .done (some (Reward.points count))
  case h_4 =>
    exact .field (.items _ _ (.reward true)) fun rewards => .done (some (Reward.multiple rewards))
  case h_5 =>
    by_cases hnone : type = "none"
    · subst hnone
      exact .done (some Reward.none)
    · have hnone : ∀ fields : Fields, Reward.ofFields? scalars
          (fun key => fields.required key array? >>= (·.mapM (Reward.read? scalars true)))
          fields type = none := by
        intro fields
        rw [Reward.ofFields?] <;> assumption
      simp only [hnone]
      exact .done none

theorem exists_reads_of_type {α : Type} {variants : Variants} {nested : Bool}
    {read : Json → Option α} {ofFields : Fields → String → Option α}
    {variantKeys : String → List Key}
    (hread : ∀ j, read j = variants.read? nested j >>= fun (type, fields) => ofFields fields type)
    (hkeys : ∀ type, Reads scalars (variantKeys type) fun fields => ofFields fields type)
    (type : Option String) :
    ∃ reader, Reads scalars (.required "type" :: type.elim [] variantKeys) reader ∧
      ∀ fields : Fields, fields.required "type" (variants.nameOf? nested) = type →
        read (.obj fields) = reader fields := by
  cases type with
  | some type =>
    refine ⟨_, .field (.required _ _ (variants.nameOf? nested)) fun _ => hkeys type,
      fun fields htype => ?_⟩
    rw [hread, Variants.read?_obj, htype]
    rfl
  | none =>
    refine ⟨_, .field (.required _ _ (variants.nameOf? nested)) fun _ => .done none,
      fun fields htype => ?_⟩
    rw [hread, Variants.read?_obj, htype]
    rfl

namespace Form

theorem exists_reads (scalars : Scalars) (form : Form) (fields : Fields) :
    ∃ reader, Reads scalars (form.keys fields) reader ∧ ∀ fields' : Fields,
      form.type? fields' = form.type? fields →
        form.read scalars (.obj fields') = reader fields' := by
  cases form with
  | tier => exact ⟨_, reads_tier, fun _ _ => rfl⟩
  | settings => exact ⟨_, reads_settings, fun _ _ => rfl⟩
  | definition => exact ⟨_, reads_definition, fun _ _ => rfl⟩
  | action nested =>
    exact exists_reads_of_type (Action.read?_eq_bind scalars nested) reads_action _
  | reward nested =>
    exact exists_reads_of_type (Reward.read?_eq_bind scalars nested) reads_reward _

variable {form : Form} {fields fields' : Fields}

theorem type?_congr
    (h : ∀ key ∈ form.keys fields, key.read scalars fields' = key.read scalars fields) :
    form.type? fields' = form.type? fields := by
  cases form with
  | tier | settings | definition => rfl
  | action | reward =>
    have hhead := h _ List.mem_cons_self
    rw [Key.read_type, Key.read_type] at hhead
    simp only [type?, Fields.required, hhead]

theorem read_congr
    (h : ∀ key ∈ form.keys fields, key.read scalars fields' = key.read scalars fields) :
    form.read scalars (.obj fields') = form.read scalars (.obj fields) := by
  obtain ⟨reader, hreads, hread⟩ := form.exists_reads scalars fields
  rw [hread fields' (type?_congr h), hread fields rfl]
  exact hreads.congr h

theorem read_eq_none {key : Key} (hkey : key ∈ form.keys fields)
    (h : key.read scalars fields = none) : form.read scalars (.obj fields) = none := by
  obtain ⟨reader, hreads, hread⟩ := form.exists_reads scalars fields
  rw [hread fields rfl]
  exact hreads.eq_none hkey h

theorem nodup_keys (form : Form) (fields : Fields) : ((form.keys fields).map (·.name)).Nodup := by
  cases form with
  | tier | settings | definition => simp [keys, Key.required, Key.defaulted]
  | action nested =>
    simp only [keys]
    cases type? (.action nested) fields with
    | none => simp
    | some type =>
      simp only [Option.elim_some]
      unfold actionKeys
      split <;> simp [Key.required]
  | reward nested =>
    simp only [keys]
    cases type? (.reward nested) fields with
    | none => simp
    | some type =>
      simp only [Option.elim_some]
      unfold rewardKeys
      split <;> simp [Key.required]

theorem eq_of_name_eq {key key' : Key} (hkey : key ∈ form.keys fields)
    (hkey' : key' ∈ form.keys fields) (h : key.name = key'.name) : key = key' :=
  List.inj_on_of_nodup_map (form.nodup_keys fields) hkey hkey' h

theorem keys_congr (h : form.type? fields' = form.type? fields) :
    form.keys fields' = form.keys fields := by
  cases form with
  | tier | settings | definition => rfl
  | action | reward => simp only [keys, h]

/-! ## Objects as arrays -/

theorem names_actionKeys (type : String) :
    (actionKeys type).map (·.name) = (List.lookup type Action.variants).getD [] := by
  unfold actionKeys
  split
  case h_10 =>
    rw [List.lookup_eq_none_iff.2 (by simp_all [Action.variants])]
    rfl
  all_goals rfl

theorem names_rewardKeys (type : String) :
    (rewardKeys type).map (·.name) = (List.lookup type Reward.variants).getD [] := by
  unfold rewardKeys
  split
  case h_5 =>
    by_cases hnone : type = "none"
    · subst hnone
      rfl
    · rw [List.lookup_eq_none_iff.2 (by simp_all [Reward.variants])]
      rfl
  all_goals rfl

theorem fieldsAs?_arr_bind {α : Type} (names : List String) (items : List Json)
    (body : Fields → Option α) :
    (arr items).fieldsAs? names >>= body =
      if items.length ≤ names.length then body (names.zip items) else none := by
  rw [fieldsAs?]
  split <;> rfl

theorem read_arr_of_type {α : Type} {variants : Variants} {nested : Bool} {read : Json → Option α}
    {ofVariant : String × Fields → Option α} {variantKeys : String → List Key}
    (hread : ∀ j, read j = variants.read? nested j >>= ofVariant)
    (hnames : ∀ type, (variantKeys type).map (·.name) = (List.lookup type variants).getD [])
    (items : List Json) {keys : List Key}
    (hkeys : keys = .required "type" ::
      (Fields.required (["type"].zip items) "type" (variants.nameOf? nested)).elim [] variantKeys) :
    read (.arr items) =
      if items.length ≤ keys.length then read (.obj ((keys.map (·.name)).zip items)) else none := by
  cases items with
  | nil =>
    rw [List.length_nil, if_pos (Nat.zero_le _), List.zip_nil_right, hread, hread,
      Variants.read?_obj]
    rfl
  | cons tag items =>
    have hnamesOf : keys.map (·.name) = variants.keysOf nested (.arr (tag :: items)) := by
      rw [hkeys]
      change "type" :: ((variants.nameOf? nested tag).elim [] variantKeys).map (·.name) =
        "type" :: ((variants.nameOf? nested tag).bind (List.lookup · variants)).getD []
      cases variants.nameOf? nested tag with
      | none => rfl
      | some type => exact congrArg ("type" :: ·) (hnames type)
    have hlength : keys.length = (variants.keysOf nested (.arr (tag :: items))).length := by
      rw [← hnamesOf, List.length_map]
    rw [hread, hread, Variants.read?_obj, hnamesOf, hlength, Variants.read?, fieldsAs?_arr_bind]
    split
    · rw [Option.map_eq_bind]
      rfl
    · rfl

theorem read_arr (form : Form) (items : List Json) :
    form.read scalars (.arr items) =
      if items.length ≤ (form.itemKeys items).length then
        form.read scalars (.obj (((form.itemKeys items).map (·.name)).zip items))
      else none := by
  cases form with
  | tier => exact fieldsAs?_arr_bind ["threshold", "discount"] items _
  | settings => exact fieldsAs?_arr_bind ["max_depth", "amount_field", "currency_scale"] items _
  | definition => exact fieldsAs?_arr_bind RuleDefinition.keys items _
  | action nested =>
    exact read_arr_of_type (Action.read?_eq_bind scalars nested) names_actionKeys items rfl
  | reward nested =>
    exact read_arr_of_type (Reward.read?_eq_bind scalars nested) names_rewardKeys items rfl

end Form

end Promotions.Json
