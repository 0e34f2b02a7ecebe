import Mathlib.Logic.Relation
import Promotions.Proofs.Json.Forms

/-!
# Documents in other words

Keys that an object does not declare, the order of its keys, and a default that is written out or
left out make no difference to what is read, at whatever depth of the document they stand. A
required key that is missing, at whatever depth, makes the whole document unreadable.
-/

namespace Promotions.Json

namespace Fields

variable {before after fields fields' : Fields} {name name' : String} {j : Json}

def names (fields : Fields) : List String := fields.map (·.1)

theorem lookup_eq_none (h : name ∉ fields.names) : fields.lookup name = none := by
  rw [List.lookup_eq_none_iff]
  intro field hfield
  rw [bne_iff_ne]
  rintro rfl
  exact h (List.mem_map_of_mem hfield)

theorem lookup_insert_of_ne (h : name ≠ name') :
    (before ++ (name', j) :: after).lookup name = (before ++ after).lookup name := by
  rw [List.lookup_append, List.lookup_append, List.lookup_cons, beq_eq_false_iff_ne.2 h]

theorem lookup_insert_self (h : name ∉ names (before ++ after)) :
    (before ++ (name, j) :: after).lookup name = some j := by
  have hbefore : name ∉ names before := fun hmem => h (by simp_all [names])
  rw [List.lookup_append, lookup_eq_none hbefore, List.lookup_cons_self, Option.none_or]

theorem lookup_perm (h : fields.Perm fields') (hnodup : fields.names.Nodup) :
    fields'.lookup name = fields.lookup name := by
  induction h with
  | nil => rfl
  | cons field _ ih =>
    rw [List.lookup_cons, List.lookup_cons, ih (List.nodup_cons.1 hnodup).2]
  | swap a b rest =>
    have hne : b.1 ≠ a.1 := fun heq => (List.nodup_cons.1 hnodup).1 (by simp [heq])
    obtain ⟨k, v⟩ := a
    rw [List.lookup_cons, List.lookup_cons, List.lookup_cons, List.lookup_cons]
    by_cases hk : name = k
    · subst hk
      rw [beq_self_eq_true, beq_eq_false_iff_ne.2 hne.symm]
    · rw [beq_eq_false_iff_ne.2 hk]
  | trans h _ ih ih' =>
    exact (ih' ((h.map _).nodup_iff.1 hnodup)).trans (ih hnodup)

theorem eq_append_cons_of_getElem? {keys : List String} {n : Nat} (h : keys[n]? = some name) :
    keys = keys.take n ++ name :: keys.drop (n + 1) := by
  obtain ⟨hlt, rfl⟩ := List.getElem?_eq_some_iff.1 h
  rw [← List.drop_eq_getElem_cons hlt, List.take_append_drop]

theorem zip_append_cons {keys : List String} {items rest : List Json}
    (h : keys[items.length]? = some name) :
    keys.zip (items ++ j :: rest) = (keys.take items.length).zip items ++
      (name, j) :: (keys.drop (items.length + 1)).zip rest := by
  have hlength : (keys.take items.length).length = items.length :=
    List.length_take_of_le (Nat.le_of_lt (List.getElem?_eq_some_iff.1 h).1)
  conv_lhs => rw [eq_append_cons_of_getElem? h]
  rw [List.zip_append hlength, List.zip_cons_cons]

theorem names_zip_subset {keys : List String} {items : List Json} : names (keys.zip items) ⊆ keys := by
  intro name hname
  obtain ⟨⟨_, j⟩, hmem, rfl⟩ := List.mem_map.1 hname
  exact (List.of_mem_zip hmem).1

end Fields

/-- The array or the bare object that stands under a key, around one object of a form. -/
inductive Content.Holds : Content → Form → (Json → Json) → Prop where
  | object (form : Form) : Content.Holds (.object form) form fun j => j
  | items (form : Form) (before after : List Json) :
      Content.Holds (.items form) form fun j => .arr (before ++ j :: after)

namespace Form

/-! ## One object -/

/-- Another way to write the keys of one object. -/
inductive Alters (form : Form) : Fields → Fields → Prop where
  | undeclared (before after : Fields) (name : String) (j : Json)
      (h : ∀ key ∈ form.keys (before ++ after), key.name ≠ name) :
      Alters form (before ++ after) (before ++ (name, j) :: after)
  | reordered {fields fields' : Fields} (hnodup : fields.names.Nodup) (h : fields.Perm fields') :
      Alters form fields fields'
  | default (before after : Fields) {key : Key} {j : Json}
      (hkey : key ∈ form.keys (before ++ after)) (hdefault : key.default = some j)
      (hnew : key.name ∉ Fields.names (before ++ after)) :
      Alters form (before ++ after) (before ++ (key.name, j) :: after)

/-- The object without one of the keys that it has to have. -/
inductive Lacks (form : Form) : Fields → Fields → Prop where
  | required (before after : Fields) {key : Key} {j : Json}
      (hkey : key ∈ form.keys (before ++ (key.name, j) :: after)) (hdefault : key.default = none)
      (hnew : key.name ∉ Fields.names (before ++ after)) :
      Lacks form (before ++ (key.name, j) :: after) (before ++ after)

variable {scalars : Scalars} {form inner : Form} {before after fields fields' : Fields} {key : Key}
  {j j' : Json}

theorem keys_insert {name : String} (h : name ≠ "type") :
    form.keys (before ++ (name, j) :: after) = form.keys (before ++ after) := by
  apply keys_congr
  cases form with
  | tier | settings | definition => rfl
  | action | reward => simp only [type?, Fields.required, Fields.lookup_insert_of_ne h.symm]

theorem type_key (hkey : key ∈ form.keys fields) (hname : key.name = "type") :
    key = .required "type" ∧ ∀ fields', key ∈ form.keys fields' := by
  cases form with
  | tier | settings | definition =>
    have hmem := List.mem_map_of_mem (f := fun key : Key => key.name) hkey
    simp [keys, Key.required, Key.defaulted, hname] at hmem
  | action | reward =>
    obtain rfl : key = .required "type" := eq_of_name_eq hkey List.mem_cons_self hname
    exact ⟨rfl, fun _ => List.mem_cons_self⟩

theorem read_of_alters (h : form.Alters fields fields') :
    form.read scalars (.obj fields') = form.read scalars (.obj fields) := by
  cases h with
  | undeclared before after name j h =>
    refine read_congr fun key hkey => ?_
    rw [Key.read, Key.read, Fields.lookup_insert_of_ne (h key hkey)]
  | reordered hnodup h =>
    refine read_congr fun key hkey => ?_
    rw [Key.read, Key.read, Fields.lookup_perm h hnodup]
  | @default before after key j hkey hdefault hnew =>
    refine read_congr fun key' hkey' => ?_
    by_cases hname : key'.name = key.name
    · obtain rfl := eq_of_name_eq hkey' hkey hname
      rw [Key.read, Key.read, Fields.lookup_insert_self hnew, Fields.lookup_eq_none hnew, hdefault]
      rfl
    · rw [Key.read, Key.read, Fields.lookup_insert_of_ne hname]

theorem read_of_lacks (h : form.Lacks fields fields') : form.read scalars (.obj fields') = none := by
  cases h with
  | @required before after key j hkey hdefault hnew =>
    have hkey' : key ∈ form.keys (before ++ after) := by
      by_cases hname : key.name = "type"
      · exact (type_key hkey hname).2 _
      · rwa [keys_insert hname] at hkey
    refine read_eq_none hkey' ?_
    rw [Key.read, Fields.lookup_eq_none hnew, hdefault]
    rfl

/-! ## Nested objects -/

/-- A place for an object of the form `inner` in a document of the form `form`. The objects around
it may be written as arrays of their values. -/
inductive Place : Form → Form → (Json → Json) → Prop where
  | here (form : Form) : Place form form fun j => j
  | under {form form' inner : Form} {whole value : Json → Json} (before after : Fields) {key : Key}
      (hkey : key ∈ form.keys (before ++ after)) (hnew : key.name ∉ Fields.names (before ++ after))
      (hvalue : key.content.Holds form' value) (h : Place form' inner whole) :
      Place form inner fun j => .obj (before ++ (key.name, value (whole j)) :: after)
  | item {form form' inner : Form} {whole value : Json → Json} (before after : List Json) {key : Key}
      (hkey : (form.itemKeys before)[before.length]? = some key)
      (hvalue : key.content.Holds form' value) (h : Place form' inner whole) :
      Place form inner fun j => .arr (before ++ value (whole j) :: after)

theorem read_eq_of_holds {content : Content} {value : Json → Json} (h : content.Holds inner value)
    (hread : inner.read scalars j' = inner.read scalars j) :
    content.read scalars (value j') = content.read scalars (value j) := by
  cases h with
  | object => exact hread
  | items form before after =>
    change (before ++ j' :: after).mapM (inner.read scalars) =
      (before ++ j :: after).mapM (inner.read scalars)
    rw [List.mapM_append, List.mapM_append, List.mapM_cons, List.mapM_cons, hread]

theorem read_eq_none_of_holds {content : Content} {value : Json → Json}
    (h : content.Holds inner value) (hread : inner.read scalars j = none) :
    content.read scalars (value j) = none := by
  cases h with
  | object => exact hread
  | items form before after =>
    change (before ++ j :: after).mapM (inner.read scalars) = none
    rw [List.mapM_append, List.mapM_cons, hread]
    cases before.mapM (inner.read scalars) <;> rfl

theorem name_ne_type {value : Json → Json} (hkey : key ∈ form.keys fields)
    (h : key.content.Holds inner value) : key.name ≠ "type" := by
  intro hname
  obtain ⟨rfl, -⟩ := type_key hkey hname
  cases h

section

variable {value : Json → Json} (hkey : key ∈ form.keys (before ++ after))
  (hnew : key.name ∉ Fields.names (before ++ after)) (hvalue : key.content.Holds inner value)

include hkey hnew hvalue

theorem read_congr_under (hread : inner.read scalars j' = inner.read scalars j) :
    form.read scalars (.obj (before ++ (key.name, value j') :: after)) =
      form.read scalars (.obj (before ++ (key.name, value j) :: after)) := by
  refine Form.read_congr fun key' hkey' => ?_
  rw [keys_insert (name_ne_type hkey hvalue)] at hkey'
  by_cases hname : key'.name = key.name
  · obtain rfl := eq_of_name_eq hkey' hkey hname
    rw [Key.read, Key.read, Fields.lookup_insert_self hnew, Fields.lookup_insert_self hnew]
    exact read_eq_of_holds hvalue hread
  · rw [Key.read, Key.read, Fields.lookup_insert_of_ne hname, Fields.lookup_insert_of_ne hname]

theorem read_eq_none_under (hread : inner.read scalars j = none) :
    form.read scalars (.obj (before ++ (key.name, value j) :: after)) = none := by
  rw [← keys_insert (j := value j) (name_ne_type hkey hvalue)] at hkey
  refine Form.read_eq_none hkey ?_
  rw [Key.read, Fields.lookup_insert_self hnew]
  exact read_eq_none_of_holds hvalue hread

end

/-! ## Objects as arrays -/

section

variable {value : Json → Json} {items : List Json}
  (hkey : (form.itemKeys items)[items.length]? = some key) (hvalue : key.content.Holds inner value)

include hkey hvalue

theorem itemKeys_append (rest : List Json) : form.itemKeys (items ++ rest) = form.itemKeys items := by
  cases form with
  | tier | settings | definition => rfl
  | action | reward =>
    cases items with
    | nil =>
      obtain rfl := Option.some.inj hkey
      cases hvalue
    | cons tag items => rfl

theorem exists_read_arr_eq (scalars : Scalars) (rest : List Json) : ∃ before after : Fields,
    key ∈ form.keys (before ++ after) ∧ key.name ∉ Fields.names (before ++ after) ∧
      ∀ j, form.read scalars (.arr (items ++ j :: rest)) =
        if items.length + rest.length < (form.itemKeys items).length then
          form.read scalars (.obj (before ++ (key.name, j) :: after))
        else none := by
  obtain ⟨names, hnames⟩ : ∃ names, names = (form.itemKeys items).map (·.name) := ⟨_, rfl⟩
  have hname : names[items.length]? = some key.name := by
    rw [hnames, List.getElem?_map, hkey, Option.map_some]
  refine ⟨(names.take items.length).zip items, (names.drop (items.length + 1)).zip rest, ?_, ?_, ?_⟩
  · have hkeys : form.keys ((names.take items.length).zip items ++
        (names.drop (items.length + 1)).zip rest) = form.itemKeys items := by
      subst hnames
      cases form with
      | tier | settings | definition => rfl
      | action | reward =>
        cases items with
        | nil =>
          obtain rfl := Option.some.inj hkey
          cases hvalue
        | cons tag items => rfl
    rw [hkeys]
    exact List.mem_of_getElem? hkey
  · have hnodup : names.Nodup := hnames ▸ form.nodup_keys _
    rw [Fields.eq_append_cons_of_getElem? hname, List.nodup_middle, List.nodup_cons] at hnodup
    intro hmem
    rw [Fields.names, List.map_append, List.mem_append] at hmem
    refine hnodup.1 (List.mem_append.2 (hmem.imp ?_ ?_))
    · exact fun h => Fields.names_zip_subset h
    · exact fun h => Fields.names_zip_subset h
  · intro j
    rw [read_arr, itemKeys_append hkey hvalue, ← hnames, Fields.zip_append_cons hname]
    simp [Nat.lt_iff_add_one_le, Nat.add_assoc]

end

/-! ## Documents -/

/-- What is read of a document depends at each place only on what is read there. -/
theorem Place.read_congr {whole : Json → Json} (h : Place form inner whole)
    (hread : inner.read scalars j' = inner.read scalars j) :
    form.read scalars (whole j') = form.read scalars (whole j) := by
  induction h with
  | here => exact hread
  | under before after hkey hnew hvalue _ ih => exact read_congr_under hkey hnew hvalue (ih hread)
  | item items rest hkey hvalue _ ih =>
    obtain ⟨before, after, hmem, hnew, harr⟩ :=
      exists_read_arr_eq hkey hvalue scalars rest
    rw [harr, harr, read_congr_under hmem hnew hvalue (ih hread)]

theorem Place.read_eq_none {whole : Json → Json} (h : Place form inner whole)
    (hread : inner.read scalars j = none) : form.read scalars (whole j) = none := by
  induction h with
  | here => exact hread
  | under before after hkey hnew hvalue _ ih =>
    exact read_eq_none_under hkey hnew hvalue (ih hread)
  | item items rest hkey hvalue _ ih =>
    obtain ⟨before, after, hmem, hnew, harr⟩ :=
      exists_read_arr_eq hkey hvalue scalars rest
    rw [harr, read_eq_none_under hmem hnew hvalue (ih hread), ite_self]

/-- One object in the document is written another way. -/
inductive Rewords (form : Form) : Json → Json → Prop where
  | within {inner : Form} {whole : Json → Json} {fields fields' : Fields}
      (hplace : Place form inner whole) (h : inner.Alters fields fields') :
      Rewords form (whole (.obj fields)) (whole (.obj fields'))

/-- One object in the document loses a required key. -/
inductive Breaks (form : Form) : Json → Json → Prop where
  | within {inner : Form} {whole : Json → Json} {fields fields' : Fields}
      (hplace : Place form inner whole) (h : inner.Lacks fields fields') :
      Breaks form (whole (.obj fields)) (whole (.obj fields'))

theorem read_of_rewords (h : form.Rewords j j') : form.read scalars j' = form.read scalars j := by
  obtain ⟨hplace, halters⟩ := h
  exact hplace.read_congr (read_of_alters halters)

/-- Documents that differ in words only are read alike, whatever their form, however many of their
objects are written another way, and however decimals and instants are written in them. A document
in which some object lacks a required key is not read at all. -/
theorem read_of_edited (scalars : Scalars) (form : Form) :
    (∀ j j', Relation.EqvGen form.Rewords j j' → form.read scalars j' = form.read scalars j) ∧
      ∀ j j', form.Breaks j j' → form.read scalars j' = none := by
  refine ⟨fun j j' h => ?_, fun j j' h => ?_⟩
  · induction h with
    | rel _ _ h => exact read_of_rewords h
    | refl _ => rfl
    | symm _ _ _ ih => exact ih.symm
    | trans _ _ _ _ _ ih ih' => exact ih'.trans ih
  · obtain ⟨hplace, hlacks⟩ := h
    exact hplace.read_eq_none (read_of_lacks hlacks)

/-- A rule that gives what `action` says, inside an `all`. -/
def member (action : Json) : Fields :=
  [("id", .str "member"), ("condition", .str "vip"),
    ("action", .obj [("type", .str "all"), ("actions", .arr [action])])]

theorem place_member : Place definition (action true) fun j => .obj (member j) := by
  have hactions : Key.required "actions" (.items (.action true)) ∈
      keys (action false) [("type", .str "all")] :=
    List.mem_cons_of_mem _ List.mem_cons_self
  have haction : Key.required "action" (.object (.action false)) ∈
      definition.keys [("id", .str "member"), ("condition", .str "vip")] := by simp [keys]
  refine .under [("id", .str "member"), ("condition", .str "vip")] [] haction (by decide)
    (.object (action false)) ?_
  exact .under [("type", .str "all")] [] hactions (by decide) (.items (action true) [] [])
    (.here (action true))

/-- The customer pays four fifths. -/
def fourFifths : Fields := [("type", .str "percentage"), ("rate", .real 8 1)]

theorem read_member :
    definition.read .standard (.obj (member (.obj fourFifths))) =
      some ((RuleDefinition.ofCondition "member" "vip"
        (.all [.percentage (Decimal.ofCoeff 8 1 (by decide) (by decide))])).withName "") := by
  have hrate : Scalars.standard.decimal? (.real 8 1) =
      some (Decimal.ofCoeff 8 1 (by decide) (by decide)) := by decide +kernel
  simp [Form.read, RuleDefinition.read?, fieldsAs?, member, fourFifths, Action.read?_obj,
    Action.ofFields?, Fields.required, Fields.optional, List.lookup_cons, array?, string?, hrate]
  rfl

/-- The rate carries a note and the rule its priority, or the rate is not there. -/
theorem read_of_edited_member :
    definition.read .standard (.obj (("priority", .int 0) ::
        member (.obj [("type", .str "percentage"), ("note", .arr []), ("rate", .real 8 1)]))) =
      some ((RuleDefinition.ofCondition "member" "vip"
        (.all [.percentage (Decimal.ofCoeff 8 1 (by decide) (by decide))])).withName "") ∧
    definition.read .standard (.obj (member (.obj [("type", .str "percentage")]))) = none := by
  have hnote : Alters (action true) fourFifths
      [("type", .str "percentage"), ("note", .arr []), ("rate", .real 8 1)] := by
    refine .undeclared [("type", .str "percentage")] [("rate", .real 8 1)] "note" _ ?_
    have hkeys : keys (action true) [("type", .str "percentage"), ("rate", .real 8 1)] =
        [.required "type", .required "rate"] := rfl
    simp [hkeys, Key.required]
  have hpriority : ∀ j, definition.Alters (member j) (("priority", .int 0) :: member j) := by
    intro j
    have hkey : Key.defaulted "priority" (.int 0) ∈ definition.keys (member j) := by simp [keys]
    exact .default [] (member j) hkey rfl (by simp [Fields.names, member, Key.defaulted])
  have hlacks : Lacks (action true) fourFifths [("type", .str "percentage")] := by
    have hkey : Key.required "rate" ∈ keys (action true) fourFifths :=
      List.mem_cons_of_mem _ List.mem_cons_self
    exact .required [("type", .str "percentage")] [] hkey rfl (by decide)
  obtain ⟨hsame, hnone⟩ := read_of_edited .standard definition
  refine ⟨(hsame _ _ (.trans _ _ _ (.rel _ _ (.within place_member hnote)) ?_)).trans read_member,
    hnone _ _ (.within place_member hlacks)⟩
  exact .rel _ _ (.within (.here definition) (hpriority _))

end Form

end Promotions.Json
