import Promotions.Proofs.Rule.Compiled
import Promotions.Proofs.RuleBook.Priority

/-!
# Sessions

A session is a run of edits. `Edit.amend?` says what an edit means for a plain list of rules that
nobody sorts: which edits are refused, and what the others leave. A book does the same to its own
rules and puts the result in order.
-/

namespace Promotions

/-- A request to change a book of rules. -/
inductive Edit where
  | add (d : RuleDefinition)
  | addAll (ds : List RuleDefinition)
  | replace (d : RuleDefinition)
  | remove (id : String)
  | setEnabled (id : String) (enabled : Bool)

namespace Edit

/-- What a book answers to an edit. -/
inductive Answer where
  | checked (result : Except RuleError Unit)
  | found (isThere : Bool)

def Answer.isSuccess : Answer → Bool
  | checked (.ok ()) => true
  | checked (.error _) => false
  | found isThere => isThere

/-- The batch of no rules is taken without a change. -/
def isVoid : Edit → Bool
  | addAll [] => true
  | _ => false

/-- The rules that an edit leaves of `log`, the newest last. `none` if it is refused. -/
def amend? (s : Settings) (log : List Rule) : Edit → Option (List Rule)
  | add d =>
    match d.compile s with
    | .ok rule => if rule.id ∈ log.map (·.id) then none else some (log ++ [rule])
    | .error _ => none
  | addAll ds =>
    match ds.mapM (·.compile s) with
    | .ok batch => if ((log ++ batch).map (·.id)).Nodup then some (log ++ batch) else none
    | .error _ => none
  | replace d =>
    match d.compile s with
    | .ok rule =>
      if rule.id ∈ log.map (·.id) then some (log.filter (·.id ≠ rule.id) ++ [rule]) else none
    | .error _ => none
  | remove id => if id ∈ log.map (·.id) then some (log.filter (·.id ≠ id)) else none
  | setEnabled id enabled =>
    if id ∈ log.map (·.id) then
      some (log.map fun rule => if rule.id = id then { rule with enabled := enabled } else rule)
    else none

/-- What the edits do that are not refused, each with what has to hold of `log`. -/
inductive Amends (s : Settings) (log : List Rule) : Edit → List Rule → Prop where
  | add {d : RuleDefinition} {rule : Rule} (hd : d.compile s = .ok rule)
      (hnew : rule.id ∉ log.map (·.id)) : Amends s log (.add d) (log ++ [rule])
  | addAll {ds : List RuleDefinition} {batch : List Rule}
      (hds : List.Forall₂ (fun d rule => d.compile s = .ok rule) ds batch)
      (hnodup : ((log ++ batch).map (·.id)).Nodup) : Amends s log (.addAll ds) (log ++ batch)
  | replace {d : RuleDefinition} {rule : Rule} (hd : d.compile s = .ok rule)
      (hold : rule.id ∈ log.map (·.id)) :
      Amends s log (.replace d) (log.filter (·.id ≠ rule.id) ++ [rule])
  | remove {id : String} (hold : id ∈ log.map (·.id)) :
      Amends s log (.remove id) (log.filter (·.id ≠ id))
  | setEnabled {id : String} (enabled : Bool) (hold : id ∈ log.map (·.id)) :
      Amends s log (.setEnabled id enabled)
        (log.map fun rule => if rule.id = id then { rule with enabled := enabled } else rule)

theorem mapM_compile_eq_ok_iff (s : Settings) (ds : List RuleDefinition) (batch : List Rule) :
    ds.mapM (·.compile s) = .ok batch ↔
      List.Forall₂ (fun d rule => d.compile s = .ok rule) ds batch := by
  induction ds generalizing batch with
  | nil => simp [pure, Except.pure, eq_comm]
  | cons d ds ih =>
    rw [List.mapM_cons]
    simp only [bind_eq_ok_iff, pure, Except.pure, Except.ok.injEq, ih]
    constructor
    · rintro ⟨rule, hrule, rest, hrest, rfl⟩
      exact .cons hrule hrest
    · rintro (_ | ⟨hrule, hrest⟩)
      exact ⟨_, hrule, _, hrest, rfl⟩

theorem ids_of_forall₂ {s : Settings} {ds : List RuleDefinition} {batch : List Rule}
    (h : List.Forall₂ (fun d rule => d.compile s = .ok rule) ds batch) :
    ds.map (·.id) = batch.map (·.id) := by
  induction h with
  | nil => rfl
  | cons hrule _ ih => rw [List.map_cons, List.map_cons, ih, ← Rule.toRuleDefinition_of_compile hrule]

theorem compiled_of_forall₂ {s : Settings} {ds : List RuleDefinition} {batch : List Rule}
    (h : List.Forall₂ (fun d rule => d.compile s = .ok rule) ds batch) :
    ∀ rule ∈ batch, rule.Compiled s := by
  induction h with
  | nil => simp
  | cons hrule _ ih => exact List.forall_mem_cons.2 ⟨Rule.compiled_of_compile hrule, ih⟩

theorem amend?_eq_some_iff (s : Settings) (log : List Rule) (edit : Edit) (rules : List Rule) :
    edit.amend? s log = some rules ↔ Amends s log edit rules := by
  constructor
  · intro h
    cases edit with
    | add d =>
      rw [amend?] at h
      split at h
      · rename_i rule hd
        rw [Option.ite_none_left_eq_some] at h
        obtain ⟨hnew, ⟨⟩⟩ := h
        exact .add hd hnew
      · simp at h
    | addAll ds =>
      rw [amend?] at h
      split at h
      · rename_i batch hds
        rw [Option.ite_none_right_eq_some] at h
        obtain ⟨hnodup, ⟨⟩⟩ := h
        exact .addAll ((mapM_compile_eq_ok_iff s ds batch).1 hds) hnodup
      · simp at h
    | replace d =>
      rw [amend?] at h
      split at h
      · rename_i rule hd
        rw [Option.ite_none_right_eq_some] at h
        obtain ⟨hold, ⟨⟩⟩ := h
        exact .replace hd hold
      · simp at h
    | remove id =>
      rw [amend?, Option.ite_none_right_eq_some] at h
      obtain ⟨hold, ⟨⟩⟩ := h
      exact .remove hold
    | setEnabled id enabled =>
      rw [amend?, Option.ite_none_right_eq_some] at h
      obtain ⟨hold, ⟨⟩⟩ := h
      exact .setEnabled enabled hold
  · rintro (⟨hd, hnew⟩ | ⟨hds, hnodup⟩ | ⟨hd, hold⟩ | hold | ⟨enabled, hold⟩)
    · rw [amend?, hd]
      exact if_neg hnew
    · rw [amend?, (mapM_compile_eq_ok_iff s _ _).2 hds]
      exact if_pos hnodup
    · rw [amend?, hd]
      exact if_pos hold
    · exact if_pos hold
    · exact if_pos hold

end Edit

namespace RuleBook

def perform (book : RuleBook) : Edit → RuleBook × Edit.Answer
  | .add d => ((book.add d).1, .checked (book.add d).2)
  | .addAll ds => ((book.addAll ds).1, .checked (book.addAll ds).2)
  | .replace d => ((book.replace d).1, .checked (book.replace d).2)
  | .remove id => ((book.remove id).1, .found (book.remove id).2)
  | .setEnabled id enabled =>
    ((book.setEnabled id enabled).1, .found (book.setEnabled id enabled).2)

/-- The book after all the edits, refused ones among them. -/
def run (book : RuleBook) (edits : List Edit) : RuleBook :=
  edits.foldl (fun book edit => (book.perform edit).1) book

/-! ## What one edit does -/

theorem contains_iff (book : RuleBook) (id : String) : book.contains id ↔ id ∈ book.ids := by
  unfold contains get? ids
  rw [List.find?_isSome, List.mem_map]
  simp

theorem eraseP_eq_filter (rules : List Rule) (h : (rules.map (·.id)).Nodup) (id : String) :
    rules.eraseP (·.id = id) = rules.filter (·.id ≠ id) := by
  induction rules with
  | nil => rfl
  | cons rule rules ih =>
    rw [List.map_cons, List.nodup_cons] at h
    by_cases hid : rule.id = id
    · have hothers : ∀ x ∈ rules, decide (x.id ≠ id) = true := by
        rintro x hx
        rw [decide_eq_true_eq]
        rintro rfl
        exact h.1 (List.mem_map.2 ⟨x, hx, hid.symm⟩)
      rw [List.eraseP_cons_of_pos (by simpa using hid), List.filter_cons_of_neg (by simpa using hid),
        List.filter_eq_self.2 hothers]
    · simp [hid, ih h.2]

theorem add_cases (book : RuleBook) (d : RuleDefinition) :
    ((Edit.add d).amend? book.settings book.rules = none ∧ ∃ e, book.add d = (book, .error e)) ∨
    ∃ rules, (Edit.add d).amend? book.settings book.rules = some rules ∧
      book.add d = (book.publish rules, .ok ()) := by
  rw [Edit.amend?, add]
  cases d.compile book.settings with
  | error e => exact .inl ⟨rfl, e, rfl⟩
  | ok rule =>
    by_cases hid : rule.id ∈ book.ids
    · exact .inl ⟨if_pos hid, _, if_pos ((contains_iff book rule.id).2 hid)⟩
    · exact .inr ⟨_, if_neg hid, if_neg (mt (contains_iff book rule.id).1 hid)⟩

theorem replace_cases (book : RuleBook) (hids : book.ids.Nodup) (d : RuleDefinition) :
    ((Edit.replace d).amend? book.settings book.rules = none ∧
      ∃ e, book.replace d = (book, .error e)) ∨
    ∃ rules, (Edit.replace d).amend? book.settings book.rules = some rules ∧
      book.replace d = (book.publish rules, .ok ()) := by
  rw [Edit.amend?, replace]
  cases d.compile book.settings with
  | error e => exact .inl ⟨rfl, e, rfl⟩
  | ok rule =>
    dsimp only
    rw [eraseP_eq_filter book.rules hids]
    by_cases hid : rule.id ∈ book.ids
    · exact .inr ⟨_, if_pos hid, if_pos ((contains_iff book rule.id).2 hid)⟩
    · exact .inl ⟨if_neg hid, _, if_neg (mt (contains_iff book rule.id).1 hid)⟩

theorem remove_cases (book : RuleBook) (hids : book.ids.Nodup) (id : String) :
    ((Edit.remove id).amend? book.settings book.rules = none ∧ book.remove id = (book, false)) ∨
    ∃ rules, (Edit.remove id).amend? book.settings book.rules = some rules ∧
      book.remove id = (book.publish rules, true) := by
  rw [Edit.amend?, remove]
  rw [eraseP_eq_filter book.rules hids]
  by_cases hid : id ∈ book.ids
  · exact .inr ⟨_, if_pos hid, if_pos ((contains_iff book id).2 hid)⟩
  · exact .inl ⟨if_neg hid, if_neg (mt (contains_iff book id).1 hid)⟩

theorem setEnabled_cases (book : RuleBook) (id : String) (enabled : Bool) :
    ((Edit.setEnabled id enabled).amend? book.settings book.rules = none ∧
      book.setEnabled id enabled = (book, false)) ∨
    ∃ rules, (Edit.setEnabled id enabled).amend? book.settings book.rules = some rules ∧
      book.setEnabled id enabled = (book.publish rules, true) := by
  rw [Edit.amend?, setEnabled]
  by_cases hid : id ∈ book.ids
  · exact .inr ⟨_, if_pos hid, if_pos ((contains_iff book id).2 hid)⟩
  · exact .inl ⟨if_neg hid, if_neg (mt (contains_iff book id).1 hid)⟩

theorem find?_contains_eq_none_iff (book : RuleBook) (hids : book.ids.Nodup) (batch : List Rule)
    (hbatch : (batch.map (·.id)).Nodup) :
    batch.find? (book.contains ·.id) = none ↔ ((book.rules ++ batch).map (·.id)).Nodup := by
  simp only [List.find?_eq_none, contains_iff]
  rw [List.map_append, List.nodup_append]
  constructor
  · intro hnew
    refine ⟨hids, hbatch, ?_⟩
    rintro _ hid _ hmem rfl
    obtain ⟨rule, hrule, heq⟩ := List.mem_map.1 hmem
    exact hnew rule hrule (heq ▸ hid)
  · rintro ⟨-, -, hdisjoint⟩ rule hrule hid
    exact hdisjoint rule.id hid rule.id (List.mem_map_of_mem hrule) rfl

/-- A batch is taken exactly if all of it compiles and its ids are new, to the book and to each
other. The book looks at the two in turn, the plain list at both at once. -/
theorem addAll_cases (book : RuleBook) (hids : book.ids.Nodup) (ds : List RuleDefinition) :
    ((Edit.addAll ds).amend? book.settings book.rules = none ∧
      ∃ e, book.addAll ds = (book, .error e)) ∨
    ∃ rules, (Edit.addAll ds).amend? book.settings book.rules = some rules ∧
      book.addAll ds = (if ds.isEmpty then book else book.publish rules, .ok ()) := by
  rw [Edit.amend?, addAll]
  have hiff := RuleDefinition.compileAll_eq_ok_iff book.settings [] ds
  cases hbatch : RuleDefinition.compileAll book.settings [] ds with
  | error e =>
    refine .inl ⟨?_, e, rfl⟩
    cases hmap : ds.mapM (·.compile book.settings) with
    | error _ => rfl
    | ok batch =>
      have hall := (Edit.mapM_compile_eq_ok_iff book.settings ds batch).1 hmap
      refine if_neg fun hnodup => ?_
      rw [List.map_append, List.nodup_append, ← Edit.ids_of_forall₂ hall] at hnodup
      have hok := (hiff batch).2 ⟨hall, hnodup.2.1, fun _ _ => List.not_mem_nil⟩
      simp [hbatch] at hok
  | ok batch =>
    obtain ⟨hall, hnodup, -⟩ := (hiff batch).1 hbatch
    rw [(Edit.mapM_compile_eq_ok_iff book.settings ds batch).2 hall]
    rw [Edit.ids_of_forall₂ hall] at hnodup
    have hnone := find?_contains_eq_none_iff book hids batch hnodup
    have hempty : ds.isEmpty = batch.isEmpty := by cases hall <;> rfl
    dsimp only
    cases hfind : batch.find? (book.contains ·.id) with
    | some rule =>
      rw [hfind] at hnone
      exact .inl ⟨if_neg (mt hnone.2 (by simp)), _, rfl⟩
    | none => exact .inr ⟨_, if_pos (hnone.1 hfind), by rw [hempty]⟩

/-- An edit is refused and the book stays as it was, or the rules become what the edit makes of
them, in order. -/
theorem perform_cases (book : RuleBook) (hids : book.ids.Nodup) (edit : Edit) :
    (edit.amend? book.settings book.rules = none ∧ (book.perform edit).1 = book ∧
      (book.perform edit).2.isSuccess = false) ∨
    ∃ rules, edit.amend? book.settings book.rules = some rules ∧
      (book.perform edit).1 = (if edit.isVoid then book else book.publish rules) ∧
      (book.perform edit).2.isSuccess = true := by
  cases edit with
  | add d =>
    rcases add_cases book d with ⟨hnone, e, hbook⟩ | ⟨rules, hsome, hbook⟩
    · exact .inl ⟨hnone, by rw [perform, hbook], by rw [perform, hbook]; rfl⟩
    · exact .inr ⟨rules, hsome, by rw [perform, hbook]; rfl, by rw [perform, hbook]; rfl⟩
  | addAll ds =>
    have hvoid : (Edit.addAll ds).isVoid = ds.isEmpty := by cases ds <;> rfl
    rcases addAll_cases book hids ds with ⟨hnone, e, hbook⟩ | ⟨rules, hsome, hbook⟩
    · exact .inl ⟨hnone, by rw [perform, hbook], by rw [perform, hbook]; rfl⟩
    · exact .inr ⟨rules, hsome, by rw [perform, hbook, hvoid], by rw [perform, hbook]; rfl⟩
  | replace d =>
    rcases replace_cases book hids d with ⟨hnone, e, hbook⟩ | ⟨rules, hsome, hbook⟩
    · exact .inl ⟨hnone, by rw [perform, hbook], by rw [perform, hbook]; rfl⟩
    · exact .inr ⟨rules, hsome, by rw [perform, hbook]; rfl, by rw [perform, hbook]; rfl⟩
  | remove id =>
    rcases remove_cases book hids id with ⟨hnone, hbook⟩ | ⟨rules, hsome, hbook⟩
    · exact .inl ⟨hnone, by rw [perform, hbook], by rw [perform, hbook]; rfl⟩
    · exact .inr ⟨rules, hsome, by rw [perform, hbook]; rfl, by rw [perform, hbook]; rfl⟩
  | setEnabled id enabled =>
    rcases setEnabled_cases book id enabled with ⟨hnone, hbook⟩ | ⟨rules, hsome, hbook⟩
    · exact .inl ⟨hnone, by rw [perform, hbook], by rw [perform, hbook]; rfl⟩
    · exact .inr ⟨rules, hsome, by rw [perform, hbook]; rfl, by rw [perform, hbook]; rfl⟩

end RuleBook

end Promotions
