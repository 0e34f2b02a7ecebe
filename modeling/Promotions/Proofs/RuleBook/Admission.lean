import Promotions.Proofs.Action.Fault
import Promotions.Proofs.Documents
import Promotions.Proofs.RuleBook.Atomic

/-!
# What a book takes

A book should take the well-formed definitions with a new id, and refuse any other for the first
thing that is wrong with it: its id, its window, its action, its condition, and last the id that is
taken. It does so for all definitions but those with a zero with a minus sign for a rate, which it
refuses too.
-/

namespace Promotions

namespace RuleDefinition

/-! ## Well-formed definitions -/

/-- Some character of the id is not a blank. -/
def HasId (d : RuleDefinition) : Prop := ∃ c ∈ d.id.toList, Text.isBlank c = false

/-- A window with two ends does not start after its end. -/
def HasWindow (d : RuleDefinition) : Prop :=
  ∀ start stop, d.validFrom = some start → d.validTo = some stop → start ≤ stop

structure WellFormed (s : Settings) (d : RuleDefinition) : Prop where
  id : d.HasId
  window : d.HasWindow
  action : d.action.Valid
  condition : ∃ expr, Expr.ofText s.limit d.condition = .ok expr

/-- What is wrong with a definition, the first of several faults. -/
inductive Malformed (s : Settings) (d : RuleDefinition) : RuleError → Prop where
  | emptyId (h : ¬d.HasId) : Malformed s d .emptyId
  | invalidWindow (hid : d.HasId) (h : ¬d.HasWindow) : Malformed s d (.invalidWindow d.id)
  | invalidAction {fault : Action.Fault} (hid : d.HasId) (hwindow : d.HasWindow)
      (h : d.action.FirstFault fault) : Malformed s d (.invalidAction d.id fault)
  | condition {e : ConditionError} (hid : d.HasId) (hwindow : d.HasWindow)
      (haction : d.action.Valid) (h : Expr.ofText s.limit d.condition = .error e) :
    Malformed s d (.condition e)

/-- The answer that is due to a definition from a book with the ids `ids`. -/
inductive Due (s : Settings) (ids : List String) (d : RuleDefinition) :
    Except RuleError Unit → Prop where
  | taken (h : d.WellFormed s) (hnew : d.id ∉ ids) : Due s ids d (.ok ())
  | malformed {e : RuleError} (h : d.Malformed s e) : Due s ids d (.error e)
  | duplicate (h : d.WellFormed s) (hmem : d.id ∈ ids) : Due s ids d (.error (.duplicateRule d.id))

/-- The check of the action comes upon the rate `rate`, a zero with a minus sign. -/
def MeetsMinusZero (d : RuleDefinition) (rate : Decimal) : Prop :=
  d.HasId ∧ d.HasWindow ∧ d.action.MeetsMinusZero rate

variable {s : Settings} {d : RuleDefinition}

theorem hasId_iff : d.HasId ↔ Text.isBlankText d.id = false := by
  unfold HasId Text.isBlankText
  simp

theorem hasWindow_iff : d.HasWindow ↔ d.isWindowReversed = false :=
  (isWindowReversed_eq_false_iff d).symm

theorem compile_of_not_hasId (h : ¬d.HasId) : d.compile s = .error .emptyId := by
  rw [compile, if_pos (by simpa [hasId_iff] using h)]

theorem compile_of_not_hasWindow (hid : d.HasId) (h : ¬d.HasWindow) :
    d.compile s = .error (.invalidWindow d.id) := by
  rw [compile, if_neg (by simp [hasId_iff.1 hid]), if_pos (by simpa [hasWindow_iff] using h)]

theorem compile_of_hasWindow (hid : d.HasId) (hwindow : d.HasWindow) :
    d.compile s =
      match d.action.check with
      | .error fault => .error (.invalidAction d.id fault)
      | .ok () =>
        match Expr.ofText s.limit d.condition with
        | .error e => .error (.condition e)
        | .ok expr => .ok { d with expr := expr } := by
  have hid : ¬Text.isBlankText d.id = true := by simp [hasId_iff.1 hid]
  have hwindow : ¬d.isWindowReversed = true := by simp [hasWindow_iff.1 hwindow]
  exact (if_neg hid).trans (if_neg hwindow)

theorem compile_of_meetsMinusZero {rate : Decimal} (h : d.MeetsMinusZero rate) :
    d.compile s = .error (.invalidAction d.id (.rateOutside rate)) := by
  obtain ⟨hid, hwindow, haction⟩ := h
  rw [compile_of_hasWindow hid hwindow, haction.check]

theorem not_malformed_of_minusZero {rate : Decimal} (hzero : rate.minusZero = true) :
    ¬d.Malformed s (.invalidAction d.id (.rateOutside rate)) := by
  rintro (_ | _ | ⟨-, -, h⟩)
  exact Action.not_firstFault_of_minusZero hzero h

theorem not_exists_minusZero (h : ¬∃ rate, d.MeetsMinusZero rate) (hid : d.HasId)
    (hwindow : d.HasWindow) : ¬∃ rate, d.action.MeetsMinusZero rate :=
  fun ⟨rate, hrate⟩ => h ⟨rate, hid, hwindow, hrate⟩

theorem wellFormed_iff (h : ¬∃ rate, d.MeetsMinusZero rate) :
    d.WellFormed s ↔ ∃ rule, d.compile s = .ok rule := by
  constructor
  · rintro ⟨hid, hwindow, haction, expr, hread⟩
    have hcheck := (Action.check_eq_ok_iff_valid (not_exists_minusZero h hid hwindow)).2 haction
    refine ⟨{ d with expr := expr }, (compile_eq_ok_iff s d _).2 ⟨rfl, ?_⟩⟩
    exact ⟨hasId_iff.1 hid, hasWindow_iff.1 hwindow, hcheck, hread⟩
  · rintro ⟨rule, hrule⟩
    obtain ⟨-, hid, hwindow, hcheck, hread⟩ := (compile_eq_ok_iff s d rule).1 hrule
    exact ⟨hasId_iff.2 hid, hasWindow_iff.2 hwindow, Action.valid_of_check hcheck, _, hread⟩

theorem compile_eq_error_iff (h : ¬∃ rate, d.MeetsMinusZero rate) (e : RuleError) :
    d.compile s = .error e ↔ d.Malformed s e := by
  constructor
  · intro herror
    by_cases hid : d.HasId
    case neg =>
      rw [compile_of_not_hasId hid] at herror
      obtain rfl := Except.error.inj herror
      exact .emptyId hid
    by_cases hwindow : d.HasWindow
    case neg =>
      rw [compile_of_not_hasWindow hid hwindow] at herror
      obtain rfl := Except.error.inj herror
      exact .invalidWindow hid hwindow
    rw [compile_of_hasWindow hid hwindow] at herror
    have hrate := not_exists_minusZero h hid hwindow
    split at herror
    case h_1 fault hfault =>
      obtain rfl := Except.error.inj herror
      exact .invalidAction hid hwindow ((Action.check_eq_error_iff_firstFault hrate).1 hfault)
    case h_2 hcheck =>
      split at herror
      case h_1 cause hread =>
        obtain rfl := Except.error.inj herror
        exact .condition hid hwindow (Action.valid_of_check hcheck) hread
      case h_2 => cases herror
  · intro hmalformed
    cases hmalformed with
    | emptyId hid => exact compile_of_not_hasId hid
    | invalidWindow hid hwindow => exact compile_of_not_hasWindow hid hwindow
    | invalidAction hid hwindow hfault =>
      have hrate := not_exists_minusZero h hid hwindow
      rw [compile_of_hasWindow hid hwindow, (Action.check_eq_error_iff_firstFault hrate).2 hfault]
    | condition hid hwindow haction hread =>
      have hrate := not_exists_minusZero h hid hwindow
      rw [compile_of_hasWindow hid hwindow, (Action.check_eq_ok_iff_valid hrate).2 haction, hread]

end RuleDefinition

namespace RuleBook

/-! ## One definition -/

variable {book : RuleBook} {d : RuleDefinition}

theorem add_of_compile_error {e : RuleError} (h : d.compile book.settings = .error e) :
    (book.add d).2 = .error e := by
  rw [add, h]

/-- A definition that compiles is refused for its id only. -/
theorem add_of_compile_ok {rule : Rule} (h : d.compile book.settings = .ok rule) :
    (book.add d).2 = if d.id ∈ book.ids then .error (.duplicateRule d.id) else .ok () := by
  rw [add, h]
  simp only [contains_iff, Rule.id_of_compile h]
  split <;> rfl

theorem add_of_meetsMinusZero {rate : Decimal} (h : d.MeetsMinusZero rate) (book : RuleBook) :
    (book.add d).2 = .error (.invalidAction d.id (.rateOutside rate)) :=
  add_of_compile_error (RuleDefinition.compile_of_meetsMinusZero h)

theorem due_add (h : ¬∃ rate, d.MeetsMinusZero rate) :
    d.Due book.settings book.ids (book.add d).2 := by
  cases hcompile : d.compile book.settings with
  | error e =>
    rw [add_of_compile_error hcompile]
    exact .malformed ((RuleDefinition.compile_eq_error_iff h e).1 hcompile)
  | ok rule =>
    have hwell := (RuleDefinition.wellFormed_iff h).2 ⟨rule, hcompile⟩
    rw [add_of_compile_ok hcompile]
    split
    case isTrue hmem => exact .duplicate hwell hmem
    case isFalse hnew => exact .taken hwell hnew

theorem add_of_due (h : ¬∃ rate, d.MeetsMinusZero rate) {answer : Except RuleError Unit}
    (hdue : d.Due book.settings book.ids answer) : (book.add d).2 = answer := by
  cases hdue with
  | malformed hmalformed =>
    exact add_of_compile_error ((RuleDefinition.compile_eq_error_iff h _).2 hmalformed)
  | taken hwell hnew =>
    obtain ⟨rule, hrule⟩ := (RuleDefinition.wellFormed_iff h).1 hwell
    rw [add_of_compile_ok hrule, if_neg hnew]
  | duplicate hwell hmem =>
    obtain ⟨rule, hrule⟩ := (RuleDefinition.wellFormed_iff h).1 hwell
    rw [add_of_compile_ok hrule, if_pos hmem]

/-- A book gives the answer that is due to every definition, unless it comes upon a zero with a
minus sign for a rate. It refuses this rate then. -/
theorem add_answers_due_iff (s : Settings) (edits : List Edit) (d : RuleDefinition) :
    let book := (empty s).run edits
    ((∀ answer, (book.add d).2 = answer ↔ d.Due s book.ids answer) ↔
      ¬∃ rate, d.MeetsMinusZero rate) ∧
    ∀ rate, d.MeetsMinusZero rate →
      (book.add d).2 = .error (.invalidAction d.id (.rateOutside rate)) := by
  intro book
  have hsettings : book.settings = s := (represents_log s edits).settings
  rw [← hsettings]
  refine ⟨⟨?_, ?_⟩, fun rate hrate => add_of_meetsMinusZero hrate book⟩
  · rintro hdue ⟨rate, hrate⟩
    have hanswer := (hdue _).1 (add_of_meetsMinusZero hrate book)
    obtain ⟨-, -, -, -, -, -, hzero⟩ := hrate
    cases hanswer with
    | malformed h => exact RuleDefinition.not_malformed_of_minusZero hzero h
  · intro h answer
    exact ⟨fun hanswer => hanswer ▸ due_add h, add_of_due h⟩

/-- The customer pays nothing, with a minus sign. -/
def free : RuleDefinition := .ofCondition "free" "true" (.percentage (Decimal.signZero 0))

/-- Documents hold such rates too. -/
example : (Decimal.ofJson? (.str "-0.1e-28")).map (·.minusZero) = some true := by decide +kernel

theorem wellFormed_free : free.WellFormed .standard where
  id := ⟨'f', by decide, by decide⟩
  window := nofun
  action := by
    intro leaf hleaf
    obtain rfl := List.mem_singleton.1 hleaf
    exact ⟨by decide +kernel, by decide +kernel⟩
  condition := ⟨_, Expr.ofText_true _⟩

theorem meetsMinusZero_free : free.MeetsMinusZero (Decimal.signZero 0) :=
  ⟨wellFormed_free.id, wellFormed_free.window, [], [], rfl, nofun, rfl⟩

theorem not_meetsMinusZero_yearEnd : ¬∃ rate, yearEnd.MeetsMinusZero rate := by
  rintro ⟨rate, -, -, hrate⟩
  refine Action.not_meetsMinusZero ?_ ⟨rate, hrate⟩
  simp [yearEnd, Action.singles, Action.singlesAll, Action.RateUnsigned]

theorem add_answers_due_iff_yearEnd :
    let book := (empty .standard).run sale
    yearEnd.Due .standard book.ids (book.add yearEnd).2 ∧
      (book.add free).2 = .error (.invalidAction "free" (.rateOutside (Decimal.signZero 0))) := by
  intro book
  obtain ⟨hdue, -⟩ := add_answers_due_iff .standard sale yearEnd
  obtain ⟨-, hrefused⟩ := add_answers_due_iff .standard sale free
  exact ⟨(hdue.2 not_meetsMinusZero_yearEnd _).1 rfl, hrefused _ meetsMinusZero_free⟩

/-- The definition `free` is well-formed, and a new book does not take it. -/
theorem not_add_answers_due : ¬ ∀ (s : Settings) (edits : List Edit) (d : RuleDefinition) answer,
    (((empty s).run edits).add d).2 = answer ↔ d.Due s ((empty s).run edits).ids answer := by
  intro h
  have hnew : free.id ∉ ((empty .standard).run []).ids := by simp [run, ids, empty]
  have htaken := (h .standard [] free (.ok ())).2 (.taken wellFormed_free hnew)
  rw [add_of_meetsMinusZero meetsMinusZero_free] at htaken
  cases htaken

end RuleBook

end Promotions
