import Mathlib.Data.List.Forall2
import Promotions.Proofs.Action.Valid
import Promotions.Rule.Compile

/-!
# Compiled rules

A definition compiles exactly if it passes its four checks, and the rule then holds the definition
itself beside the tree of its condition. So a rule can be had again from its own definition.
-/

namespace Promotions

namespace Instant

/-- Earlier in seconds, or in the same second not later in nanoseconds. -/
instance : LE Instant := ⟨fun a b => a.second < b.second ∨ a.second = b.second ∧ a.nano ≤ b.nano⟩

theorem not_lt_iff_le (a b : Instant) : ¬b < a ↔ a ≤ b := by
  change ¬(b.second < a.second ∨ b.second = a.second ∧ b.nano < a.nano) ↔
    a.second < b.second ∨ a.second = b.second ∧ a.nano ≤ b.nano
  omega

end Instant

theorem Expr.ofText_true (limit : Nat) : ofText limit "true" = .ok (.bool true) := by
  have hscan : Token.scan "true" = .ok [⟨.true, 0⟩, ⟨.endOfInput, 4⟩] := by decide +kernel
  rw [ofText, hscan]
  rfl

namespace RuleDefinition

theorem isWindowReversed_eq_false_iff (d : RuleDefinition) :
    d.isWindowReversed = false ↔
      ∀ start stop, d.validFrom = some start → d.validTo = some stop → start ≤ stop := by
  unfold isWindowReversed
  cases d.validFrom with
  | none => simp
  | some start =>
    cases d.validTo with
    | none => simp
    | some stop => simp [Instant.not_lt_iff_le]

/-- The rule is the definition with its condition read, and every check of the definition passes. -/
theorem compile_eq_ok_iff (s : Settings) (d : RuleDefinition) (rule : Rule) :
    d.compile s = .ok rule ↔
      rule.toRuleDefinition = d ∧ Text.isBlankText d.id = false ∧ d.isWindowReversed = false ∧
        d.action.check = .ok () ∧ Expr.ofText s.limit d.condition = .ok rule.expr := by
  unfold compile
  by_cases hid : Text.isBlankText d.id
  · simp [hid]
  by_cases hwindow : d.isWindowReversed
  · simp [hid, hwindow]
  rw [if_neg hid, if_neg hwindow]
  cases hcheck : d.action.check with
  | error fault => simp
  | ok u =>
    cases hread : Expr.ofText s.limit d.condition with
    | error e => simp
    | ok expr =>
      simp only [hid, hwindow, Except.ok.injEq, true_and]
      constructor
      · rintro rfl
        exact ⟨rfl, rfl⟩
      · rintro ⟨rfl, rfl⟩
        rfl

end RuleDefinition

namespace Rule

/-- The rule is what its own definition compiles to. -/
def Compiled (s : Settings) (rule : Rule) : Prop := rule.toRuleDefinition.compile s = .ok rule

variable {s : Settings} {rule : Rule}

theorem toRuleDefinition_of_compile {d : RuleDefinition} (h : d.compile s = .ok rule) :
    rule.toRuleDefinition = d :=
  ((RuleDefinition.compile_eq_ok_iff s d rule).1 h).1

theorem compiled_of_compile {d : RuleDefinition} (h : d.compile s = .ok rule) : rule.Compiled s := by
  unfold Compiled
  rwa [toRuleDefinition_of_compile h]

theorem Compiled.withEnabled (h : rule.Compiled s) (enabled : Bool) :
    { rule with enabled := enabled }.Compiled s := by
  unfold Compiled at h ⊢
  rw [RuleDefinition.compile_eq_ok_iff] at h ⊢
  exact ⟨rfl, h.2⟩

end Rule

namespace RuleDefinition

theorem compileAll_eq_ok_iff (s : Settings) (seen : List String) (ds : List RuleDefinition)
    (rules : List Rule) :
    compileAll s seen ds = .ok rules ↔
      List.Forall₂ (fun d rule => d.compile s = .ok rule) ds rules ∧ (ds.map (·.id)).Nodup ∧
        ∀ d ∈ ds, d.id ∉ seen := by
  induction ds generalizing seen rules with
  | nil => simp [compileAll, eq_comm]
  | cons d ds ih =>
    unfold compileAll
    by_cases hseen : d.id ∈ seen
    · simp [hseen]
    rw [if_neg hseen, List.map_cons, List.nodup_cons, List.forall_mem_cons]
    simp only [bind_eq_ok_iff, pure, Except.pure, Except.ok.injEq, ih, List.mem_map, List.mem_cons,
      not_or]
    constructor
    · rintro ⟨rule, hrule, rest, ⟨hrest, hnodup, hfresh⟩, rfl⟩
      refine ⟨.cons hrule hrest, ⟨?_, hnodup⟩, hseen, fun d' hd' => (hfresh d' hd').2⟩
      rintro ⟨d', hd', heq⟩
      exact (hfresh d' hd').1 heq
    · rintro ⟨hall, ⟨hfirst, hnodup⟩, -, hfresh⟩
      cases hall with
      | cons hrule hrest =>
        refine ⟨_, hrule, _, ⟨hrest, hnodup, fun d' hd' => ⟨?_, hfresh d' hd'⟩⟩, rfl⟩
        intro heq
        exact hfirst ⟨d', hd', heq⟩

end RuleDefinition

end Promotions
