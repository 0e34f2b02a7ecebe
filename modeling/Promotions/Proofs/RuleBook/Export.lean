import Promotions.Proofs.RuleBook.Invariant

/-!
# Export and import

The definitions of a book's rules, added as one batch to an empty book, give the rules again: each
rule comes from its own definition, no id is met twice, and the rules are in order already.
-/

namespace Promotions.RuleBook

/-- The rules as their author would write them, in the order of the book. -/
def definitions (book : RuleBook) : List RuleDefinition := book.rules.map (·.toRuleDefinition)

theorem entries_eq_of_rules_eq {book copy : RuleBook} (hrules : copy.rules = book.rules)
    (hsettings : copy.settings = book.settings) (r : Resolver) (now : Instant) :
    (copy.report r now).entries = (book.report r now).entries := by
  unfold report
  rw [hrules, hsettings]

theorem evaluate_eq_of_rules_eq {book copy : RuleBook} (hrules : copy.rules = book.rules)
    (hsettings : copy.settings = book.settings) (r : Resolver) (now : Instant) :
    copy.evaluate r now = book.evaluate r now := by
  unfold evaluate
  rw [hrules, hsettings]

theorem forall₂_compile_definitions {s : Settings} {rules : List Rule}
    (h : ∀ rule ∈ rules, rule.Compiled s) :
    List.Forall₂ (fun d rule => d.compile s = .ok rule) (rules.map (·.toRuleDefinition)) rules := by
  rw [List.forall₂_map_left_iff, List.forall₂_same]
  exact h

theorem addAll_empty {s : Settings} {ds : List RuleDefinition} {rules : List Rule}
    (hds : List.Forall₂ (fun d rule => d.compile s = .ok rule) ds rules)
    (hnodup : (rules.map (·.id)).Nodup) (hfalling : Falling rules) :
    ((empty s).addAll ds).2 = .ok () ∧ ((empty s).addAll ds).1.rules = rules ∧
      ((empty s).addAll ds).1.settings = s := by
  have hamend : (Edit.addAll ds).amend? (empty s).settings (empty s).rules = some rules :=
    (Edit.amend?_eq_some_iff s [] _ rules).2 (.addAll hds hnodup)
  rcases addAll_cases (empty s) List.nodup_nil ds with ⟨hnone, -⟩ | ⟨batch, hsome, hbook⟩
  · rw [hnone] at hamend
    simp at hamend
  · rw [hsome] at hamend
    obtain rfl := Option.some.inj hamend
    rw [hbook]
    cases hds with
    | nil => exact ⟨rfl, rfl, rfl⟩
    | cons hrule hrest => exact ⟨rfl, byPriority_of_falling hfalling, rfl⟩

/-- Importing the exported definitions of a book into an empty book of the same settings succeeds
and gives the same rules in the same order, so every evaluation has the same trace. -/
theorem addAll_definitions (s : Settings) (edits : List Edit) :
    let book := (empty s).run edits
    let copy := (empty s).addAll book.definitions
    copy.2 = .ok () ∧ copy.1.rules = book.rules ∧
      ∀ (r : Resolver) (now : Instant),
        (copy.1.report r now).entries = (book.report r now).entries ∧
          copy.1.evaluate r now = book.evaluate r now := by
  intro book copy
  have hconsistent : Edit.Consistent s book.rules := consistent_run s edits
  obtain ⟨hok, hrules, hsettings⟩ := addAll_empty
    (forall₂_compile_definitions hconsistent.compiled) hconsistent.nodup (falling_run s edits)
  have hsame : copy.1.settings = book.settings :=
    hsettings.trans (represents_log s edits).settings.symm
  refine ⟨hok, hrules, fun r now => ⟨entries_eq_of_rules_eq hrules hsame r now, ?_⟩⟩
  exact evaluate_eq_of_rules_eq hrules hsame r now

/-- A rule that is turned off after another came in. -/
def preview : List Edit :=
  [.add earlyBird, .add (RuleDefinition.ofCondition "late" "true" (.points 1)),
   .setEnabled "early-bird" false]

/-- The rule is off in the copy too. -/
theorem addAll_definitions_preview :
    let copy := (empty .standard).addAll ((empty .standard).run preview).definitions
    copy.2 = .ok () ∧ copy.1.ids = ["early-bird", "late"] ∧
      copy.1.rules.map (·.enabled) = [false, true] := by
  intro copy
  obtain ⟨hok, hrules, -⟩ := addAll_definitions .standard preview
  have hfalling : Falling (Edit.log .standard preview) := by
    unfold Falling
    decide +kernel
  rw [rules_run_of_falling hfalling] at hrules
  refine ⟨hok, ?_, ?_⟩
  · rw [ids, hrules]
    decide +kernel
  · rw [hrules]
    decide +kernel

end Promotions.RuleBook
