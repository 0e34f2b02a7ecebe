import Promotions.Proofs.RuleBook.History

/-!
# What holds of every book

A book is only ever changed by edits. So the rules of a book have distinct ids that are not blank,
stand by falling priority, and are what their definitions compile to: the condition is the text
that was read, the action is valid, and the window is not reversed.
-/

namespace Promotions

/-! ## Compiled rules -/

namespace Rule

variable {s : Settings} {rule : Rule}

theorem Compiled.id_not_blank (h : rule.Compiled s) :
    ∃ c ∈ rule.id.toList, Text.isBlank c = false := by
  obtain ⟨-, hblank, -⟩ := (RuleDefinition.compile_eq_ok_iff s _ rule).1 h
  unfold Text.isBlankText at hblank
  simpa using hblank

theorem Compiled.expr_eq (h : rule.Compiled s) :
    Expr.ofText s.limit rule.condition = .ok rule.expr :=
  ((RuleDefinition.compile_eq_ok_iff s _ rule).1 h).2.2.2.2

theorem Compiled.valid (h : rule.Compiled s) : rule.action.Valid :=
  Action.valid_of_check ((RuleDefinition.compile_eq_ok_iff s _ rule).1 h).2.2.2.1

theorem Compiled.window (h : rule.Compiled s) :
    ∀ start stop, rule.validFrom = some start → rule.validTo = some stop → start ≤ stop := by
  obtain ⟨-, -, hwindow, -⟩ := (RuleDefinition.compile_eq_ok_iff s _ rule).1 h
  exact (RuleDefinition.isWindowReversed_eq_false_iff rule.toRuleDefinition).1 hwindow

end Rule

namespace RuleBook

/-! ## Every session -/

theorem consistent_run (s : Settings) (edits : List Edit) :
    Edit.Consistent s ((empty s).run edits).rules := by
  have h := represents_log s edits
  exact h.consistent.perm h.sameRanks.perm.symm

theorem falling_run (s : Settings) (edits : List Edit) : Falling ((empty s).run edits).rules := by
  rw [(represents_log s edits).sorted]
  exact falling_byPriority _

theorem rules_run_of_falling {s : Settings} {edits : List Edit} (h : Falling (Edit.log s edits)) :
    ((empty s).run edits).rules = Edit.log s edits := by
  rw [(represents_log s edits).sorted, byPriority_of_falling h]

/-- The invariant of books. -/
theorem run_invariant (s : Settings) (edits : List Edit) :
    let book := (empty s).run edits
    (book.ids.Nodup ∧ ∀ rule ∈ book.rules, ∃ c ∈ rule.id.toList, Text.isBlank c = false) ∧
    (book.rules.Pairwise fun a b => b.priority ≤ a.priority) ∧
    ∀ rule ∈ book.rules,
      Expr.ofText s.limit rule.condition = .ok rule.expr ∧ rule.action.Valid ∧
        ∀ start stop, rule.validFrom = some start → rule.validTo = some stop → start ≤ stop := by
  intro book
  have h : Edit.Consistent s book.rules := consistent_run s edits
  refine ⟨⟨h.nodup, ?_⟩, falling_run s edits, ?_⟩
  · intro rule hrule
    exact (h.compiled rule hrule).id_not_blank
  · intro rule hrule
    have hcompiled := h.compiled rule hrule
    exact ⟨hcompiled.expr_eq, hcompiled.valid, hcompiled.window⟩

/-- A gift and a fixed price, on the first two days of 1970. -/
def earlyBird : RuleDefinition :=
  ((RuleDefinition.ofCondition "early-bird" "not not vip"
      (.all [.best [.fixedPrice 1], .gift "mug" 2])).withPriority 3).withWindow
    (some ⟨0, 0, by decide⟩) (some ⟨172800, 0, by decide⟩)

/-- Two rules, the second of which is turned off. An id that is taken is refused. -/
def sale : List Edit :=
  [.add (RuleDefinition.ofCondition "late" "true" (.points 1)), .add earlyBird,
   .add (RuleDefinition.ofCondition "late" "false" (.points 5)), .setEnabled "early-bird" false]

theorem windows_sale :
    (Edit.log .standard sale).map (fun rule => (rule.id, rule.validFrom, rule.validTo)) =
      [("late", none, none), ("early-bird", earlyBird.validFrom, earlyBird.validTo)] := by
  decide +kernel

theorem run_invariant_sale :
    ∃ rule ∈ ((empty .standard).run sale).rules, rule.id = "early-bird" ∧
      Expr.ofText 64 rule.condition = .ok rule.expr ∧ rule.action.Valid ∧
      (⟨0, 0, by decide⟩ : Instant) ≤ ⟨172800, 0, by decide⟩ := by
  have hlog : ("early-bird", earlyBird.validFrom, earlyBird.validTo) ∈
      (Edit.log .standard sale).map fun rule => (rule.id, rule.validFrom, rule.validTo) := by
    rw [windows_sale]
    simp
  obtain ⟨rule, hrule, heq⟩ := List.mem_map.1 hlog
  have hmem : rule ∈ ((empty .standard).run sale).rules :=
    ((represents_log .standard sale).sameRanks.mem_iff rule).2 hrule
  obtain ⟨hread, hvalid, hwindow⟩ := (run_invariant .standard sale).2.2 rule hmem
  simp only [Prod.mk.injEq] at heq
  exact ⟨rule, hmem, heq.1, hread, hvalid, hwindow _ _ heq.2.1 heq.2.2⟩

end RuleBook

end Promotions
