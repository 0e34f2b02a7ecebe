import Promotions.Proofs.RuleBook.Invariant

/-!
# Batches

A batch is checked as a whole before any of it goes in, and the rules are put in order once. Rules
that are added one by one are checked and put in order each time. Both ways take the same
definitions and leave the same rules, since both stand for the same log.
-/

namespace Promotions

namespace Edit

theorem Answer.isSuccess_checked_iff (result : Except RuleError Unit) :
    (checked result).isSuccess = true ↔ result = .ok () := by
  cases result <;> simp [isSuccess]

theorem amends_addAll_cons_iff {s : Settings} {log log' : List Rule} {d : RuleDefinition}
    {ds : List RuleDefinition} :
    Amends s log (.addAll (d :: ds)) log' ↔
      ∃ mid, Amends s log (.add d) mid ∧ Amends s mid (.addAll ds) log' := by
  constructor
  · rintro (_ | ⟨hds, hnodup⟩)
    cases hds with
    | @cons _ rule _ batch hrule hrest =>
      have hnew : rule.id ∉ log.map (·.id) := by
        rw [List.map_append, List.nodup_append] at hnodup
        exact fun hmem => hnodup.2.2 rule.id hmem rule.id (by simp) rfl
      rw [List.append_cons] at hnodup ⊢
      exact ⟨_, .add hrule hnew, .addAll hrest hnodup⟩
  · rintro ⟨mid, hadd, hrest⟩
    obtain ⟨hrule, -⟩ := hadd
    obtain _ | ⟨hds, hnodup⟩ := hrest
    rw [← List.append_cons] at hnodup ⊢
    exact .addAll (.cons hrule hds) hnodup

end Edit

namespace RuleBook

/-- What the book answers to the edits of a session, one after the other. -/
def answers (book : RuleBook) : List Edit → List Edit.Answer
  | [] => []
  | edit :: edits => (book.perform edit).2 :: answers (book.perform edit).1 edits

theorem version_add {book : RuleBook} {d : RuleDefinition} (h : (book.add d).2 = .ok ()) :
    (book.add d).1.version = book.version + 1 := by
  rcases add_cases book d with ⟨-, e, hbook⟩ | ⟨rules, -, hbook⟩
  · simp [hbook] at h
  · rw [hbook]
    rfl

namespace Represents

variable {book : RuleBook} {s : Settings} {log log' : List Rule} {ds : List RuleDefinition}

theorem isSuccess_iff (h : book.Represents s log) (edit : Edit) :
    (book.perform edit).2.isSuccess = true ↔ ∃ rules, Edit.Amends s log edit rules := by
  rw [(h.perform edit).2, Option.isSome_iff_exists]
  simp only [Edit.amend?_eq_some_iff]

theorem addAll_eq_ok_iff (h : book.Represents s log) (ds : List RuleDefinition) :
    (book.addAll ds).2 = .ok () ↔ ((Edit.addAll ds).amend? s log).isSome = true := by
  rw [← (h.perform (.addAll ds)).2]
  exact (Edit.Answer.isSuccess_checked_iff _).symm

theorem perform_of_amends (h : book.Represents s log) {edit : Edit}
    (hedit : Edit.Amends s log edit log') : (book.perform edit).1.Represents s log' := by
  have hlog : edit.amend s log = log' := by
    rw [Edit.amend, (Edit.amend?_eq_some_iff s log edit log').2 hedit, Option.getD_some]
  exact hlog ▸ (h.perform edit).1

theorem addEach_iff (h : book.Represents s log) (ds : List RuleDefinition) :
    (∀ answer ∈ book.answers (ds.map .add), answer.isSuccess = true) ↔
      ∃ rules, Edit.Amends s log (.addAll ds) rules := by
  induction ds generalizing book log with
  | nil =>
    have hnone : Edit.Amends s log (.addAll []) (log ++ []) :=
      .addAll .nil (by simpa using h.consistent.nodup)
    exact ⟨fun _ => ⟨_, hnone⟩, fun _ => by simp [answers]⟩
  | cons d ds ih =>
    rw [List.map_cons, answers, List.forall_mem_cons, h.isSuccess_iff]
    simp only [Edit.amends_addAll_cons_iff]
    constructor
    · rintro ⟨⟨mid, hadd⟩, hrest⟩
      obtain ⟨rules, hrules⟩ := (ih (h.perform_of_amends hadd)).1 hrest
      exact ⟨rules, mid, hadd, hrules⟩
    · rintro ⟨rules, mid, hadd, hrules⟩
      exact ⟨⟨mid, hadd⟩, (ih (h.perform_of_amends hadd)).2 ⟨rules, hrules⟩⟩

theorem run_addEach (h : book.Represents s log) (hds : Edit.Amends s log (.addAll ds) log') :
    (book.run (ds.map .add)).Represents s log' ∧
      (book.run (ds.map .add)).version = book.version + ds.length := by
  induction ds generalizing book log with
  | nil =>
    obtain rfl : log' = log := hds.eq_of_isVoid rfl
    exact ⟨h, rfl⟩
  | cons d ds ih =>
    obtain ⟨mid, hadd, hrest⟩ := Edit.amends_addAll_cons_iff.1 hds
    obtain ⟨hlog, hversion⟩ := ih (h.perform_of_amends hadd) hrest
    have hok : (book.add d).2 = .ok () :=
      (Edit.Answer.isSuccess_checked_iff _).1 ((h.isSuccess_iff (.add d)).2 ⟨mid, hadd⟩)
    refine ⟨hlog, hversion.trans ?_⟩
    rw [RuleBook.perform, version_add hok, List.length_cons]
    omega

end Represents

/-- A batch is taken exactly if its definitions are taken one by one. Both ways leave the same
rules, and a refused batch leaves the book as it was. -/
theorem addAll_iff_adding_each (s : Settings) (edits : List Edit) (ds : List RuleDefinition) :
    let book := (empty s).run edits
    let batch := book.addAll ds
    let single := book.run (ds.map .add)
    (batch.2 = .ok () ↔ ∀ answer ∈ book.answers (ds.map .add), answer.isSuccess = true) ∧
    (batch.2 = .ok () →
      batch.1.rules = single.rules ∧
      batch.1.version = book.version + (if ds = [] then 0 else 1) ∧
      single.version = book.version + ds.length) ∧
    (batch.2 ≠ .ok () → batch.1 = book) := by
  intro book batch single
  have h : book.Represents s (Edit.log s edits) := represents_log s edits
  have hiff : batch.2 = .ok () ↔ ∃ rules, Edit.Amends s (Edit.log s edits) (.addAll ds) rules := by
    rw [← Edit.Answer.isSuccess_checked_iff]
    exact h.isSuccess_iff (.addAll ds)
  refine ⟨hiff.trans (h.addEach_iff ds).symm, fun hok => ?_, fun hfail => ?_⟩
  · obtain ⟨rules, hrules⟩ := hiff.1 hok
    obtain ⟨hsingle, hversion⟩ := h.run_addEach hrules
    have hbatch : batch.1.Represents s rules := h.perform_of_amends hrules
    refine ⟨hbatch.sorted.trans hsingle.sorted.symm, ?_, hversion⟩
    rcases addAll_cases book h.nodup ds with ⟨-, e, hbook⟩ | ⟨sorted, -, hbook⟩
    · simp [batch, hbook] at hok
    · cases ds <;> simp [batch, hbook, publish]
  · rcases addAll_cases book h.nodup ds with ⟨-, e, hbook⟩ | ⟨sorted, -, hbook⟩
    · exact congrArg Prod.fst hbook
    · exact absurd (congrArg Prod.snd hbook) hfail

/-- Two rules, the second of the priority of `earlyBird`. -/
def lateAdditions : List RuleDefinition :=
  [RuleDefinition.ofCondition "student" "age < 26" (.points 2),
   (RuleDefinition.ofCondition "member" "not guest" (.fixedDiscount 1)).withPriority 3]

theorem addAll_lateAdditions_sale :
    (((empty .standard).run sale).addAll lateAdditions).2 = .ok () := by
  rw [(represents_log .standard sale).addAll_eq_ok_iff]
  decide +kernel

theorem addAll_taken_sale :
    (((empty .standard).run sale).addAll (lateAdditions ++ [earlyBird])).2 ≠ .ok () := by
  rw [ne_eq, (represents_log .standard sale).addAll_eq_ok_iff]
  decide +kernel

theorem addAll_iff_adding_each_sale :
    let book := (empty .standard).run sale
    let batch := book.addAll lateAdditions
    let single := book.run (lateAdditions.map .add)
    batch.2 = .ok () ∧ batch.1.rules = single.rules ∧ batch.1.version = book.version + 1 ∧
      single.version = book.version + 2 ∧
      (book.addAll (lateAdditions ++ [earlyBird])).1 = book := by
  intro book batch single
  obtain ⟨-, hsame, -⟩ := addAll_iff_adding_each .standard sale lateAdditions
  obtain ⟨-, -, hrefused⟩ := addAll_iff_adding_each .standard sale (lateAdditions ++ [earlyBird])
  obtain ⟨hrules, hbatch, hsingle⟩ := hsame addAll_lateAdditions_sale
  exact ⟨addAll_lateAdditions_sale, hrules, hbatch, hsingle, hrefused addAll_taken_sale⟩

end RuleBook

end Promotions
