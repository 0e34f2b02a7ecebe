import Mathlib.Data.List.Nodup
import Promotions.Proofs.RuleBook.Batch
import Promotions.Proofs.RuleBook.Export

/-!
# The order of arrival

Definitions come to a book one by one or in batches. However a list of them is cut up, it leaves the
log that it leaves as one batch. And since the book sorts its rules by priority, it does not matter
which of two definitions came first unless their priorities are equal.
-/

namespace Promotions

namespace RuleDefinition

/-- The same definitions, with those of equal priority in the same order. -/
structure Rearranged (ds ds' : List RuleDefinition) : Prop where
  perm : ds.Perm ds'
  tied : ∀ a b, a.priority = b.priority → [a, b].Sublist ds → [a, b].Sublist ds'

theorem Rearranged.move_last {d : RuleDefinition} {ds : List RuleDefinition}
    (h : ∀ x ∈ ds, d.priority ≠ x.priority) : Rearranged (d :: ds) (ds ++ [d]) where
  perm := (List.perm_append_singleton d ds).symm
  tied a b hpriority hsub := by
    cases hsub with
    | cons _ hsub => exact hsub.trans (List.sublist_append_left ds [d])
    | cons_cons _ hb => exact absurd hpriority (h b (hb.subset List.mem_cons_self))

theorem eq_of_sublist_pairs {α : Type*} {xs : List α} (hnodup : xs.Nodup) {a b : α}
    (hab : [a, b].Sublist xs) (hba : [b, a].Sublist xs) : a = b := by
  induction xs with
  | nil => cases hab
  | cons x xs ih =>
    rw [List.nodup_cons] at hnodup
    cases hab with
    | cons _ hab =>
      cases hba with
      | cons _ hba => exact ih hnodup.2 hab hba
      | cons_cons _ _ => exact absurd (hab.subset (by simp)) hnodup.1
    | cons_cons _ _ =>
      cases hba with
      | cons _ hba => exact absurd (hba.subset (by simp)) hnodup.1
      | cons_cons _ _ => rfl

theorem Rearranged.filter_priority {ds ds' : List RuleDefinition} (h : Rearranged ds ds')
    (hnodup : ds.Nodup) (p : Int32) :
    ds.filter (·.priority = p) = ds'.filter (·.priority = p) := by
  have hnodup' : (ds'.filter (·.priority = p)).Nodup := (h.perm.nodup_iff.1 hnodup).filter _
  -- Both lists are in the order of the second, and no order has two arrangements.
  refine List.Perm.eq_of_pairwise (fun a b _ _ hab hba => eq_of_sublist_pairs hnodup' hab hba) ?_
    (List.pairwise_iff_forall_sublist.2 fun h => h) (h.perm.filter _)
  rw [List.pairwise_iff_forall_sublist]
  intro a b hab
  have hpair : ∀ d ∈ [a, b], decide (d.priority = p) = true := fun d hd =>
    (List.mem_filter.1 (hab.subset hd)).2
  have htied : a.priority = b.priority := by simp_all
  have hsub := (h.tied a b htied (hab.trans List.filter_sublist)).filter (·.priority = p)
  rwa [List.filter_eq_self.2 hpair] at hsub

theorem Rearranged.sameRanks {s : Settings} {ds ds' : List RuleDefinition}
    {rules rules' : List Rule} (h : Rearranged ds ds') (hnodup : ds.Nodup)
    (hds : List.Forall₂ (fun d rule => d.compile s = .ok rule) ds rules)
    (hds' : List.Forall₂ (fun d rule => d.compile s = .ok rule) ds' rules') :
    RuleBook.SameRanks rules rules' := by
  intro p
  have hranks : ∀ ds rules, List.Forall₂ (fun d rule => compile s d = .ok rule) ds rules →
      List.Forall₂ (fun d rule => compile s d = .ok rule) (ds.filter (·.priority = p))
        (RuleBook.ofPriority p rules) := by
    intro ds rules hds
    refine List.rel_filter (fun d rule hrule => ?_) hds
    rw [← Rule.toRuleDefinition_of_compile hrule]
  have hrules := hranks ds rules hds
  rw [h.filter_priority hnodup] at hrules
  have hrules' := hranks ds' rules' hds'
  refine List.right_unique_forall₂' (fun d rule rule' hrule hrule' => ?_) hrules hrules'
  exact Except.ok.inj (hrule.symm.trans hrule')

theorem exists_forall₂_compile {s : Settings} {ds : List RuleDefinition}
    (h : ∀ d ∈ ds, ∃ rule, d.compile s = .ok rule) :
    ∃ rules, List.Forall₂ (fun d rule => d.compile s = .ok rule) ds rules := by
  induction ds with
  | nil => exact ⟨[], .nil⟩
  | cons d ds ih =>
    obtain ⟨⟨rule, hrule⟩, hds⟩ := List.forall_mem_cons.1 h
    obtain ⟨rules, hrules⟩ := ih hds
    exact ⟨rule :: rules, .cons hrule hrules⟩

end RuleDefinition

namespace Edit

/-- The edits add `ds`, some definitions alone and some as part of a batch. -/
inductive Delivers : List Edit → List RuleDefinition → Prop where
  | nil : Delivers [] []
  | add {edits : List Edit} {ds : List RuleDefinition} (d : RuleDefinition)
      (h : Delivers edits ds) : Delivers (.add d :: edits) (d :: ds)
  | addAll {edits : List Edit} {ds : List RuleDefinition} (batch : List RuleDefinition)
      (h : Delivers edits ds) : Delivers (.addAll batch :: edits) (batch ++ ds)

variable {s : Settings} {log log' : List Rule}

theorem amends_addAll_append_iff {xs ys : List RuleDefinition} :
    Amends s log (.addAll (xs ++ ys)) log' ↔
      ∃ mid, Amends s log (.addAll xs) mid ∧ Amends s mid (.addAll ys) log' := by
  induction xs generalizing log with
  | nil =>
    constructor
    · rintro (_ | ⟨hds, hnodup⟩)
      have hlog : (log.map (·.id)).Nodup := hnodup.sublist ((List.sublist_append_left _ _).map _)
      have hnone : Amends s log (.addAll []) (log ++ []) :=
        .addAll .nil (by rwa [List.append_nil])
      rw [List.append_nil] at hnone
      exact ⟨log, hnone, .addAll hds hnodup⟩
    · rintro ⟨mid, hnone, hrest⟩
      obtain rfl : mid = log := hnone.eq_of_isVoid rfl
      exact hrest
  | cons d xs ih =>
    rw [List.cons_append]
    simp only [amends_addAll_cons_iff, ih]
    constructor
    · rintro ⟨first, hadd, mid, hxs, hys⟩
      exact ⟨mid, ⟨first, hadd, hxs⟩, hys⟩
    · rintro ⟨mid, ⟨first, hadd, hxs⟩, hys⟩
      exact ⟨first, hadd, mid, hxs, hys⟩

end Edit

namespace RuleBook

variable {book : RuleBook} {s : Settings} {log log' : List Rule}

/-- What a log takes as one batch, the book takes in any other way too. -/
theorem Represents.delivers (h : book.Represents s log) {edits : List Edit}
    {ds : List RuleDefinition} (hedits : Edit.Delivers edits ds)
    (hds : Edit.Amends s log (.addAll ds) log') :
    (∀ answer ∈ book.answers edits, answer.isSuccess = true) ∧
      (book.run edits).Represents s log' := by
  induction hedits generalizing book log with
  | nil =>
    obtain rfl : log' = log := hds.eq_of_isVoid rfl
    exact ⟨by simp [answers], h⟩
  | add d _ ih =>
    obtain ⟨mid, hadd, hrest⟩ := Edit.amends_addAll_cons_iff.1 hds
    obtain ⟨hanswers, hbook⟩ := ih (h.perform_of_amends hadd) hrest
    rw [answers, List.forall_mem_cons]
    exact ⟨⟨(h.isSuccess_iff (.add d)).2 ⟨mid, hadd⟩, hanswers⟩, hbook⟩
  | addAll batch _ ih =>
    obtain ⟨mid, hbatch, hrest⟩ := Edit.amends_addAll_append_iff.1 hds
    obtain ⟨hanswers, hbook⟩ := ih (h.perform_of_amends hbatch) hrest
    rw [answers, List.forall_mem_cons]
    exact ⟨⟨(h.isSuccess_iff (.addAll batch)).2 ⟨mid, hbatch⟩, hanswers⟩, hbook⟩

theorem amends_empty {ds : List RuleDefinition} (hids : (ds.map (·.id)).Nodup)
    (hcompile : ∀ d ∈ ds, ∃ rule, d.compile s = .ok rule) :
    ∃ rules, List.Forall₂ (fun d rule => d.compile s = .ok rule) ds rules ∧
      Edit.Amends s [] (.addAll ds) rules := by
  obtain ⟨rules, hrules⟩ := RuleDefinition.exists_forall₂_compile hcompile
  exact ⟨rules, hrules, .addAll hrules (Edit.ids_of_forall₂ hrules ▸ hids)⟩

/-- Definitions that compile and have different ids leave the same rules in every order that keeps
the order of equal priorities, and however they are cut into batches. No step of it is refused, and
every evaluation is the same. -/
theorem rules_of_rearranged (s : Settings) (ds ds' : List RuleDefinition) (edits edits' : List Edit)
    (hids : (ds.map (·.id)).Nodup) (hcompile : ∀ d ∈ ds, ∃ rule, d.compile s = .ok rule)
    (horder : RuleDefinition.Rearranged ds ds')
    (hedits : Edit.Delivers edits ds) (hedits' : Edit.Delivers edits' ds') :
    let book := (empty s).run edits
    let book' := (empty s).run edits'
    (∀ answer ∈ (empty s).answers edits ++ (empty s).answers edits', answer.isSuccess = true) ∧
    book.rules = book'.rules ∧
    ∀ (r : Resolver) (now : Instant),
      book.evaluate r now = book'.evaluate r now ∧
        (book.report r now).entries = (book'.report r now).entries := by
  intro book book'
  have hids' : (ds'.map (·.id)).Nodup := (horder.perm.map _).nodup_iff.1 hids
  have hcompile' : ∀ d ∈ ds', ∃ rule, d.compile s = .ok rule := fun d hd =>
    hcompile d (horder.perm.mem_iff.2 hd)
  obtain ⟨rules, hrules, hds⟩ := amends_empty hids hcompile
  obtain ⟨rules', hrules', hds'⟩ := amends_empty hids' hcompile'
  obtain ⟨hanswers, hbook⟩ := (represents_empty s).delivers hedits hds
  obtain ⟨hanswers', hbook'⟩ := (represents_empty s).delivers hedits' hds'
  have hsame : book.rules = book'.rules := by
    rw [hbook.sorted, hbook'.sorted]
    exact byPriority_congr (horder.sameRanks (List.Nodup.of_map _ hids) hrules hrules')
  have hsettings : book.settings = book'.settings := hbook.settings.trans hbook'.settings.symm
  refine ⟨List.forall_mem_append.2 ⟨hanswers, hanswers'⟩, hsame, fun r now => ⟨?_, ?_⟩⟩
  · exact evaluate_eq_of_rules_eq hsame hsettings r now
  · exact entries_eq_of_rules_eq hsame hsettings r now

/-- The student comes first and alone, or last after a batch of the other two. -/
theorem rules_of_rearranged_student :
    let student := RuleDefinition.ofCondition "student" "age < 26" (.points 2)
    let member := (RuleDefinition.ofCondition "member" "not guest" (.fixedDiscount 1)).withPriority 3
    let book := (empty .standard).run [.add student, .add member, .addAll [earlyBird]]
    let book' := (empty .standard).run [.addAll [member, earlyBird], .addAll [], .add student]
    book.rules = book'.rules ∧ book.ids = ["member", "early-bird", "student"] := by
  intro student member book book'
  have hcompile : ∀ d ∈ [student, member, earlyBird], ∃ rule, d.compile .standard = .ok rule := by
    have hall : ∀ d ∈ [student, member, earlyBird], (d.compile .standard).toBool = true := by
      decide +kernel
    intro d hd
    have hd := hall d hd
    cases hrule : d.compile .standard with
    | error e => simp [hrule, Except.toBool] at hd
    | ok rule => exact ⟨rule, rfl⟩
  have horder : RuleDefinition.Rearranged (student :: [member, earlyBird])
      ([member, earlyBird] ++ [student]) := .move_last (by decide)
  have hrules : book.rules = book'.rules :=
    (rules_of_rearranged .standard _ _ _ _ (by decide) hcompile horder
      (.add _ (.add _ (.addAll _ .nil))) (.addAll _ (.addAll _ (.add _ .nil)))).2.1
  have hfalling : Falling (Edit.log .standard
      [.addAll [member, earlyBird], .addAll [], .add student]) := by
    unfold Falling
    decide +kernel
  refine ⟨hrules, ?_⟩
  rw [ids, hrules, rules_run_of_falling hfalling]
  decide +kernel

end RuleBook

end Promotions
