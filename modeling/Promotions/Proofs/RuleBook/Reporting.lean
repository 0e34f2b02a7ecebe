import Promotions.Proofs.RuleBook.Evaluation

/-!
# Evaluation and report

The results of a book and its report come from one pass over the rules, whether the pass notes only
the rewards or an entry for every rule as well. An entry is found by its id because no two rules of
a book share one. Matched and failed rules are what is left of the entries without the rules that
were passed over.
-/

namespace Promotions

theorem Reward.addWorth_eq_foldl (sum : Decimal) (rewards : List Reward) :
    addWorth sum rewards =
      rewards.foldl (fun total reward => total.saturatingAdd reward.worth) sum := by
  induction rewards generalizing sum with
  | nil => rfl
  | cons reward rewards ih => rw [addWorth, ih, List.foldl_cons]

/-! ## Passes that take notes -/

/-- The pass over the rules, with each rule and its outcome shown to `note` in turn. -/
def Rule.pass {σ : Type} (r : Resolver) (s : Settings) (now : Instant)
    (note : σ → Rule → Outcome → σ) (taken : Bool) (noted : σ) : List Rule → σ
  | [] => noted
  | rule :: rules =>
    let o := rule.outcome r s now taken
    pass r s now note (taken || rule.exclusive && o.isMatch) (note noted rule o) rules

namespace Report

def noteReward (rewards : List Reward) (_ : Rule) : Outcome → List Reward
  | .matched reward => rewards ++ [reward]
  | _ => rewards

def noteEntry (noted : List Reward × List Entry) (rule : Rule) (o : Outcome) :
    List Reward × List Entry :=
  (noteReward noted.1 rule o, noted.2 ++ [⟨rule.id, rule.priority, o⟩])

theorem noteReward_eq (rewards : List Reward) (rule : Rule) (o : Outcome) :
    noteReward rewards rule o = rewards ++ o.reward?.toList := by
  cases o <;> simp [noteReward, Outcome.reward?]

variable {r : Resolver} {s : Settings} {now : Instant}

theorem pass_noteReward (taken : Bool) (rewards : List Reward) (rules : List Rule) :
    Rule.pass r s now noteReward taken rewards rules =
      rewards ++ (Rule.outcomes r s now taken rules).filterMap Outcome.reward? := by
  induction rules generalizing taken rewards with
  | nil => exact (List.append_nil rewards).symm
  | cons rule rules ih =>
    rw [Rule.pass, ih, noteReward_eq, Rule.outcomes_cons, List.append_assoc]
    cases h : (rule.outcome r s now taken).reward? <;> simp [h]

theorem pass_noteEntry (taken : Bool) (noted : List Reward × List Entry) (rules : List Rule) :
    Rule.pass r s now noteEntry taken noted rules =
      (Rule.pass r s now noteReward taken noted.1 rules,
        noted.2 ++ (rules.zip (Rule.outcomes r s now taken rules)).map
          fun (rule, o) => ⟨rule.id, rule.priority, o⟩) := by
  induction rules generalizing taken noted with
  | nil => simp [Rule.pass]
  | cons rule rules ih =>
    rw [Rule.pass, ih, Rule.pass]
    simp [noteEntry]

/-! ## Entries by id -/

variable {report : Report} {entry : Entry}

theorem outcome?_of_mem (hids : (report.entries.map (·.ruleId)).Nodup)
    (hmem : entry ∈ report.entries) : report.outcome? entry.ruleId = some entry.outcome := by
  obtain ⟨i, hlt, rfl⟩ := List.mem_iff_getElem.1 hmem
  have hfirst : report.entries.find? (·.ruleId = report.entries[i].ruleId) =
      some report.entries[i] := by
    rw [List.find?_eq_some_iff_getElem]
    refine ⟨by simp, i, hlt, rfl, fun j hj => ?_⟩
    have hne := List.pairwise_iff_getElem.1 (List.pairwise_map.1 hids) j i (by omega) hlt hj
    simpa using hne
  unfold outcome?
  rw [hfirst, Option.map_some]

theorem outcome?_eq_none (ruleId : String) (h : ruleId ∉ report.entries.map (·.ruleId)) :
    report.outcome? ruleId = none := by
  unfold outcome?
  rw [Option.map_eq_none_iff, List.find?_eq_none]
  intro entry hmem
  rw [decide_eq_true_eq]
  rintro rfl
  exact h (List.mem_map_of_mem hmem)

/-! ## Matched and failed rules -/

theorem ruleId_mem_matched_iff (hids : (report.entries.map (·.ruleId)).Nodup)
    (hmem : entry ∈ report.entries) :
    entry.ruleId ∈ report.matched ↔ entry.outcome.isMatch = true := by
  unfold matched
  rw [List.mem_map]
  constructor
  · rintro ⟨other, hother, hid⟩
    rw [List.mem_filter] at hother
    have hsame := outcome?_of_mem hids hother.1
    rw [hid, outcome?_of_mem hids hmem, Option.some.injEq] at hsame
    rw [hsame]
    exact hother.2
  · exact fun hmatch => ⟨entry, List.mem_filter.2 ⟨hmem, hmatch⟩, rfl⟩

theorem mem_errors_iff (hmem : entry ∈ report.entries) :
    entry ∈ report.errors ↔ entry.outcome.isError = true := by
  unfold errors
  rw [List.mem_filter, and_iff_right hmem]

theorem matched_sublist (report : Report) :
    report.matched.Sublist (report.entries.map (·.ruleId)) :=
  List.filter_sublist.map _

theorem errors_sublist (report : Report) : report.errors.Sublist report.entries :=
  List.filter_sublist

end Report

namespace Outcome

theorem isMatch_or_isError_iff (o : Outcome) :
    (o.isMatch = true ∨ o.isError = true) ↔
      o ≠ .notMatched ∧ ∀ reason, o ≠ .skipped reason := by
  cases o <;> simp [isMatch, isError]

theorem not_isMatch_and_isError (o : Outcome) : ¬(o.isMatch = true ∧ o.isError = true) := by
  cases o <;> simp [isMatch, isError]

theorem map_matched_rewards (os : List Outcome) :
    (os.filterMap reward?).map matched = os.filter isMatch := by
  induction os with
  | nil => rfl
  | cons o os ih =>
    rw [List.filterMap_cons, List.filter_cons]
    cases o with
    | matched reward => exact congrArg (matched reward :: ·) ih
    | _ => exact ih

end Outcome

namespace RuleBook

/-! ## The report of a book -/

theorem ruleIds_report (book : RuleBook) (r : Resolver) (now : Instant) :
    (book.report r now).entries.map (·.ruleId) = book.ids := by
  have hrules : (book.rules.zip (Rule.outcomes r book.settings now false book.rules)).map Prod.fst =
      book.rules :=
    List.map_fst_zip (Rule.length_outcomes false book.rules).ge
  unfold report ids
  conv_rhs => rw [← hrules]
  rw [List.map_map, List.map_map]
  rfl

/-- An evaluation and its report agree: one pass gives both, the results are the rewards of the
matched entries in order, every rule is found under its id and nothing under another, matched and
failed entries share out those that count, and the total is the saturating sum of the results. -/
theorem evaluation_agrees_with_report (s : Settings) (edits : List Edit) (r : Resolver)
    (now : Instant) :
    let book := (empty s).run edits
    let report := book.report r now
    let results := book.evaluate r now
    (Rule.pass r s now Report.noteReward false [] book.rules = results ∧
      Rule.pass r s now Report.noteEntry false ([], []) book.rules = (results, report.entries)) ∧
    (results = report.rewards ∧
      results.map Outcome.matched = (report.entries.map (·.outcome)).filter (·.isMatch)) ∧
    report.entries.map (·.ruleId) = book.ids ∧
    (∀ (i : Nat) rule, book.rules[i]? = some rule →
      ∃ o, report.entries[i]? = some ⟨rule.id, rule.priority, o⟩ ∧
        report.outcome? rule.id = some o) ∧
    (∀ id ∉ book.ids, report.outcome? id = none) ∧
    (report.matched.Sublist book.ids ∧ report.errors.Sublist report.entries ∧
      ∀ entry ∈ report.entries,
        ((entry.ruleId ∈ report.matched ∨ entry ∈ report.errors) ↔
          entry.outcome ≠ .notMatched ∧ ∀ reason, entry.outcome ≠ .skipped reason) ∧
        ¬(entry.ruleId ∈ report.matched ∧ entry ∈ report.errors)) ∧
    report.totalDiscount =
      results.foldl (fun total reward => total.saturatingAdd reward.worth) 0 := by
  intro book report results
  have hsettings : book.settings = s := (represents_log s edits).settings
  have hids : (report.entries.map (·.ruleId)).Nodup := by
    rw [ruleIds_report]
    exact (consistent_run s edits).nodup
  have hrewards : Rule.pass r s now Report.noteReward false [] book.rules = results := by
    rw [Report.pass_noteReward, List.nil_append, ← hsettings]
    rfl
  refine ⟨⟨hrewards, ?_⟩, ⟨evaluate_eq_rewards book r now, ?_⟩, ruleIds_report book r now, ?_, ?_,
    ⟨?_, report.errors_sublist, ?_⟩, ?_⟩
  · rw [Report.pass_noteEntry, hrewards, List.nil_append, ← hsettings]
    rfl
  · rw [outcomes_report]
    exact Outcome.map_matched_rewards _
  · intro i rule hrule
    obtain ⟨up, ho⟩ := Rule.exists_getElem?_outcomes r book.settings now false hrule
    have hentry := getElem?_entries hrule ho
    exact ⟨_, hentry, Report.outcome?_of_mem hids (List.mem_of_getElem? hentry)⟩
  · intro id hid
    rw [← ruleIds_report book r now] at hid
    exact Report.outcome?_eq_none id hid
  · rw [← ruleIds_report book r now]
    exact report.matched_sublist
  · intro entry hentry
    rw [Report.ruleId_mem_matched_iff hids hentry, Report.mem_errors_iff hentry]
    exact ⟨entry.outcome.isMatch_or_isError_iff, entry.outcome.not_isMatch_and_isError⟩
  · unfold Report.totalDiscount Reward.totalWorth
    rw [Reward.addWorth_eq_foldl, ← evaluate_eq_rewards]

theorem evaluation_agrees_with_report_misspelled :
    let book := (empty .standard).run [.addAll [memberDiscount, misspelled]]
    let r := (Context.empty.insert "order.total" (.number 1)).resolver
    let now : Instant := ⟨0, 0, by decide⟩
    let report := book.report r now
    book.rules[1]? = some ⟨misspelled, .var ⟨"membr"⟩⟩ ∧ "stranger" ∉ book.ids ∧
      (∃ o, report.entries[1]? = some ⟨"typo", 0, o⟩ ∧ report.outcome? "typo" = some o ∧
        (("typo" ∈ report.matched ∨ ⟨"typo", 0, o⟩ ∈ report.errors) ↔
          o ≠ .notMatched ∧ ∀ reason, o ≠ .skipped reason)) ∧
      report.outcome? "stranger" = none := by
  intro book r now report
  obtain ⟨-, -, -, hplaces, hothers, ⟨-, -, hshares⟩, -⟩ :=
    evaluation_agrees_with_report .standard [.addAll [memberDiscount, misspelled]] r now
  have hrule : book.rules[1]? = some ⟨misspelled, .var ⟨"membr"⟩⟩ := by
    rw [rules_misspelled]
    rfl
  have hstranger : "stranger" ∉ book.ids := by
    rw [ids, rules_misspelled]
    decide
  obtain ⟨o, hentry, hfound⟩ := hplaces 1 _ hrule
  obtain ⟨hcounts, -⟩ := hshares _ (List.mem_of_getElem? hentry)
  exact ⟨hrule, hstranger, ⟨o, hentry, hfound, hcounts⟩, hothers "stranger" hstranger⟩

end RuleBook

end Promotions
