import Promotions.Proofs.Action.Failure
import Promotions.Proofs.Rule.Exclusive
import Promotions.Proofs.RuleBook.Export

/-!
# Evaluating a book

An evaluation would stop where one less a rate found no room in a decimal. The rates of a book lie
between zero and one, at whatever depth of an action they stand, so every evaluation comes to its
end. This holds of a book at every point of a session, and so of each that is kept. A rule that
fails gives nothing and takes nothing from the others.
-/

namespace Promotions

theorem Outcome.reward?_eq_some_iff (o : Outcome) (reward : Reward) :
    o.reward? = some reward ↔ o = .matched reward := by
  cases o <;> simp [reward?]

theorem Outcome.reward?_eq_none_iff (o : Outcome) : o.reward? = none ↔ o.isMatch = false := by
  cases o <;> simp [reward?, isMatch]

/-! ## Rules that fail -/

namespace Rule

variable {r : Resolver} {s : Settings} {now : Instant} {rule : Rule}

/-- The condition or the action of the rule ends in an error. -/
def Fails (r : Resolver) (s : Settings) (rule : Rule) : Prop :=
  (∃ e, rule.expr.holds r = .error e) ∨ ∃ e, rule.action.apply r s = .error e

theorem excluded_or_decides (r : Resolver) (s : Settings) (now : Instant) (rule : Rule)
    (taken : Bool) :
    rule.outcome r s now taken = .skipped .excluded ∨
      rule.Decides r s now (rule.outcome r s now taken) := by
  by_cases hup : taken = true ∧ rule.exclusive = true ∧ rule.Open now
  · obtain ⟨rfl, hexclusive, hopen⟩ := hup
    exact .inl (outcome_of_excluded hexclusive hopen)
  · right
    rw [(decides_outcome rule).outcome_eq hup]
    exact decides_outcome rule

theorem decides_of_outcome {o : Outcome} {taken : Bool} (h : rule.outcome r s now taken = o)
    (hne : o ≠ .skipped .excluded) : rule.Decides r s now o := by
  rcases excluded_or_decides r s now rule taken with hskip | hdecides
  · exact absurd (h.symm.trans hskip) hne
  · rwa [h] at hdecides

theorem isMatch_outcome_of_fails (h : rule.Fails r s) (now : Instant) (taken : Bool) :
    (rule.outcome r s now taken).isMatch = false := by
  rw [Bool.eq_false_iff, ne_eq, Outcome.isMatch_iff]
  rintro ⟨reward, hreward⟩
  cases decides_of_outcome hreward (by simp) with
  | matched _ _ hholds happly =>
    rcases h with ⟨e, he⟩ | ⟨e, he⟩
    · simp [hholds] at he
    · simp [happly] at he

theorem apply_of_actionFailed {taken : Bool} {e : ActionError}
    (h : rule.outcome r s now taken = .actionFailed e) : rule.action.apply r s = .error e := by
  cases decides_of_outcome h (by simp) with
  | actionFailed _ _ _ happly => exact happly

theorem apply_of_matched {taken : Bool} {reward : Reward}
    (h : rule.outcome r s now taken = .matched reward) : rule.action.apply r s = .ok reward := by
  cases decides_of_outcome h (by simp) with
  | matched _ _ _ happly => exact happly

theorem exists_getElem?_outcomes (r : Resolver) (s : Settings) (now : Instant) (taken : Bool)
    {rules : List Rule} {i : Nat} (hrule : rules[i]? = some rule) :
    ∃ up, (outcomes r s now taken rules)[i]? = some (rule.outcome r s now up) := by
  rw [getElem?_outcomes, hrule, Option.map_some]
  exact ⟨_, rfl⟩

end Rule

theorem filterMap_eraseIdx {α β : Type} (f : α → Option β) {xs : List α} {i : Nat} {x : α}
    (hx : xs[i]? = some x) (hdrop : f x = none) : (xs.eraseIdx i).filterMap f = xs.filterMap f := by
  induction xs generalizing i with
  | nil => simp at hx
  | cons y ys ih =>
    cases i with
    | zero =>
      obtain rfl : y = x := by simpa using hx
      rw [List.eraseIdx_cons_zero, List.filterMap_cons_none hdrop]
    | succ i =>
      rw [List.eraseIdx_cons_succ, List.filterMap_cons, List.filterMap_cons, ih (by simpa using hx)]

namespace RuleBook

variable {book : RuleBook} {r : Resolver} {now : Instant}

/-! ## Reports -/

theorem outcomes_report (book : RuleBook) (r : Resolver) (now : Instant) :
    (book.report r now).entries.map (·.outcome) =
      Rule.outcomes r book.settings now false book.rules := by
  unfold report
  rw [List.map_map]
  exact List.map_snd_zip (Rule.length_outcomes false book.rules).le

theorem evaluate_eq_rewards (book : RuleBook) (r : Resolver) (now : Instant) :
    book.evaluate r now = (book.report r now).rewards := by
  unfold evaluate Report.rewards
  rw [← outcomes_report, List.filterMap_map]
  rfl

theorem getElem?_entries {i : Nat} {rule : Rule} {o : Outcome} (hrule : book.rules[i]? = some rule)
    (ho : (Rule.outcomes r book.settings now false book.rules)[i]? = some o) :
    (book.report r now).entries[i]? = some ⟨rule.id, rule.priority, o⟩ := by
  unfold report
  rw [List.getElem?_map, Option.map_eq_some_iff]
  exact ⟨(rule, o), List.getElem?_zip_eq_some.2 ⟨hrule, ho⟩, rfl⟩

theorem length_entries (book : RuleBook) (r : Resolver) (now : Instant) :
    (book.report r now).entries.length = book.rules.length := by
  simp [report]

theorem exists_of_mem_entries {entry : Report.Entry} (h : entry ∈ (book.report r now).entries) :
    ∃ rule ∈ book.rules, ∃ up, entry.outcome = rule.outcome r book.settings now up := by
  obtain ⟨i, hlt, rfl⟩ := List.mem_iff_getElem.1 h
  rw [length_entries] at hlt
  have hrule := List.getElem?_eq_getElem hlt
  obtain ⟨up, ho⟩ := Rule.exists_getElem?_outcomes r book.settings now false hrule
  obtain ⟨_, hentry⟩ := List.getElem?_eq_some_iff.1 (getElem?_entries hrule ho)
  exact ⟨_, List.getElem_mem hlt, up, by rw [hentry]⟩

theorem exists_rule_of_mem_evaluate {reward : Reward} (h : reward ∈ book.evaluate r now) :
    ∃ rule ∈ book.rules, rule.action.apply r book.settings = .ok reward := by
  rw [evaluate_eq_rewards, Report.rewards, List.mem_filterMap] at h
  obtain ⟨entry, hentry, hreward⟩ := h
  obtain ⟨rule, hrule, up, hout⟩ := exists_of_mem_entries hentry
  rw [hout, Outcome.reward?_eq_some_iff] at hreward
  exact ⟨rule, hrule, Rule.apply_of_matched hreward⟩

theorem evaluate_eraseIdx {i : Nat} {rule : Rule} (hrule : book.rules[i]? = some rule)
    (hfails : rule.Fails r book.settings) :
    { book with rules := book.rules.eraseIdx i }.evaluate r now = book.evaluate r now := by
  obtain ⟨up, hout⟩ := Rule.exists_getElem?_outcomes r book.settings now false hrule
  have hplain := Rule.isMatch_outcome_of_fails hfails now up
  have hnone := (Outcome.reward?_eq_none_iff _).2 hplain
  unfold evaluate
  rw [Rule.outcomes_eraseIdx hrule hout (.inr hplain), filterMap_eraseIdx _ hout hnone]

/-! ## Every evaluation -/

theorem one_sub_rate (s : Settings) (edits : List Edit) {rule : Rule}
    (hrule : rule ∈ ((empty s).run edits).rules) {rate : Decimal}
    (hrate : .percentage rate ∈ rule.action.singles) :
    ∃ share, (1 : Decimal).sub? rate = some share ∧ share.toRat = 1 - rate.toRat :=
  ((consistent_run s edits).compiled rule hrule).valid.exists_one_sub hrate

/-- No evaluation of a book stops: one less a rate always has room and is exact, so an action fails
for want of an amount only. Every rule has its outcome, which is its own unless it gives way to an
exclusive rule. The results are the rewards of those that match, and a rule that fails could as well
be missing. -/
theorem evaluation_completes (s : Settings) (edits : List Edit) (r : Resolver) (now : Instant) :
    let book := (empty s).run edits
    let entries := (book.report r now).entries
    (∀ rule ∈ book.rules, ∀ rate, .percentage rate ∈ rule.action.singles →
      ∃ share, (1 : Decimal).sub? rate = some share ∧ share.toRat = 1 - rate.toRat) ∧
    (∀ entry ∈ entries, ∀ e, entry.outcome = .actionFailed e → ∃ cause, e = .amount cause) ∧
    entries.length = book.rules.length ∧
    book.evaluate r now = entries.filterMap (·.outcome.reward?) ∧
    ∀ (i : Nat) rule, book.rules[i]? = some rule →
      ∃ o, entries[i]? = some ⟨rule.id, rule.priority, o⟩ ∧
        (rule.GivesWay r s now (book.rules.take i) → o = .skipped .excluded) ∧
        (¬rule.GivesWay r s now (book.rules.take i) → rule.Decides r s now o) ∧
        (rule.Fails r s → o.isMatch = false ∧
          { book with rules := book.rules.eraseIdx i }.evaluate r now = book.evaluate r now) := by
  intro book entries
  have hsettings : book.settings = s := (represents_log s edits).settings
  refine ⟨fun rule hrule rate hrate => one_sub_rate s edits hrule hrate, ?_,
    length_entries book r now, evaluate_eq_rewards book r now, ?_⟩
  · intro entry hentry e hfailed
    obtain ⟨rule, hrule, up, hout⟩ := exists_of_mem_entries hentry
    refine Action.exists_amount_of_apply rule.action (fun rate hrate => ?_)
      (Rule.apply_of_actionFailed (hout.symm.trans hfailed))
    obtain ⟨share, hshare, -⟩ := one_sub_rate s edits hrule hrate
    simp [hshare]
  · intro i rule hrule
    rw [← hsettings]
    obtain ⟨up, hout⟩ := Rule.exists_getElem?_outcomes r book.settings now false hrule
    refine ⟨_, getElem?_entries hrule hout, fun hway => ?_, fun hway => ?_, fun hfails => ?_⟩
    · exact Option.some.inj (hout.symm.trans (Rule.getElem?_outcomes_of_givesWay hrule hway))
    · rw [Option.some.inj (hout.symm.trans (Rule.getElem?_outcomes_of_not_givesWay hrule hway))]
      exact Rule.decides_outcome rule
    · exact ⟨Rule.isMatch_outcome_of_fails hfails now up, evaluate_eraseIdx hrule hfails⟩

/-- A fifth off, in a choice of actions. -/
def memberDiscount : RuleDefinition :=
  .ofCondition "member" "true"
    (.all [.best [.percentage (.ofCoeff 8 1 (by decide) (by decide)), .points 5]])

/-- A rule that asks for an unknown name. -/
def misspelled : RuleDefinition := .ofCondition "typo" "membr" (.points 1)

theorem compile_memberDiscount :
    memberDiscount.compile .standard = .ok ⟨memberDiscount, .bool true⟩ :=
  (RuleDefinition.compile_eq_ok_iff _ _ _).2 ⟨rfl, by decide, rfl, rfl, Expr.ofText_true _⟩

theorem compile_misspelled : misspelled.compile .standard = .ok ⟨misspelled, .var ⟨"membr"⟩⟩ := by
  have hscan : Token.scan "membr" = .ok [⟨.ident "membr", 0⟩, ⟨.endOfInput, 5⟩] := by
    decide +kernel
  have hread : Expr.ofText 64 "membr" = .ok (.var ⟨"membr"⟩) := by
    rw [Expr.ofText, hscan]
    rfl
  exact (RuleDefinition.compile_eq_ok_iff _ _ _).2 ⟨rfl, by decide, rfl, rfl, hread⟩

theorem rules_misspelled :
    ((empty .standard).run [.addAll [memberDiscount, misspelled]]).rules =
      [⟨memberDiscount, .bool true⟩, ⟨misspelled, .var ⟨"membr"⟩⟩] := by
  have hfalling : Falling [⟨memberDiscount, .bool true⟩, ⟨misspelled, .var ⟨"membr"⟩⟩] := by
    simp only [Falling, List.pairwise_pair]
    decide
  exact (addAll_empty (.cons compile_memberDiscount (.cons compile_misspelled .nil)) (by decide)
    hfalling).2.1

/-- The rule that asks for an unknown name fails, and the member has the discount all the same. -/
theorem evaluation_completes_misspelled :
    let book := (empty .standard).run [.addAll [memberDiscount, misspelled]]
    let r := (Context.empty.insert "order.total" (.number 1)).resolver
    let now : Instant := ⟨0, 0, by decide⟩
    let reward : Reward := .multiple [.discount (.ofCoeff 2 1 (by decide) (by decide))]
    (∃ share : Decimal, (1 : Decimal).sub? (.ofCoeff 8 1 (by decide) (by decide)) = some share ∧
      share.toRat = 1 - (Decimal.ofCoeff 8 1 (by decide) (by decide)).toRat) ∧
    Rule.Fails r .standard ⟨misspelled, .var ⟨"membr"⟩⟩ ∧
    (book.report r now).entries =
      [⟨"member", 0, .matched reward⟩, ⟨"typo", 0, .conditionFailed (.unknownVariable "membr")⟩] ∧
    book.evaluate r now = [reward] ∧
    { book with rules := book.rules.eraseIdx 1 }.evaluate r now = [reward] := by
  intro book r now reward
  have hrules : book.rules = _ := rules_misspelled
  have hfails : Rule.Fails r .standard ⟨misspelled, .var ⟨"membr"⟩⟩ :=
    .inl ⟨.unknownVariable "membr", rfl⟩
  obtain ⟨hrates, -, hlength, hrewards, hplaces⟩ :=
    evaluation_completes .standard [.addAll [memberDiscount, misspelled]] r now
  have hmember : (⟨memberDiscount, .bool true⟩ : Rule) ∈ book.rules := by simp [hrules]
  have hrate : .percentage (.ofCoeff 8 1 (by decide) (by decide)) ∈ memberDiscount.action.singles :=
    List.mem_cons_self
  have hfirst : book.rules[0]? = some ⟨memberDiscount, .bool true⟩ := by rw [hrules]; rfl
  have hsecond : book.rules[1]? = some ⟨misspelled, .var ⟨"membr"⟩⟩ := by rw [hrules]; rfl
  obtain ⟨o, hentry, -, hdecides, -⟩ := hplaces 0 _ hfirst
  obtain rfl := (Rule.outcome_eq_iff_decides _ o).2 (hdecides fun hway => nomatch hway.1)
  obtain ⟨o', hentry', -, hdecides', hwithout⟩ := hplaces 1 _ hsecond
  obtain rfl := (Rule.outcome_eq_iff_decides _ o').2 (hdecides' fun hway => nomatch hway.1)
  have htwo : (book.report r now).entries.length = 2 := by
    rw [hlength, rules_misspelled]
    rfl
  have hentries : (book.report r now).entries = [⟨"member", 0, .matched reward⟩,
      ⟨"typo", 0, .conditionFailed (.unknownVariable "membr")⟩] := by
    refine List.ext_getElem? fun i => ?_
    match i with
    | 0 => exact hentry
    | 1 => exact hentry'
    | i + 2 =>
      rw [List.getElem?_eq_none (by omega)]
      rfl
  have hevaluate : book.evaluate r now = [reward] := by
    rw [hrewards, hentries]
    rfl
  exact ⟨hrates _ hmember _ hrate, hfails, hentries, hevaluate,
    (hwithout hfails).2.trans hevaluate⟩

end RuleBook

end Promotions
