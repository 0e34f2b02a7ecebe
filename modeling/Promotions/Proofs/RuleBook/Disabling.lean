import Promotions.Proofs.RuleBook.Evaluation

/-!
# Rules that are turned off

A rule that is turned off gives no reward and leaves the flag of a pass as it is, also if it is an
exclusive one that others gave way to. So each evaluation goes as if the rule had been taken out of
the book.
-/

namespace Promotions

namespace Rule

variable {r : Resolver} {s : Settings} {now : Instant}

theorem outcome_of_disabled {rule : Rule} (h : rule.enabled = false) (taken : Bool) :
    rule.outcome r s now taken = .skipped .disabled := by
  rw [outcome, skipped?_of_disabled h]

/-- If all that `keep` leaves out is turned off, the other rules fare in the pass as they would
without it. -/
theorem zip_outcomes_filter (keep : Rule → Bool) (taken : Bool) (rules : List Rule)
    (hoff : ∀ rule ∈ rules, keep rule = false → rule.enabled = false) :
    (rules.filter keep).zip (outcomes r s now taken (rules.filter keep)) =
      (rules.zip (outcomes r s now taken rules)).filter fun p => keep p.1 := by
  induction rules generalizing taken with
  | nil => rfl
  | cons rule rules ih =>
    obtain ⟨hrule, hrest⟩ := List.forall_mem_cons.1 hoff
    rw [outcomes_cons, List.zip_cons_cons]
    cases hkeep : keep rule with
    | true =>
      rw [List.filter_cons_of_pos hkeep, List.filter_cons_of_pos (by simpa using hkeep),
        outcomes_cons, List.zip_cons_cons, ih _ hrest]
    | false =>
      have hflag : (taken || rule.exclusive && (rule.outcome r s now taken).isMatch) = taken := by
        simp [outcome_of_disabled (hrule hkeep), Outcome.isMatch]
      rw [List.filter_cons_of_neg (by simp [hkeep]), List.filter_cons_of_neg (by simp [hkeep]),
        hflag, ih _ hrest]

end Rule

theorem filterMap_filter_of_drop {α β : Type} (f : α → Option β) (keep : α → Bool) (xs : List α)
    (hdrop : ∀ x ∈ xs, keep x = false → f x = none) :
    (xs.filter keep).filterMap f = xs.filterMap f := by
  rw [List.filterMap_filter]
  apply List.filterMap_congr
  intro x hx
  cases hkeep : keep x with
  | true => rfl
  | false => exact (hdrop x hx hkeep).symm

namespace RuleBook

variable {book off gone : RuleBook} {id : String} {r : Resolver} {now : Instant}

/-! ## The two edits -/

theorem setEnabled_of_mem (h : id ∈ book.ids) (enabled : Bool) :
    book.setEnabled id enabled =
      (book.publish (book.rules.map fun rule =>
        if rule.id = id then { rule with enabled := enabled } else rule), true) :=
  if_pos ((contains_iff book id).2 h)

theorem remove_of_mem (hids : book.ids.Nodup) (h : id ∈ book.ids) :
    book.remove id = (book.publish (book.rules.filter (·.id ≠ id)), true) := by
  rw [← eraseP_eq_filter book.rules hids]
  exact if_pos ((contains_iff book id).2 h)

theorem Falling.filter {rules : List Rule} (h : Falling rules) (keep : Rule → Bool) :
    Falling (rules.filter keep) :=
  List.Pairwise.sublist List.filter_sublist h

theorem Falling.map {rules : List Rule} (h : Falling rules) (f : Rule → Rule)
    (hf : ∀ rule, (f rule).priority = rule.priority) : Falling (rules.map f) := by
  unfold Falling at h ⊢
  rw [List.pairwise_map]
  simpa only [hf] using h

/-- `gone` is `off` without the rules of the id, all of which are turned off in `off`. -/
structure IsWithout (gone off : RuleBook) (id : String) : Prop where
  settings : gone.settings = off.settings
  rules : gone.rules = off.rules.filter (·.id ≠ id)
  disabled : ∀ rule ∈ off.rules, rule.id = id → rule.enabled = false

theorem isWithout_remove (hids : book.ids.Nodup) (hfalling : Falling book.rules)
    (h : id ∈ book.ids) : IsWithout (book.remove id).1 (book.setEnabled id false).1 id := by
  rw [remove_of_mem hids h, setEnabled_of_mem h]
  have hpriority : ∀ rule : Rule,
      (if rule.id = id then { rule with enabled := false } else rule).priority = rule.priority := by
    intro rule
    split <;> rfl
  have hid : ∀ rule : Rule,
      (if rule.id = id then { rule with enabled := false } else rule).id = rule.id := by
    intro rule
    split <;> rfl
  refine ⟨rfl, ?_, ?_⟩
  · dsimp only [publish]
    rw [byPriority_of_falling (hfalling.filter _), byPriority_of_falling (hfalling.map _ hpriority),
      List.filter_map]
    simp only [Function.comp_def, hid]
    rw [eq_comm, List.map_congr_left, List.map_id]
    intro rule hrule
    exact if_neg (by simpa using (List.mem_filter.1 hrule).2)
  · dsimp only [publish]
    rw [byPriority_of_falling (hfalling.map _ hpriority)]
    intro rule hrule hrid
    obtain ⟨old, -, rfl⟩ := List.mem_map.1 hrule
    rw [hid] at hrid
    rw [if_pos hrid]

/-! ## Evaluations -/

namespace IsWithout

theorem entries (h : IsWithout gone off id) (r : Resolver) (now : Instant) :
    (gone.report r now).entries = (off.report r now).entries.filter (·.ruleId ≠ id) := by
  have hoff : ∀ rule ∈ off.rules, decide (rule.id ≠ id) = false → rule.enabled = false := by
    intro rule hrule hid
    exact h.disabled rule hrule (by simpa using hid)
  unfold report
  rw [h.settings, h.rules, Rule.zip_outcomes_filter _ false off.rules hoff, List.filter_map]
  rfl

theorem outcome_of_ruleId (h : IsWithout gone off id) :
    ∀ entry ∈ (off.report r now).entries, entry.ruleId = id →
      entry.outcome = .skipped .disabled := by
  intro entry hentry hid
  unfold report at hentry
  obtain ⟨⟨rule, o⟩, hmem, rfl⟩ := List.mem_map.1 hentry
  obtain ⟨i, hi⟩ := List.mem_iff_getElem?.1 hmem
  obtain ⟨hrule, ho⟩ := List.getElem?_zip_eq_some.1 hi
  obtain ⟨up, hout⟩ := Rule.exists_getElem?_outcomes r off.settings now false hrule
  rw [hout, Option.some.injEq] at ho
  have hdisabled := h.disabled rule (List.mem_of_getElem? hrule) hid
  exact ho.symm.trans (Rule.outcome_of_disabled hdisabled up)

theorem evaluate (h : IsWithout gone off id) (r : Resolver) (now : Instant) :
    gone.evaluate r now = off.evaluate r now := by
  rw [evaluate_eq_rewards, evaluate_eq_rewards, Report.rewards, h.entries r now]
  apply filterMap_filter_of_drop
  intro entry hentry hid
  rw [h.outcome_of_ruleId entry hentry (by simpa using hid)]
  rfl

theorem outcome? (h : IsWithout gone off id) (r : Resolver) (now : Instant) {other : String}
    (hother : other ≠ id) :
    (gone.report r now).outcome? other = (off.report r now).outcome? other := by
  unfold Report.outcome?
  rw [h.entries r now, List.find?_filter]
  congr 2
  funext entry
  by_cases heq : entry.ruleId = other
  · simp [heq, hother]
  · simp [heq]

end IsWithout

/-- Turning a rule off is for every evaluation the same as taking it out: the same rewards, the
same best of them, and the same outcome of every other rule. -/
theorem evaluate_disabled_eq_removed (s : Settings) (edits : List Edit) (id : String)
    (hid : id ∈ ((empty s).run edits).ids) (r : Resolver) (now : Instant) :
    let book := (empty s).run edits
    let off := book.setEnabled id false
    let gone := book.remove id
    off.2 = true ∧ gone.2 = true ∧
    off.1.evaluate r now = gone.1.evaluate r now ∧
    off.1.bestDiscount r now = gone.1.bestDiscount r now ∧
    off.1.bestReward? r now = gone.1.bestReward? r now ∧
    (gone.1.report r now).entries = (off.1.report r now).entries.filter (·.ruleId ≠ id) ∧
    (∀ entry ∈ (off.1.report r now).entries, entry.ruleId = id →
      entry.outcome = .skipped .disabled) ∧
    ∀ other ≠ id, (off.1.report r now).outcome? other = (gone.1.report r now).outcome? other := by
  intro book off gone
  have hids : book.ids.Nodup := (consistent_run s edits).nodup
  have h : IsWithout gone.1 off.1 id := isWithout_remove hids (falling_run s edits) hid
  have heval := (h.evaluate r now).symm
  refine ⟨?_, ?_, heval, ?_, ?_, h.entries r now, h.outcome_of_ruleId, ?_⟩
  · exact congrArg Prod.snd (setEnabled_of_mem hid false)
  · exact congrArg Prod.snd (remove_of_mem hids hid)
  · exact congrArg Reward.bestWorth heval
  · exact congrArg Reward.best? heval
  · exact fun other hother => (h.outcome? r now hother).symm

/-- Two exclusive rules, of which the second gives way as long as the first is there. -/
def seasons : List Edit :=
  [.addAll
    [((RuleDefinition.ofCondition "spring" "true" (.points 1)).withExclusive true).withPriority 2,
      (RuleDefinition.ofCondition "summer" "true" (.points 3)).withExclusive true]]

theorem spring_mem_ids : "spring" ∈ ((empty .standard).run seasons).ids := by
  have hlog : (Edit.log .standard seasons).map (·.id) = ["spring", "summer"] := by decide +kernel
  have hperm := (represents_log .standard seasons).sameRanks.perm.map (·.id)
  rw [hlog] at hperm
  exact hperm.mem_iff.2 (by simp)

theorem evaluate_disabled_eq_removed_seasons :
    let book := (empty .standard).run seasons
    let r := Context.empty.resolver
    let now : Instant := ⟨0, 0, by decide⟩
    "spring" ∈ book.ids ∧
      (book.setEnabled "spring" false).1.evaluate r now = (book.remove "spring").1.evaluate r now ∧
      ((book.setEnabled "spring" false).1.report r now).outcome? "summer" =
        ((book.remove "spring").1.report r now).outcome? "summer" := by
  intro book r now
  obtain ⟨-, -, heval, -, -, -, -, hothers⟩ :=
    evaluate_disabled_eq_removed .standard seasons "spring" spring_mem_ids r now
  exact ⟨spring_mem_ids, heval, hothers "summer" (by decide)⟩

end RuleBook

end Promotions
