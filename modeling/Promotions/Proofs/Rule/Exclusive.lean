import Promotions.Proofs.Rule.Compiled
import Promotions.Rule.Outcome

/-!
# Rules apart from each other

A pass carries one flag along: whether an exclusive rule has matched. The flag means nothing to a
rule that is shut or not exclusive, and it is up exactly if an exclusive rule before matches by
itself. All else that becomes of a rule is its own affair.
-/

namespace Promotions

theorem Outcome.isMatch_iff (o : Outcome) : o.isMatch = true ↔ ∃ reward, o = .matched reward := by
  cases o <;> simp [isMatch]

namespace Rule

/-! ## A rule by itself -/

/-- Enabled, and in its window. -/
structure Open (rule : Rule) (now : Instant) : Prop where
  enabled : rule.enabled = true
  started : ∀ start ∈ rule.validFrom, start ≤ now
  running : ∀ stop ∈ rule.validTo, now ≤ stop

/-- What becomes of a rule by itself. -/
inductive Decides (r : Resolver) (s : Settings) (now : Instant) (rule : Rule) : Outcome → Prop where
  | disabled : rule.enabled = false → Decides r s now rule (.skipped .disabled)
  | notYetValid (start : Instant) : rule.enabled = true → rule.validFrom = some start →
      now < start → Decides r s now rule (.skipped .notYetValid)
  | expired (stop : Instant) : rule.enabled = true → (∀ start ∈ rule.validFrom, start ≤ now) →
      rule.validTo = some stop → stop < now → Decides r s now rule (.skipped .expired)
  | conditionFailed (e : EvalError) : rule.Open now → rule.expr.holds r = .error e →
      Decides r s now rule (.conditionFailed e)
  | notMatched : rule.Open now → rule.expr.holds r = .ok false → Decides r s now rule .notMatched
  | actionFailed (e : ActionError) : rule.Open now → rule.expr.holds r = .ok true →
      rule.action.apply r s = .error e → Decides r s now rule (.actionFailed e)
  | matched (reward : Reward) : rule.Open now → rule.expr.holds r = .ok true →
      rule.action.apply r s = .ok reward → Decides r s now rule (.matched reward)

variable {r : Resolver} {s : Settings} {now : Instant} {rule : Rule}

theorem skipped?_of_disabled (henabled : rule.enabled = false) (taken : Bool) :
    rule.skipped? now taken = some .disabled := by
  simp [skipped?, henabled]

theorem skipped?_of_lt_start {start : Instant} (henabled : rule.enabled = true)
    (hstart : rule.validFrom = some start) (hlt : now < start) (taken : Bool) :
    rule.skipped? now taken = some .notYetValid := by
  simp [skipped?, henabled, outsideWindow?, hstart, hlt]

theorem any_lt_start_eq_false (hstarted : ∀ start ∈ rule.validFrom, start ≤ now) :
    rule.validFrom.any (now < ·) = false := by
  rw [Option.any_eq_false]
  intro start hstart
  simpa using (Instant.not_lt_iff_le start now).2 (hstarted start hstart)

theorem skipped?_of_stop_lt {stop : Instant} (henabled : rule.enabled = true)
    (hstarted : ∀ start ∈ rule.validFrom, start ≤ now) (hstop : rule.validTo = some stop)
    (hlt : stop < now) (taken : Bool) : rule.skipped? now taken = some .expired := by
  simp [skipped?, henabled, outsideWindow?, any_lt_start_eq_false hstarted, hstop, hlt]

theorem skipped?_of_open (h : rule.Open now) (taken : Bool) :
    rule.skipped? now taken = if taken && rule.exclusive then some .excluded else none := by
  have hrunning : rule.validTo.any (· < now) = false := by
    rw [Option.any_eq_false]
    intro stop hstop
    simpa using (Instant.not_lt_iff_le now stop).2 (h.running stop hstop)
  simp [skipped?, h.enabled, outsideWindow?, any_lt_start_eq_false h.started, hrunning]

theorem decides_fire (h : rule.Open now) : rule.Decides r s now (rule.fire r s) := by
  unfold fire
  cases hholds : rule.expr.holds r with
  | error e => exact .conditionFailed e h hholds
  | ok holds =>
    cases holds with
    | false => exact .notMatched h hholds
    | true =>
      cases happly : rule.action.apply r s with
      | error e => exact .actionFailed e h hholds happly
      | ok reward => exact .matched reward h hholds happly

theorem outcome_of_open {taken : Bool} (hopen : rule.Open now)
    (hfree : ¬(taken = true ∧ rule.exclusive = true)) :
    rule.outcome r s now taken = rule.fire r s := by
  have hclear : (taken && rule.exclusive) = false := by simpa using hfree
  simp [outcome, skipped?_of_open hopen, hclear]

theorem decides_outcome (rule : Rule) : rule.Decides r s now (rule.outcome r s now false) := by
  cases henabled : rule.enabled with
  | false =>
    rw [outcome, skipped?_of_disabled henabled]
    exact .disabled henabled
  | true =>
    by_cases hearly : ∃ start, rule.validFrom = some start ∧ now < start
    · obtain ⟨start, hstart, hlt⟩ := hearly
      rw [outcome, skipped?_of_lt_start henabled hstart hlt]
      exact .notYetValid start henabled hstart hlt
    have hstarted : ∀ start ∈ rule.validFrom, start ≤ now := by
      intro start hstart
      rw [← Instant.not_lt_iff_le]
      exact fun hlt => hearly ⟨start, hstart, hlt⟩
    by_cases hlate : ∃ stop, rule.validTo = some stop ∧ stop < now
    · obtain ⟨stop, hstop, hlt⟩ := hlate
      rw [outcome, skipped?_of_stop_lt henabled hstarted hstop hlt]
      exact .expired stop henabled hstarted hstop hlt
    have hrunning : ∀ stop ∈ rule.validTo, now ≤ stop := by
      intro stop hstop
      rw [← Instant.not_lt_iff_le]
      exact fun hlt => hlate ⟨stop, hstop, hlt⟩
    have hopen : rule.Open now := ⟨henabled, hstarted, hrunning⟩
    rw [outcome_of_open hopen (by simp)]
    exact decides_fire hopen

theorem Decides.outcome_eq {o : Outcome} {taken : Bool} (h : rule.Decides r s now o)
    (hfree : ¬(taken = true ∧ rule.exclusive = true ∧ rule.Open now)) :
    rule.outcome r s now taken = o := by
  have hfire (hopen : rule.Open now) : rule.outcome r s now taken = rule.fire r s :=
    outcome_of_open hopen fun hboth => hfree ⟨hboth.1, hboth.2, hopen⟩
  cases h with
  | disabled henabled => rw [outcome, skipped?_of_disabled henabled]
  | notYetValid start henabled hstart hlt => rw [outcome, skipped?_of_lt_start henabled hstart hlt]
  | expired stop henabled hstarted hstop hlt =>
    rw [outcome, skipped?_of_stop_lt henabled hstarted hstop hlt]
  | conditionFailed e hopen hholds => rw [hfire hopen, fire, hholds]
  | notMatched hopen hholds => rw [hfire hopen, fire, hholds]
  | actionFailed e hopen hholds happly => simp [hfire hopen, fire, hholds, happly]
  | matched reward hopen hholds happly => simp [hfire hopen, fire, hholds, happly]

theorem outcome_eq_iff_decides (rule : Rule) (o : Outcome) :
    rule.outcome r s now false = o ↔ rule.Decides r s now o := by
  constructor
  · rintro rfl
    exact decides_outcome rule
  · intro h
    exact h.outcome_eq (by simp)

/-! ## A rule in a pass -/

/-- The rule is exclusive and matches by itself. -/
def Claims (r : Resolver) (s : Settings) (now : Instant) (rule : Rule) : Prop :=
  rule.exclusive = true ∧ ∃ reward, rule.Decides r s now (.matched reward)

/-- The rule is open and exclusive, and a rule before it has claimed the place. -/
def GivesWay (r : Resolver) (s : Settings) (now : Instant) (before : List Rule) (rule : Rule) :
    Prop :=
  rule.exclusive = true ∧ rule.Open now ∧ ∃ earlier ∈ before, earlier.Claims r s now

/-- Whether the rule lifts the flag of a pass where it is down. -/
def liftsFlag (r : Resolver) (s : Settings) (now : Instant) (rule : Rule) : Bool :=
  rule.exclusive && (rule.outcome r s now false).isMatch

theorem liftsFlag_iff (rule : Rule) : rule.liftsFlag r s now = true ↔ rule.Claims r s now := by
  simp only [liftsFlag, Claims, Bool.and_eq_true, Outcome.isMatch_iff, outcome_eq_iff_decides]

theorem outcome_of_excluded (hexclusive : rule.exclusive = true) (hopen : rule.Open now) :
    rule.outcome r s now true = .skipped .excluded := by
  simp [outcome, skipped?_of_open hopen, hexclusive]

@[simp] theorem outcomes_cons (taken : Bool) (rule : Rule) (rules : List Rule) :
    outcomes r s now taken (rule :: rules) =
      rule.outcome r s now taken ::
        outcomes r s now (taken || rule.exclusive && (rule.outcome r s now taken).isMatch) rules :=
  rfl

@[simp] theorem length_outcomes (taken : Bool) (rules : List Rule) :
    (outcomes r s now taken rules).length = rules.length := by
  induction rules generalizing taken with
  | nil => rfl
  | cons rule rules ih => simp [ih]

theorem taken_or_isMatch (taken : Bool) (rule : Rule) :
    (taken || rule.exclusive && (rule.outcome r s now taken).isMatch) =
      (taken || rule.liftsFlag r s now) := by
  cases taken <;> rfl

/-- At every rule the flag is up exactly if it was up at the start or a rule before claims the
place. -/
theorem getElem?_outcomes (taken : Bool) (rules : List Rule) (i : Nat) :
    (outcomes r s now taken rules)[i]? =
      rules[i]?.map (outcome r s now (taken || (rules.take i).any (liftsFlag r s now))) := by
  induction rules generalizing taken i with
  | nil => rfl
  | cons rule rules ih =>
    cases i with
    | zero => simp
    | succ i =>
      rw [outcomes_cons, List.getElem?_cons_succ, taken_or_isMatch, ih]
      simp [Bool.or_assoc]

theorem open_of_isMatch (h : (rule.outcome r s now false).isMatch = true) : rule.Open now := by
  obtain ⟨reward, hreward⟩ := (Outcome.isMatch_iff _).1 h
  cases (outcome_eq_iff_decides rule _).1 hreward with
  | matched _ hopen => exact hopen

theorem isMatch_taken (hexclusive : rule.exclusive = true) :
    (rule.outcome r s now true).isMatch = false := by
  by_cases hopen : rule.Open now
  · rw [outcome_of_excluded hexclusive hopen]
    rfl
  · rw [(decides_outcome rule).outcome_eq fun h => hopen h.2.2]
    exact Bool.eq_false_iff.2 fun hmatch => hopen (open_of_isMatch hmatch)

/-! ## Every pass -/

theorem countP_exclusive_le (taken : Bool) (rules : List Rule) :
    (rules.zip (outcomes r s now taken rules)).countP (fun p => p.1.exclusive && p.2.isMatch) ≤
      if taken then 0 else 1 := by
  induction rules generalizing taken with
  | nil => simp
  | cons rule rules ih =>
    have htail := ih (taken || rule.exclusive && (rule.outcome r s now taken).isMatch)
    rw [outcomes_cons, List.zip_cons_cons, List.countP_cons]
    cases hlift : rule.exclusive && (rule.outcome r s now taken).isMatch with
    | false => simpa [hlift] using htail
    | true =>
      cases taken with
      | false => simpa [hlift] using htail
      | true =>
        obtain ⟨hexclusive, hmatch⟩ := Bool.and_eq_true_iff.1 hlift
        simp [isMatch_taken hexclusive] at hmatch

theorem outcomes_eraseIdx {taken : Bool} {rules : List Rule} {i : Nat} {o : Outcome}
    (hrule : rules[i]? = some rule) (ho : (outcomes r s now taken rules)[i]? = some o)
    (hplain : rule.exclusive = false ∨ o.isMatch = false) :
    outcomes r s now taken (rules.eraseIdx i) = (outcomes r s now taken rules).eraseIdx i := by
  induction rules generalizing taken i with
  | nil => simp at hrule
  | cons first rules ih =>
    rw [outcomes_cons] at ho ⊢
    cases i with
    | zero =>
      obtain rfl : first = rule := by simpa using hrule
      obtain rfl : first.outcome r s now taken = o := by simpa using ho
      have hstays : (first.exclusive && (first.outcome r s now taken).isMatch) = false :=
        Bool.and_eq_false_iff.2 hplain
      rw [hstays, Bool.or_false]
      rfl
    | succ i =>
      rw [List.getElem?_cons_succ] at hrule ho
      rw [List.eraseIdx_cons_succ, List.eraseIdx_cons_succ, outcomes_cons, ih hrule ho]

theorem getElem?_outcomes_of_givesWay {rules : List Rule} {i : Nat} (hrule : rules[i]? = some rule)
    (h : rule.GivesWay r s now (rules.take i)) :
    (outcomes r s now false rules)[i]? = some (.skipped .excluded) := by
  obtain ⟨hexclusive, hopen, earlier, hmem, hclaims⟩ := h
  have hup : (rules.take i).any (liftsFlag r s now) = true :=
    List.any_eq_true.2 ⟨earlier, hmem, (liftsFlag_iff earlier).2 hclaims⟩
  rw [getElem?_outcomes, hrule, hup, Option.map_some, Bool.or_true,
    outcome_of_excluded hexclusive hopen]

theorem getElem?_outcomes_of_not_givesWay {rules : List Rule} {i : Nat}
    (hrule : rules[i]? = some rule) (h : ¬rule.GivesWay r s now (rules.take i)) :
    (outcomes r s now false rules)[i]? = some (rule.outcome r s now false) := by
  rw [getElem?_outcomes, hrule, Option.map_some, Bool.false_or, (decides_outcome rule).outcome_eq]
  rintro ⟨hup, hexclusive, hopen⟩
  obtain ⟨earlier, hmem, hlifts⟩ := List.any_eq_true.1 hup
  exact h ⟨hexclusive, hopen, earlier, hmem, (liftsFlag_iff earlier).1 hlifts⟩

/-- Every rule is judged by itself, except that exclusive rules give way to one that matches before
them. -/
theorem outcomes_isolated (r : Resolver) (s : Settings) (now : Instant) (rules : List Rule) :
    let outs := outcomes r s now false rules
    outs.length = rules.length ∧
    (∀ (rule : Rule) o, rule.outcome r s now false = o ↔ rule.Decides r s now o) ∧
    (∀ (i : Nat) rule, rules[i]? = some rule →
      (rule.GivesWay r s now (rules.take i) → outs[i]? = some (.skipped .excluded)) ∧
      (¬rule.GivesWay r s now (rules.take i) → outs[i]? = some (rule.outcome r s now false))) ∧
    (rules.zip outs).countP (fun p => p.1.exclusive && p.2.isMatch) ≤ 1 ∧
    ∀ (i : Nat) rule o, rules[i]? = some rule → outs[i]? = some o →
      rule.exclusive = false ∨ o.isMatch = false →
        outcomes r s now false (rules.eraseIdx i) = outs.eraseIdx i := by
  intro outs
  exact ⟨length_outcomes false rules, outcome_eq_iff_decides,
    fun i rule hrule =>
      ⟨getElem?_outcomes_of_givesWay hrule, getElem?_outcomes_of_not_givesWay hrule⟩,
    countP_exclusive_le false rules,
    fun i rule o hrule ho hplain => outcomes_eraseIdx hrule ho hplain⟩

/-- An exclusive rule without a window that gives a point. -/
def coupon (id condition : String) (expr : Expr) : Rule where
  toRuleDefinition := (RuleDefinition.ofCondition id condition (.points 1)).withExclusive true
  expr := expr

theorem coupon_open (id condition : String) (expr : Expr) (now : Instant) :
    (coupon id condition expr).Open now where
  enabled := rfl
  started := by
    intro start hstart
    cases hstart
  running := by
    intro stop hstop
    cases hstop

/-- The first fails, and the last stands behind one that matches. -/
def coupons : List Rule :=
  [coupon "draw" "lucky()" (.call "lucky" []), coupon "spring" "true" (.bool true),
   coupon "summer" "true" (.bool true)]

theorem outcomes_isolated_coupons :
    let r := Context.empty.resolver
    let now : Instant := ⟨0, 0, by decide⟩
    let outs := outcomes r .standard now false coupons
    outs[2]? = some (.skipped .excluded) ∧
      outcomes r .standard now false (coupons.eraseIdx 0) = outs.eraseIdx 0 := by
  intro r now outs
  obtain ⟨-, -, hplace, -, herase⟩ := outcomes_isolated r .standard now coupons
  have hspring : (coupon "spring" "true" (.bool true)).Claims r .standard now :=
    ⟨rfl, _, .matched _ (coupon_open _ _ _ now) rfl rfl⟩
  constructor
  · exact (hplace 2 _ rfl).1 ⟨rfl, coupon_open _ _ _ now, _, by simp [coupons], hspring⟩
  · exact herase 0 _ _ rfl rfl (.inr rfl)

end Rule

end Promotions
