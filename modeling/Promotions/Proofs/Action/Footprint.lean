import Promotions.Proofs.Action.Choice
import Promotions.Proofs.Action.Failure
import Promotions.Proofs.Action.Valid

/-!
# What an action reads

An action reads one answer of the resolver, the amount, and that only if a single action in it asks
for it. So it fails exactly if one asks and there is no number to read, with the error that the
answer itself calls for, no matter which of them comes first.
-/

namespace Promotions

namespace Action

variable {r r' : Resolver} {s : Settings} {e : ActionError}

/-! ## The amount -/

/-- What is wrong with an answer at `path` that is not a number. -/
inductive Unreadable (path : String) : Option Value → ActionError → Prop
  | missing : Unreadable path none (.amount (.unknownVariable path))
  | notNumber {v : Value} (h : v.kind ≠ .number) :
    Unreadable path (some v) (.amount (.typeMismatch path [.number] v.kind))

theorem exists_unreadable_iff (path : String) (answer : Option Value) :
    (∃ e, Unreadable path answer e) ↔ ∀ base, answer ≠ some (.number base) := by
  constructor
  · rintro ⟨e, h⟩ base rfl
    cases h with
    | notNumber h => exact h rfl
  · intro h
    cases answer with
    | none => exact ⟨_, .missing⟩
    | some v =>
      refine ⟨_, .notNumber fun hkind => ?_⟩
      cases v with
      | number base => exact h base rfl
      | _ => cases hkind

theorem baseAmount_eq_error_iff :
    baseAmount r s = .error e ↔ Unreadable s.amountField (r.value? s.amountField) e := by
  unfold baseAmount
  generalize r.value? s.amountField = answer
  constructor
  · intro h
    split at h
    case h_1 => cases h
    case h_2 v hnumber =>
      rw [← Except.error.inj h]
      refine .notNumber fun hkind => ?_
      cases v with
      | number base => exact hnumber base rfl
      | _ => cases hkind
    case h_3 =>
      rw [← Except.error.inj h]
      exact .missing
  · intro h
    cases h with
    | missing => rfl
    | @notNumber v h =>
      cases v with
      | number base => exact absurd rfl h
      | _ => rfl

/-! ## Single actions -/

/-- Whether a single action takes something off the amount. -/
def asksAmount : Action → Bool
  | percentage _ | fixedDiscount _ | fixedPrice _ | threshold _ _ | tiered _ => true
  | gift _ _ | points _ | all _ | best _ => false

theorem apply_of_asksAmount (leaf : Action) (hasks : leaf.asksAmount)
    (hbase : baseAmount r s = .error e) : leaf.apply r s = .error e := by
  cases leaf with
  | gift item quantity => cases hasks
  | points count => cases hasks
  | all actions => cases hasks
  | best actions => cases hasks
  | _ => rw [apply, hbase, error_bind]

theorem single_error_iff (leaf : Action) (hleaf : leaf.isSingle)
    (hrate : ∀ rate, leaf = percentage rate → (1 : Decimal).sub? rate ≠ none) :
    leaf.apply r s = .error e ↔ leaf.asksAmount ∧ baseAmount r s = .error e := by
  constructor
  · intro h
    refine ⟨?_, baseAmount_of_error leaf hleaf hrate h⟩
    cases leaf with
    | gift item quantity => simp [apply] at h
    | points count => simp [apply] at h
    | all actions => cases hleaf
    | best actions => cases hleaf
    | _ => rfl
  · rintro ⟨hasks, hbase⟩
    exact apply_of_asksAmount leaf hasks hbase

/-! ## Nested actions -/

mutual

theorem exists_ok_of_apply (action : Action) {reward : Reward} (h : action.apply r s = .ok reward) :
    ∀ leaf ∈ action.singles, ∃ reward, leaf.apply r s = .ok reward := by
  cases action with
  | all actions =>
    rw [apply, bind_eq_ok_iff] at h
    obtain ⟨rewards, hrewards, -⟩ := h
    exact exists_ok_of_applyAll actions hrewards
  | best actions =>
    rw [apply_best, bind_eq_ok_iff] at h
    obtain ⟨rewards, hrewards, -⟩ := h
    exact exists_ok_of_applyAll actions hrewards
  | _ =>
    intro leaf hmem
    rw [singles, List.mem_singleton] at hmem
    rw [hmem]
    exact ⟨reward, h⟩

theorem exists_ok_of_applyAll (actions : List Action) {rewards : List Reward}
    (h : applyAll r s actions = .ok rewards) :
    ∀ leaf ∈ singlesAll actions, ∃ reward, leaf.apply r s = .ok reward := by
  cases actions with
  | nil => simp [singlesAll]
  | cons action actions =>
    rw [applyAll, bind_eq_ok_iff] at h
    obtain ⟨reward, hreward, h⟩ := h
    rw [bind_eq_ok_iff] at h
    obtain ⟨rest, hrest, -⟩ := h
    rw [singlesAll, List.forall_mem_append]
    exact ⟨exists_ok_of_apply action hreward, exists_ok_of_applyAll actions hrest⟩

end

/-- An action fails with the error of the amount if a single action in it asks for the amount, and
in no other way. -/
theorem apply_eq_error_iff (action : Action)
    (hrates : ∀ rate, percentage rate ∈ action.singles → (1 : Decimal).sub? rate ≠ none) :
    action.apply r s = .error e ↔
      (∃ leaf ∈ action.singles, leaf.asksAmount) ∧ baseAmount r s = .error e := by
  have hsingle : ∀ leaf ∈ action.singles, ∀ cause,
      leaf.apply r s = .error cause ↔ leaf.asksAmount ∧ baseAmount r s = .error cause := by
    intro leaf hmem cause
    refine single_error_iff leaf (isSingle_of_mem_singles action leaf hmem) ?_
    rintro rate rfl
    exact hrates rate hmem
  have hfails : ∀ cause, action.apply r s = .error cause →
      (∃ leaf ∈ action.singles, leaf.asksAmount) ∧ baseAmount r s = .error cause := by
    intro cause h
    obtain ⟨leaf, hmem, herror⟩ := exists_single_error action h
    obtain ⟨hasks, hbase⟩ := (hsingle leaf hmem cause).1 herror
    exact ⟨⟨leaf, hmem, hasks⟩, hbase⟩
  refine ⟨hfails e, ?_⟩
  rintro ⟨⟨leaf, hmem, hasks⟩, hbase⟩
  cases happly : action.apply r s with
  | error cause =>
    -- Whichever leaf it was, the error is that of the amount.
    rw [Except.error.inj (hbase.symm.trans (hfails cause happly).2)]
  | ok reward =>
    obtain ⟨reward, hreward⟩ := exists_ok_of_apply action happly leaf hmem
    rw [(hsingle leaf hmem e).2 ⟨hasks, hbase⟩] at hreward
    cases hreward

mutual

theorem apply_eq_of_baseAmount_eq (h : baseAmount r' s = baseAmount r s) (action : Action) :
    action.apply r' s = action.apply r s := by
  cases action with
  | gift item quantity => rw [apply, apply]
  | points count => rw [apply, apply]
  | all actions => rw [apply, apply, applyAll_eq_of_baseAmount_eq h actions]
  | best actions => rw [apply_best, apply_best, applyAll_eq_of_baseAmount_eq h actions]
  | _ => rw [apply, apply, h]

theorem applyAll_eq_of_baseAmount_eq (h : baseAmount r' s = baseAmount r s)
    (actions : List Action) : applyAll r' s actions = applyAll r s actions := by
  cases actions with
  | nil => rw [applyAll, applyAll]
  | cons action actions =>
    rw [applyAll, applyAll, apply_eq_of_baseAmount_eq h action,
      applyAll_eq_of_baseAmount_eq h actions]

end

/-- An action fails exactly if a single action in it asks for the amount, at whatever depth, and
there is no number to read. The error is the one that the answer calls for. Another resolver with
the same answer makes no difference. -/
theorem fails_iff_amount_unreadable (r : Resolver) (s : Settings) (action : Action)
    (hrates : ∀ rate, percentage rate ∈ action.singles → (1 : Decimal).sub? rate ≠ none) :
    ((∃ e, action.apply r s = .error e) ↔
      (∃ leaf ∈ action.singles, leaf.asksAmount) ∧
        ∀ base, r.value? s.amountField ≠ some (.number base)) ∧
    (∀ e, action.apply r s = .error e ↔
      (∃ leaf ∈ action.singles, leaf.asksAmount) ∧
        Unreadable s.amountField (r.value? s.amountField) e) ∧
    ∀ r' : Resolver, r'.value? s.amountField = r.value? s.amountField →
      action.apply r' s = action.apply r s := by
  have herror : ∀ e, action.apply r s = .error e ↔
      (∃ leaf ∈ action.singles, leaf.asksAmount) ∧
        Unreadable s.amountField (r.value? s.amountField) e := by
    intro e
    rw [apply_eq_error_iff action hrates, baseAmount_eq_error_iff]
  refine ⟨?_, herror, ?_⟩
  · rw [← exists_unreadable_iff s.amountField]
    simp only [herror, exists_and_left]
  · intro r' hanswer
    refine apply_eq_of_baseAmount_eq ?_ action
    unfold baseAmount
    rw [hanswer]

theorem sub?_ne_none_of_check {action : Action} (hcheck : action.check = .ok ()) (rate : Decimal)
    (hmem : percentage rate ∈ action.singles) : (1 : Decimal).sub? rate ≠ none := by
  obtain ⟨share, hshare, -⟩ := (valid_of_check hcheck).exists_one_sub hmem
  simp [hshare]

/-- A tier in a choice, behind points and a gift. -/
def lateTier : Action :=
  all [points 10, best [gift "mug" 1, tiered [⟨0, 1⟩], percentage 1]]

theorem check_lateTier : lateTier.check = .ok () := rfl

/-- The tier is the first to ask for the amount and finds a text. What else is known of the order
does not matter. -/
theorem fails_iff_amount_unreadable_lateTier :
    let order := Context.empty.insert "order.total" (.string "ten")
    (∀ rate, percentage rate ∈ lateTier.singles → (1 : Decimal).sub? rate ≠ none) ∧
      lateTier.apply order.resolver .standard =
        .error (.amount (.typeMismatch "order.total" [.number] .string)) ∧
      lateTier.apply (order.insert "order.items" (.number 1)).resolver .standard =
        lateTier.apply order.resolver .standard := by
  intro order
  have hrates := sub?_ne_none_of_check check_lateTier
  obtain ⟨-, herror, hfootprint⟩ :=
    fails_iff_amount_unreadable order.resolver .standard lateTier hrates
  refine ⟨hrates, (herror _).2 ⟨?_, ?_⟩, hfootprint _ rfl⟩
  · exact ⟨tiered [⟨0, 1⟩], by simp [lateTier, singles, singlesAll], rfl⟩
  · exact .notNumber (v := .string "ten") nofun

end Action

end Promotions
