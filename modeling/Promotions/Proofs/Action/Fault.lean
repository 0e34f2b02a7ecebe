import Promotions.Proofs.Action.Valid

/-!
# The fault of an action

An action with several faults is refused for the first of them. The single actions in it are checked
one after the other, and each of them has an order in which its own numbers are checked. `Faulty`
says what is at fault with a single action, `FirstFault` the same of any action.

A percentage is refused for a zero with a minus sign too, which lies between zero and one.
`MeetsMinusZero` says that the check comes upon such a rate, before any fault.
-/

namespace Promotions

/-- Neither number of the tier is negative. -/
def Tier.Sensible (tier : Tier) : Prop := 0 ≤ tier.threshold.toRat ∧ 0 ≤ tier.discount.toRat

namespace Action

/-! ## Single actions -/

/-- The negative number that a tier is refused for. The threshold is looked at first. -/
inductive TierFaulty (tier : Tier) : Fault → Prop where
  | threshold (h : tier.threshold.toRat < 0) :
    TierFaulty tier (.negative .tierThreshold tier.threshold)
  | discount (hthreshold : 0 ≤ tier.threshold.toRat) (h : tier.discount.toRat < 0) :
    TierFaulty tier (.negative .tierDiscount tier.discount)

/-- The fault of a single action whose numbers do not make sense. -/
inductive Faulty : Action → Fault → Prop where
  | rate {rate : Decimal} (h : ¬(0 ≤ rate.toRat ∧ rate.toRat ≤ 1)) :
    Faulty (percentage rate) (.rateOutside rate)
  | discountAmount {amount : Decimal} (h : amount.toRat < 0) :
    Faulty (fixedDiscount amount) (.negative .discountAmount amount)
  | fixedPrice {price : Decimal} (h : price.toRat < 0) :
    Faulty (fixedPrice price) (.negative .fixedPrice price)
  | threshold {least off : Decimal} (h : least.toRat < 0) :
    Faulty (threshold least off) (.negative .threshold least)
  | thresholdDiscount {least off : Decimal} (hleast : 0 ≤ least.toRat) (h : off.toRat < 0) :
    Faulty (threshold least off) (.negative .thresholdDiscount off)
  | noTiers : Faulty (tiered []) .noTiers
  /-- The first tier with a negative number. -/
  | tier {before after : List Tier} {tier : Tier} {fault : Fault}
      (hbefore : ∀ t ∈ before, t.Sensible) (h : TierFaulty tier fault) :
    Faulty (tiered (before ++ tier :: after)) fault
  /-- The first tier whose threshold stands before it already. No tier has a negative number. -/
  | repeatedThreshold {before after : List Tier} {tier : Tier}
      (htiers : ∀ t ∈ before ++ tier :: after, t.Sensible)
      (hbefore : (before.map (·.threshold.toRat)).Nodup)
      (h : tier.threshold.toRat ∈ before.map (·.threshold.toRat)) :
    Faulty (tiered (before ++ tier :: after)) (.repeatedThreshold tier.threshold)
  | noItem {quantity : UInt32} : Faulty (gift "" quantity) .noItem
  | noQuantity {item : String} (hitem : item ≠ "") : Faulty (gift item 0) (.noQuantity item)

/-- The fault that a rate is refused for although it lies between zero and one. -/
inductive ZeroFaulty : Action → Fault → Prop where
  | rate {rate : Decimal} (h : rate.minusZero = true) :
    ZeroFaulty (percentage rate) (.rateOutside rate)

variable {fault : Fault}

theorem Faulty.not_sensible {leaf : Action} (h : Faulty leaf fault) : ¬leaf.Sensible := by
  cases h with
  | rate h => exact h
  | discountAmount h => exact not_le.2 h
  | fixedPrice h => exact not_le.2 h
  | threshold h => exact fun hsensible => not_lt.2 hsensible.1 h
  | thresholdDiscount _ h => exact fun hsensible => not_lt.2 hsensible.2 h
  | noTiers => exact fun hsensible => hsensible.1 rfl
  | @tier before after tier _ _ h =>
    rintro ⟨-, htiers, -⟩
    have htier := htiers tier (by simp)
    cases h with
    | threshold h => exact not_lt.2 htier.1 h
    | discount _ h => exact not_lt.2 htier.2 h
  | @repeatedThreshold before after tier _ _ h =>
    rintro ⟨-, -, hnodup⟩
    rw [List.map_append, List.map_cons] at hnodup
    exact (List.nodup_append.1 hnodup).2.2 _ h _ List.mem_cons_self rfl
  | noItem => exact fun hsensible => hsensible.1 rfl
  | noQuantity _ => exact fun hsensible => absurd hsensible.2 (by decide)

theorem check_then_error_iff (x y : Except Fault Unit) :
    (do x; y) = .error fault ↔ x = .error fault ∨ x = .ok () ∧ y = .error fault := by
  rw [bind_eq_error_iff]
  apply or_congr_right
  exact ⟨fun ⟨⟨⟩, h⟩ => h, fun h => ⟨(), h⟩⟩

theorem checkSign_eq_error_iff (what : Quantity) (value : Decimal) :
    checkSign what value = .error fault ↔ value.toRat < 0 ∧ .negative what value = fault := by
  unfold checkSign
  rw [← Decimal.isNegative_iff]
  split <;> simp_all

theorem checkTier_eq_error_iff (tier : Tier) :
    checkTier tier = .error fault ↔ TierFaulty tier fault := by
  unfold checkTier
  rw [check_then_error_iff, checkSign_eq_error_iff, checkSign_eq_error_iff, checkSign_eq_ok_iff]
  constructor
  · rintro (⟨h, rfl⟩ | ⟨hthreshold, h, rfl⟩)
    · exact .threshold h
    · exact .discount hthreshold h
  · rintro (h | ⟨hthreshold, h⟩)
    · exact .inl ⟨h, rfl⟩
    · exact .inr ⟨hthreshold, h, rfl⟩

theorem checkTier_eq_ok_iff (tier : Tier) : checkTier tier = .ok () ↔ tier.Sensible := by
  unfold checkTier
  rw [check_then_iff, checkSign_eq_ok_iff, checkSign_eq_ok_iff]
  rfl

theorem repeatedThreshold?_cons_of_seen {seen : List Decimal} {tier : Tier} (tiers : List Tier)
    (h : ∃ least ∈ seen, least.toRat = tier.threshold.toRat) :
    repeatedThreshold? seen (tier :: tiers) = some tier.threshold := by
  rw [repeatedThreshold?, if_pos]
  simpa [Decimal.same_iff] using h

theorem repeatedThreshold?_cons_of_new {seen : List Decimal} {tier : Tier} (tiers : List Tier)
    (h : ¬∃ least ∈ seen, least.toRat = tier.threshold.toRat) :
    repeatedThreshold? seen (tier :: tiers) =
      repeatedThreshold? (tier.threshold :: seen) tiers := by
  rw [repeatedThreshold?, if_neg]
  simpa [Decimal.same_iff] using h

theorem repeatedThreshold?_eq_some_iff (seen : List Decimal) (tiers : List Tier) (least : Decimal) :
    repeatedThreshold? seen tiers = some least ↔
      ∃ before tier after, tiers = before ++ tier :: after ∧ tier.threshold = least ∧
        repeatedThreshold? seen before = none ∧
        ∃ x ∈ seen ++ before.map (·.threshold), x.toRat = least.toRat := by
  induction tiers generalizing seen with
  | nil => simp [repeatedThreshold?]
  | cons tier tiers ih =>
    by_cases h : ∃ x ∈ seen, x.toRat = tier.threshold.toRat
    · rw [repeatedThreshold?_cons_of_seen tiers h, Option.some.injEq]
      constructor
      · rintro rfl
        exact ⟨[], tier, tiers, rfl, rfl, rfl, by simpa using h⟩
      · rintro ⟨before, t, after, htiers, rfl, hnone, -⟩
        cases before with
        | nil => rw [(List.cons.inj htiers).1]
        | cons b before =>
          obtain ⟨rfl, -⟩ := List.cons.inj htiers
          rw [repeatedThreshold?_cons_of_seen before h] at hnone
          cases hnone
    · rw [repeatedThreshold?_cons_of_new tiers h, ih]
      constructor
      · rintro ⟨before, t, after, rfl, hleast, hnone, x, hx, heq⟩
        refine ⟨tier :: before, t, after, rfl, hleast, ?_, x, ?_, heq⟩
        · rw [repeatedThreshold?_cons_of_new before h, hnone]
        · simp only [List.mem_append, List.mem_cons, List.map_cons] at hx ⊢
          tauto
      · rintro ⟨before, t, after, htiers, rfl, hnone, x, hx, heq⟩
        cases before with
        | nil =>
          obtain ⟨rfl, rfl⟩ := List.cons.inj htiers
          exact absurd ⟨x, by simpa using hx, heq⟩ h
        | cons b before =>
          obtain ⟨rfl, rfl⟩ := List.cons.inj htiers
          rw [repeatedThreshold?_cons_of_new before h] at hnone
          refine ⟨before, t, after, rfl, rfl, hnone, x, ?_, heq⟩
          simp only [List.mem_append, List.mem_cons, List.map_cons] at hx ⊢
          tauto

theorem check_tiered_of_ne_nil {tiers : List Tier} (h : tiers ≠ []) :
    (tiered tiers).check = (do
      tiers.forM checkTier
      match repeatedThreshold? [] tiers with
      | some least => .error (.repeatedThreshold least)
      | none => .ok ()) := by
  rw [check, if_neg (mt List.isEmpty_iff.1 h)]
  rfl

theorem check_tiered_eq_error_iff (tiers : List Tier) :
    (tiered tiers).check = .error fault ↔ Faulty (tiered tiers) fault := by
  constructor
  · intro h
    by_cases hempty : tiers = []
    · subst hempty
      have hnone : (tiered []).check = .error .noTiers := by
        rw [check]
        rfl
      obtain rfl := Except.error.inj (hnone.symm.trans h)
      exact .noTiers
    · rw [check_tiered_of_ne_nil hempty, check_then_error_iff, forM_eq_error_iff] at h
      rcases h with ⟨before, tier, after, rfl, hbefore, htier⟩ | ⟨htiers, hrepeated⟩
      · refine .tier (fun t ht => ?_) ((checkTier_eq_error_iff tier).1 htier)
        exact (checkTier_eq_ok_iff t).1 (hbefore t ht)
      · split at hrepeated
        case h_2 => cases hrepeated
        case h_1 least hleast =>
          obtain rfl := Except.error.inj hrepeated
          obtain ⟨before, tier, after, rfl, rfl, hnone, x, hx, heq⟩ :=
            (repeatedThreshold?_eq_some_iff [] tiers least).1 hleast
          have hnodup := ((repeatedThreshold?_eq_none_iff [] before).1 hnone).1
          rw [List.nil_append] at hx
          obtain ⟨t, ht, rfl⟩ := List.mem_map.1 hx
          exact .repeatedThreshold ((checkTiers_eq_ok_iff _).1 htiers) hnodup
            (List.mem_map.2 ⟨t, ht, heq⟩)
  · intro h
    cases h with
    | noTiers =>
      rw [check]
      rfl
    | @tier before after tier _ hbefore h =>
      rw [check_tiered_of_ne_nil (by simp), check_then_error_iff, forM_eq_error_iff]
      refine .inl ⟨before, tier, after, rfl, fun t ht => ?_, (checkTier_eq_error_iff tier).2 h⟩
      exact (checkTier_eq_ok_iff t).2 (hbefore t ht)
    | @repeatedThreshold before after tier htiers hbefore h =>
      obtain ⟨t, ht, heq⟩ := List.mem_map.1 h
      have hsome : repeatedThreshold? [] (before ++ tier :: after) = some tier.threshold := by
        rw [repeatedThreshold?_eq_some_iff]
        refine ⟨before, tier, after, rfl, rfl, ?_, t.threshold, ?_, heq⟩
        · exact (repeatedThreshold?_eq_none_iff [] before).2 ⟨hbefore, by simp⟩
        · simpa using ⟨t, ht, rfl⟩
      rw [check_tiered_of_ne_nil (by simp), check_then_error_iff, hsome]
      exact .inr ⟨(checkTiers_eq_ok_iff _).2 htiers, rfl⟩

theorem check_percentage_eq_error_iff (rate : Decimal) :
    (percentage rate).check = .error fault ↔
      Faulty (percentage rate) fault ∨ ZeroFaulty (percentage rate) fault := by
  have hok := check_percentage_iff rate
  rw [check] at hok ⊢
  constructor
  · intro h
    split at h
    case isFalse => cases h
    case isTrue hout =>
      rw [if_pos hout] at hok
      obtain rfl := Except.error.inj h
      by_cases hrate : 0 ≤ rate.toRat ∧ rate.toRat ≤ 1
      · cases hzero : rate.minusZero with
        | false => exact nomatch hok.2 ⟨hrate, hzero⟩
        | true => exact .inr (.rate hzero)
      · exact .inl (.rate hrate)
  · intro h
    split
    case isTrue =>
      rcases h with ⟨⟨-⟩⟩ | ⟨⟨-⟩⟩ <;> rfl
    case isFalse hin =>
      rw [if_neg hin] at hok
      obtain ⟨hrate, hzero⟩ := hok.1 rfl
      rcases h with ⟨⟨hout⟩⟩ | ⟨⟨hminus⟩⟩
      · exact absurd hrate hout
      · rw [hzero] at hminus
        cases hminus

theorem check_gift_eq_error_iff (item : String) (quantity : UInt32) :
    (gift item quantity).check = .error fault ↔ Faulty (gift item quantity) fault := by
  rw [check]
  constructor
  · intro h
    split at h
    case isTrue hitem =>
      obtain rfl := Except.error.inj h
      obtain rfl : item = "" := by simpa using hitem
      exact .noItem
    case isFalse hitem =>
      split at h
      case isTrue hquantity =>
        obtain rfl := Except.error.inj h
        subst hquantity
        exact .noQuantity (by simpa using hitem)
      case isFalse => cases h
  · intro h
    cases h with
    | noItem => rfl
    | noQuantity hitem =>
      rw [if_neg (by simpa using hitem), if_pos rfl]

theorem check_single_eq_error_iff (leaf : Action) (hleaf : leaf.isSingle) :
    leaf.check = .error fault ↔ Faulty leaf fault ∨ ZeroFaulty leaf fault := by
  cases leaf with
  | percentage rate => exact check_percentage_eq_error_iff rate
  | tiered tiers =>
    rw [or_iff_left nofun]
    exact check_tiered_eq_error_iff tiers
  | gift item quantity =>
    rw [or_iff_left nofun]
    exact check_gift_eq_error_iff item quantity
  | fixedDiscount amount =>
    rw [or_iff_left nofun, check, checkSign_eq_error_iff]
    exact ⟨fun ⟨h, heq⟩ => heq ▸ .discountAmount h, fun (.discountAmount h) => ⟨h, rfl⟩⟩
  | fixedPrice price =>
    rw [or_iff_left nofun, check, checkSign_eq_error_iff]
    exact ⟨fun ⟨h, heq⟩ => heq ▸ .fixedPrice h, fun (.fixedPrice h) => ⟨h, rfl⟩⟩
  | threshold least off =>
    rw [or_iff_left nofun, check, check_then_error_iff, checkSign_eq_error_iff,
      checkSign_eq_ok_iff, checkSign_eq_error_iff]
    constructor
    · rintro (⟨h, rfl⟩ | ⟨hleast, h, rfl⟩)
      · exact .threshold h
      · exact .thresholdDiscount hleast h
    · rintro (_ | _ | _ | h | ⟨hleast, h⟩)
      · exact .inl ⟨h, rfl⟩
      · exact .inr ⟨hleast, h, rfl⟩
  | points count =>
    rw [check]
    exact ⟨nofun, nofun⟩
  | all actions => cases hleaf
  | best actions => cases hleaf

/-! ## Nested actions -/

/-- The fault of the first single action at fault. -/
def FirstFault (action : Action) (fault : Fault) : Prop :=
  ∃ before leaf after, action.singles = before ++ leaf :: after ∧
    (∀ x ∈ before, x.Sensible) ∧ Faulty leaf fault

/-- The rate stands before the first single action at fault, and is a zero with a minus sign. -/
def MeetsMinusZero (action : Action) (rate : Decimal) : Prop :=
  ∃ before after, action.singles = before ++ percentage rate :: after ∧
    (∀ x ∈ before, x.Sensible ∧ x.RateUnsigned) ∧ rate.minusZero = true

/-- An action is refused for the first single action that its check does not accept. -/
theorem check_eq_error_iff (action : Action) :
    action.check = .error fault ↔
      ∃ before leaf after, action.singles = before ++ leaf :: after ∧
        (∀ x ∈ before, x.Sensible ∧ x.RateUnsigned) ∧
        (Faulty leaf fault ∨ ZeroFaulty leaf fault) := by
  rw [check_eq_forM, forM_eq_error_iff]
  refine exists₃_congr fun before leaf after => and_congr_right fun hsingles => ?_
  have hsingle : ∀ x ∈ before ++ leaf :: after, x.isSingle := by
    rw [← hsingles]
    exact isSingle_of_mem_singles action
  rw [check_single_eq_error_iff leaf (hsingle leaf (by simp))]
  refine and_congr_left' (forall₂_congr fun x hx => ?_)
  exact check_single_iff x (hsingle x (List.mem_append_left _ hx))

variable {action : Action} {rate : Decimal}

theorem MeetsMinusZero.check (h : action.MeetsMinusZero rate) :
    action.check = .error (.rateOutside rate) := by
  obtain ⟨before, after, hsingles, hbefore, hzero⟩ := h
  exact (check_eq_error_iff action).2
    ⟨before, _, after, hsingles, hbefore, .inr (.rate hzero)⟩

theorem not_meetsMinusZero (h : ∀ leaf ∈ action.singles, leaf.RateUnsigned) :
    ¬∃ rate, action.MeetsMinusZero rate := by
  rintro ⟨rate, before, after, hsingles, -, hzero⟩
  have hunsigned : rate.minusZero = false := h (percentage rate) (by simp [hsingles])
  rw [hzero] at hunsigned
  cases hunsigned

theorem not_firstFault_of_minusZero (hzero : rate.minusZero = true) :
    ¬action.FirstFault (.rateOutside rate) := by
  rintro ⟨-, leaf, -, -, -, hleaf⟩
  have hrate : rate.toRat = 0 := by simp [Decimal.toRat, rate.coeff_of_minusZero hzero]
  cases hleaf with
  | rate h => exact h (by simp [hrate])
  | tier _ h => cases h

theorem check_eq_error_iff_firstFault (h : ¬∃ rate, action.MeetsMinusZero rate) :
    action.check = .error fault ↔ action.FirstFault fault := by
  constructor
  · intro herror
    obtain ⟨before, leaf, after, hsingles, hbefore, hleaf | hleaf⟩ :=
      (check_eq_error_iff action).1 herror
    · exact ⟨before, leaf, after, hsingles, fun x hx => (hbefore x hx).1, hleaf⟩
    · obtain ⟨hzero⟩ := hleaf
      exact absurd ⟨_, before, after, hsingles, hbefore, hzero⟩ h
  · rintro ⟨before, leaf, after, hsingles, hbefore, hleaf⟩
    have hsingle : ∀ x ∈ before, x.isSingle := fun x hx =>
      isSingle_of_mem_singles action x (by simp [hsingles, hx])
    -- The single actions before the fault are accepted: the first one that is not has no fault of
    -- its own, so it would be a zero with a minus sign.
    have haccepted : before.forM Action.check = .ok () := by
      cases hcheck : before.forM Action.check with
      | ok => rfl
      | error fault' =>
        obtain ⟨first, x, rest, rfl, hfirst, hx⟩ := (forM_eq_error_iff _ _ _).1 hcheck
        rcases (check_single_eq_error_iff x (hsingle x (by simp))).1 hx with hfault | hfault
        · exact absurd (hbefore x (by simp)) hfault.not_sensible
        · obtain ⟨hzero⟩ := hfault
          refine absurd ⟨_, first, rest ++ leaf :: after, ?_, fun y hy => ?_, hzero⟩ h
          · rw [hsingles, List.append_assoc, List.cons_append]
          · exact (check_single_iff y (hsingle y (by simp [hy]))).1 (hfirst y hy)
    refine (check_eq_error_iff action).2 ⟨before, leaf, after, hsingles, fun x hx => ?_, .inl hleaf⟩
    exact (check_single_iff x (hsingle x hx)).1 ((forM_eq_ok_iff _ _).1 haccepted x hx)

theorem check_eq_ok_iff_valid (h : ¬∃ rate, action.MeetsMinusZero rate) :
    action.check = .ok () ↔ action.Valid := by
  refine ⟨valid_of_check, fun hvalid => ?_⟩
  cases hcheck : action.check with
  | ok => rfl
  | error fault =>
    obtain ⟨before, leaf, after, hsingles, -, hleaf⟩ :=
      (check_eq_error_iff_firstFault h).1 hcheck
    exact absurd (hvalid leaf (by simp [hsingles])) hleaf.not_sensible

end Action

end Promotions
