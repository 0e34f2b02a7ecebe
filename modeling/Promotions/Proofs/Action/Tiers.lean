import Mathlib.Data.List.Nodup
import Promotions.Action.Apply
import Promotions.Proofs.Decimal.Order

/-!
# The tier that an amount reaches

The search keeps one tier while it goes through the reached ones, so the tier it ends with is one of
them and none of them is higher.
-/

namespace Promotions.Action

/-- `top` is a tier that `base` reaches, and no other one that it reaches is higher. -/
structure Highest (tiers : List Tier) (base : ℚ) (top : Tier) : Prop where
  mem : top ∈ tiers
  reached : top.threshold.toRat ≤ base
  highest : ∀ tier ∈ tiers, tier.threshold.toRat ≤ base →
    tier.threshold.toRat ≤ top.threshold.toRat

theorem Highest.unique {tiers : List Tier} {base : ℚ} {top top' : Tier}
    (hnodup : (tiers.map (·.threshold.toRat)).Nodup) (h : Highest tiers base top)
    (h' : Highest tiers base top') : top = top' := by
  have heq : top.threshold.toRat = top'.threshold.toRat :=
    le_antisymm (h'.highest top h.mem h.reached) (h.highest top' h'.mem h'.reached)
  exact List.inj_on_of_nodup_map hnodup h.mem h'.mem heq

/-- One step of the search. -/
def higher (reached : Option Tier) (tier : Tier) : Option Tier :=
  match reached with
  | some top => if tier.threshold < top.threshold then some top else some tier
  | none => some tier

theorem reachedTier?_eq_foldl (tiers : List Tier) (base : Decimal) :
    reachedTier? tiers base = (tiers.filter (·.threshold ≤ base)).foldl higher none := rfl

theorem exists_higher (top tier : Tier) :
    ∃ next, higher (some top) tier = some next ∧ (next = top ∨ next = tier) ∧
      top.threshold.toRat ≤ next.threshold.toRat ∧
      tier.threshold.toRat ≤ next.threshold.toRat := by
  by_cases h : tier.threshold < top.threshold
  · have hle := ((Decimal.lt_iff_toRat_lt _ _).1 h).le
    exact ⟨top, if_pos h, .inl rfl, le_rfl, hle⟩
  · have hle := not_lt.1 (mt (Decimal.lt_iff_toRat_lt _ _).2 h)
    exact ⟨tier, if_neg h, .inr rfl, hle, le_rfl⟩

theorem exists_foldl_higher (tiers : List Tier) (first : Tier) :
    ∃ top, tiers.foldl higher (some first) = some top ∧ top ∈ first :: tiers ∧
      ∀ tier ∈ first :: tiers, tier.threshold.toRat ≤ top.threshold.toRat := by
  induction tiers generalizing first with
  | nil => exact ⟨first, rfl, List.mem_singleton_self _, by simp⟩
  | cons tier tiers ih =>
    obtain ⟨next, hnext, hone, hfirst, htier⟩ := exists_higher first tier
    obtain ⟨top, htop, hmem, hle⟩ := ih next
    have hnextTop := hle next List.mem_cons_self
    refine ⟨top, by rw [List.foldl_cons, hnext, htop], ?_, ?_⟩
    · rcases List.mem_cons.1 hmem with rfl | hmem
      · rcases hone with rfl | rfl <;> simp
      · simp [hmem]
    · simp only [List.forall_mem_cons]
      exact ⟨hfirst.trans hnextTop, htier.trans hnextTop,
        fun t ht => hle t (List.mem_cons_of_mem _ ht)⟩

theorem mem_reached_iff {tiers : List Tier} {base : Decimal} {tier : Tier} :
    tier ∈ tiers.filter (·.threshold ≤ base) ↔
      tier ∈ tiers ∧ tier.threshold.toRat ≤ base.toRat := by
  rw [List.mem_filter, decide_eq_true_eq, Decimal.le_iff_toRat_le]

theorem reachedTier?_cases (tiers : List Tier) (base : Decimal) :
    (∃ top, reachedTier? tiers base = some top ∧ Highest tiers base.toRat top) ∨
      reachedTier? tiers base = none ∧ ∀ tier ∈ tiers, base.toRat < tier.threshold.toRat := by
  rw [reachedTier?_eq_foldl]
  cases hreached : tiers.filter (·.threshold ≤ base) with
  | nil =>
    refine .inr ⟨rfl, fun tier htier => ?_⟩
    by_contra hle
    have hmem := mem_reached_iff.2 ⟨htier, not_lt.1 hle⟩
    rw [hreached] at hmem
    exact List.not_mem_nil hmem
  | cons first rest =>
    obtain ⟨top, htop, hmem, hle⟩ := exists_foldl_higher rest first
    rw [← hreached] at hmem hle
    obtain ⟨htops, hbase⟩ := mem_reached_iff.1 hmem
    refine .inl ⟨top, htop, htops, hbase, fun tier htier h => ?_⟩
    exact hle tier (mem_reached_iff.2 ⟨htier, h⟩)

theorem reachedTier?_of_highest {tiers : List Tier} {base : Decimal} {top : Tier}
    (hnodup : (tiers.map (·.threshold.toRat)).Nodup) (h : Highest tiers base.toRat top) :
    reachedTier? tiers base = some top := by
  rcases reachedTier?_cases tiers base with ⟨top', htop', h'⟩ | ⟨-, hnone⟩
  · rw [htop', h'.unique hnodup h]
  · exact absurd h.reached (not_le.2 (hnone top h.mem))

theorem reachedTier?_eq_none_iff (tiers : List Tier) (base : Decimal) :
    reachedTier? tiers base = none ↔ ∀ tier ∈ tiers, base.toRat < tier.threshold.toRat := by
  rcases reachedTier?_cases tiers base with ⟨top, htop, h⟩ | ⟨hnone, hall⟩
  · rw [htop]
    simp only [reduceCtorEq, false_iff]
    intro hall
    exact absurd h.reached (not_le.2 (hall top h.mem))
  · exact iff_of_true hnone hall

theorem Highest.mono {tiers : List Tier} {base base' : ℚ} {top top' : Tier}
    (h : Highest tiers base top) (h' : Highest tiers base' top') (hle : base ≤ base') :
    top.threshold.toRat ≤ top'.threshold.toRat :=
  h'.highest top h.mem (h.reached.trans hle)

end Promotions.Action
