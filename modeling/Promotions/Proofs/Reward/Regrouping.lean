import Promotions.Proofs.Decimal.Total
import Promotions.Proofs.Reward.Discounts

/-!
# Regrouping rewards

If the total of the discounts in a reward has room in the smallest unit among them, then so has
every sum on the way to it, and no sum is rounded or stays at the end of the range. So the worth of
the reward is the exact total, and it does not matter in which order and in which groups the rewards
stand, or which others stand between them.
-/

namespace Promotions

namespace Reward

open Decimal (InUnits total largestScale)

/-! ## The exact worth -/

variable {s : Nat}

mutual

theorem toRat_worth (hs : s ≤ 28) (reward : Reward)
    (hunits : ∀ amount ∈ reward.discounts, InUnits s amount.toRat)
    (hroom : total reward.discounts * 10 ^ s < twoPow 96) :
    reward.worth.toRat = total reward.discounts := by
  cases reward with
  | discount amount => simp [discounts]
  | multiple rewards =>
    rw [discounts] at hunits hroom ⊢
    rw [← zero_add (total _), ← Decimal.toRat_zero] at hroom ⊢
    rw [worth_multiple]
    exact toRat_addWorth hs rewards hunits (Decimal.toRat_zero ▸ .zero) hroom
  | _ => simp [discounts]

/-- The sum so far and all that is still to come have room together. -/
theorem toRat_addWorth (hs : s ≤ 28) (rewards : List Reward)
    (hunits : ∀ amount ∈ discountsAll rewards, InUnits s amount.toRat) {sum : Decimal}
    (hsum : InUnits s sum.toRat)
    (hroom : (sum.toRat + total (discountsAll rewards)) * 10 ^ s < twoPow 96) :
    (addWorth sum rewards).toRat = sum.toRat + total (discountsAll rewards) := by
  cases rewards with
  | nil => simp [addWorth, discountsAll]
  | cons reward rewards =>
    rw [discountsAll, List.forall_mem_append] at hunits
    rw [discountsAll, Decimal.total_append, ← add_assoc] at hroom ⊢
    have hfirst := Decimal.inUnits_total hunits.1
    have hrest := Decimal.inUnits_total hunits.2
    have hroomNext : (sum.toRat + total reward.discounts) * 10 ^ s < twoPow 96 :=
      Decimal.units_lt_of_le hroom (le_add_of_nonneg_right hrest.nonneg)
    have hroomFirst : total reward.discounts * 10 ^ s < twoPow 96 :=
      Decimal.units_lt_of_le hroomNext (le_add_of_nonneg_left hsum.nonneg)
    have hworth := toRat_worth hs reward hunits.1 hroomFirst
    rw [← hworth] at hfirst hroomNext hroom ⊢
    have hnext := Decimal.toRat_saturatingAdd hsum hfirst hs hroomNext
    rw [← hnext] at hroom ⊢
    rw [addWorth]
    exact toRat_addWorth hs rewards hunits.2 (hnext ▸ hsum.add hfirst) hroom

end

/-! ## Rearrangements -/

/-- Whether a reward has no money in it by its kind. -/
def isIdle : Reward → Bool
  | none | gift _ _ | points _ => true
  | discount _ | multiple _ => false

/-- Rewards that differ only in how they are arranged, at any depth: in the order of a list, in inner
lists that are merged into the list around them, and in rewards without money. -/
inductive Rearranged : Reward → Reward → Prop
  | refl (x : Reward) : Rearranged x x
  | symm {x y : Reward} (h : Rearranged x y) : Rearranged y x
  | trans {x y z : Reward} (hxy : Rearranged x y) (hyz : Rearranged y z) : Rearranged x z
  | inside (before after : List Reward) {x y : Reward} (h : Rearranged x y) :
    Rearranged (multiple (before ++ x :: after)) (multiple (before ++ y :: after))
  | permute {xs ys : List Reward} (h : xs.Perm ys) : Rearranged (multiple xs) (multiple ys)
  | merge (before inner after : List Reward) :
    Rearranged (multiple (before ++ multiple inner :: after)) (multiple (before ++ inner ++ after))
  | insert (before after : List Reward) {idle : Reward} (h : idle.isIdle) :
    Rearranged (multiple (before ++ after)) (multiple (before ++ idle :: after))
  | alone (x : Reward) : Rearranged (multiple [x]) x

variable {x y : Reward}

theorem discounts_multiple (rewards : List Reward) :
    (multiple rewards).discounts = rewards.flatMap discounts := by
  rw [discounts, discountsAll_eq_flatMap]

theorem discounts_of_isIdle (h : x.isIdle) : x.discounts = [] := by
  cases x with
  | discount amount => cases h
  | multiple rewards => cases h
  | _ => rw [discounts]

theorem Rearranged.perm (h : Rearranged x y) : x.discounts.Perm y.discounts := by
  induction h with
  | refl x => exact .refl _
  | symm _ ih => exact ih.symm
  | trans _ _ ih ih' => exact ih.trans ih'
  | inside before after _ ih =>
    simp only [discounts_multiple, List.flatMap_append, List.flatMap_cons]
    exact (ih.append_right _).append_left _
  | permute h =>
    simp only [discounts_multiple]
    exact h.flatMap_right discounts
  | merge before inner after => simp [discounts_multiple]
  | insert before after h => simp [discounts_multiple, discounts_of_isIdle h]
  | alone x => simp [discounts_multiple]

mutual

theorem rearranged_discounts (x : Reward) : Rearranged x (multiple (x.discounts.map discount)) := by
  cases x with
  | discount amount => exact (Rearranged.alone _).symm
  | multiple rewards => exact rearranged_discountsAll rewards
  | none => exact (Rearranged.alone _).symm.trans (Rearranged.insert [] [] rfl).symm
  | gift item quantity => exact (Rearranged.alone _).symm.trans (Rearranged.insert [] [] rfl).symm
  | points count => exact (Rearranged.alone _).symm.trans (Rearranged.insert [] [] rfl).symm

theorem rearranged_discountsAll (rewards : List Reward) :
    Rearranged (multiple rewards) (multiple ((discountsAll rewards).map discount)) := by
  cases rewards with
  | nil => exact .refl _
  | cons reward rewards =>
    rw [discountsAll, List.map_append]
    -- The first reward is replaced by the list of its discounts, and so are the others together.
    have hfirst := Rearranged.inside [] rewards (rearranged_discounts reward)
    have hsplit := Rearranged.merge (reward.discounts.map discount) rewards []
    have hrest := Rearranged.inside (reward.discounts.map discount) []
      (rearranged_discountsAll rewards)
    have hjoin := Rearranged.merge (reward.discounts.map discount)
      ((discountsAll rewards).map discount) []
    rw [List.append_nil] at hsplit hjoin
    exact ((hfirst.trans (.merge [] _ rewards)).trans hsplit.symm).trans (hrest.trans hjoin)

end

theorem rearranged_iff (x y : Reward) : Rearranged x y ↔ x.discounts.Perm y.discounts := by
  refine ⟨Rearranged.perm, fun h => ?_⟩
  exact (rearranged_discounts x).trans
    ((Rearranged.permute (h.map discount)).trans (rearranged_discounts y).symm)

/-! ## The worth of rearranged rewards -/

/-- If no discount is negative and their total has room in the smallest unit among them, then the
worth is the exact total, and no other arrangement changes it. -/
theorem worth_eq_total (reward : Reward) (hnonneg : ∀ amount ∈ reward.discounts, 0 ≤ amount)
    (hroom : total reward.discounts * 10 ^ largestScale reward.discounts < twoPow 96) :
    reward.worth.toRat = total reward.discounts ∧
      ∀ reward', Rearranged reward reward' → reward'.worth.toRat = reward.worth.toRat := by
  have hunits : ∀ amount ∈ reward.discounts,
      InUnits (largestScale reward.discounts) amount.toRat := by
    intro amount hmem
    have hpos := hnonneg amount hmem
    rw [Decimal.le_iff_toRat_le, Decimal.toRat_zero] at hpos
    exact Decimal.inUnits_toRat hpos (Decimal.scale_le_largestScale hmem)
  have hscale := Decimal.largestScale_le reward.discounts
  have hworth := toRat_worth hscale reward hunits hroom
  refine ⟨hworth, fun reward' h => ?_⟩
  have hperm := h.perm
  have htotal : total reward.discounts = total reward'.discounts := Decimal.total_eq_of_perm hperm
  rw [hworth, htotal]
  refine toRat_worth hscale reward' (fun amount hmem => ?_) (htotal ▸ hroom)
  exact hunits amount (hperm.mem_iff.2 hmem)

/-- 0.25 off stands in a list of its own with a gift, then in one list with 10.5 off and points. The
total 10.75 has room in hundredths, so both are worth that much. -/
theorem worth_eq_total_nested :
    let large : Reward := discount (.ofCoeff 105 1 (by decide) (by decide))
    let small : Reward := discount (.ofCoeff 25 2 (by decide) (by decide))
    let nested := multiple [large, multiple [gift "mug" 1, small]]
    let flat := multiple [small, points 7, large]
    (∀ amount ∈ nested.discounts, 0 ≤ amount) ∧
      total nested.discounts * 10 ^ largestScale nested.discounts < twoPow 96 ∧
      nested.worth.toRat = 1075 / 100 ∧
      Rearranged nested flat ∧ flat.worth.toRat = 1075 / 100 := by
  intro large small nested flat
  have hnonneg : ∀ amount ∈ nested.discounts, 0 ≤ amount := by decide
  have htotal : total nested.discounts = 1075 / 100 := by
    norm_num [nested, large, small, discounts, discountsAll, Decimal.toRat, Decimal.ofCoeff]
  have hroom : total nested.discounts * 10 ^ largestScale nested.discounts < twoPow 96 := by
    have hscale : largestScale nested.discounts = 2 := rfl
    have hbound : twoPow 96 = 79228162514264337593543950336 := by decide
    rw [htotal, hscale, hbound]
    norm_num
  have hsame : Rearranged nested flat := (rearranged_iff _ _).2 (.swap _ _ _)
  obtain ⟨hworth, hrearranged⟩ := worth_eq_total nested hnonneg hroom
  rw [htotal] at hworth
  exact ⟨hnonneg, hroom, hworth, hsame, (hrearranged flat hsame).trans hworth⟩

end Reward

end Promotions
