import Mathlib.Algebra.Order.Field.Basic
import Promotions.Proofs.Decimal.Exact

/-!
# Giving up fraction digits

A result that has no room gives up as few fraction digits as possible. `Fitted x v` says this of
two numbers, without a word on how the digits are found: `v` is the nearest to `x` of some scale,
and it is `x` itself or no larger scale has room. So a number that some decimal stands for is never
changed, and of two numbers the larger one never comes out smaller, not even where it has to give up
more digits. Sums, differences and products are fitted, and saturating sums keep the order too.
-/

namespace Promotions.Decimal

/-! ## Room -/

/-- Rounded to `t` fraction digits, `x` has a coefficient of less than 97 bits. -/
def HasRoom (x : ℚ) (t : Nat) : Prop := |x| * 10 ^ t < (twoPow 96 : Int) - 1 / 2

theorem even_twoPow_96 : Even (twoPow 96 : Int) := by decide

theorem natAbs_lt_iff_hasRoom {x : ℚ} {t : Nat} {m : Int} (h : HalfEven (x * 10 ^ t) m) :
    m.natAbs < twoPow 96 ↔ HasRoom x t := by
  have hsides : m.natAbs < twoPow 96 ↔ m < twoPow 96 ∧ -m < twoPow 96 := by omega
  have habs : |x| * 10 ^ t = |x * 10 ^ t| := by
    rw [abs_mul, abs_of_pos (show (0 : ℚ) < 10 ^ t by positivity)]
  rw [hsides, h.lt_iff even_twoPow_96, h.neg.lt_iff even_twoPow_96, HasRoom, habs, abs_lt]
  constructor
  · rintro ⟨hup, hdown⟩
    exact ⟨by linarith, hup⟩
  · rintro ⟨hdown, hup⟩
    exact ⟨hup, by linarith⟩

theorem HasRoom.of_abs_le {x y : ℚ} {t : Nat} (h : HasRoom y t) (hxy : |x| ≤ |y|) : HasRoom x t :=
  (mul_le_mul_of_nonneg_right hxy (by positivity)).trans_lt h

theorem HasRoom.of_le {x : ℚ} {t u : Nat} (h : HasRoom x t) (hut : u ≤ t) : HasRoom x u :=
  (mul_le_mul_of_nonneg_left (pow_le_pow_right₀ (by norm_num) hut) (abs_nonneg x)).trans_lt h

theorem toRat_mul_pow (c : Decimal) : c.toRat * 10 ^ c.scale = c.coeff := by
  rw [toRat]
  field_simp

theorem halfEven_coeff (c : Decimal) : HalfEven (c.toRat * 10 ^ c.scale) c.coeff := by
  rw [toRat_mul_pow]
  exact halfEven_intCast c.coeff

theorem hasRoom_toRat (c : Decimal) : HasRoom c.toRat c.scale :=
  (natAbs_lt_iff_hasRoom c.halfEven_coeff).1 c.coeff_lt

theorem scale_le_of_full (c : Decimal) {t : Nat} (h : t = 28 ∨ ¬HasRoom c.toRat (t + 1)) :
    c.scale ≤ t := by
  by_contra hlt
  rcases h with h28 | hnone
  · have := c.scale_le
    omega
  · exact hnone (c.hasRoom_toRat.of_le (by omega))

/-! ## Fitted values -/

/-- `v` is the multiple `m` of `10 ^ -t` nearest to `x`, where `t` is a scale with room. It is `x`
itself, or no larger scale has room. -/
structure FittedAt (x v : ℚ) (t : Nat) (m : Int) : Prop where
  value : v = m / 10 ^ t
  near : HalfEven (x * 10 ^ t) m
  room : HasRoom x t
  scale_le : t ≤ 28
  full : v = x ∨ t = 28 ∨ ¬HasRoom x (t + 1)

/-- `v` is `x` with as few fraction digits given up as possible. -/
def Fitted (x v : ℚ) : Prop := ∃ t m, FittedAt x v t m

theorem fitted_toRat (c : Decimal) : Fitted c.toRat c.toRat :=
  ⟨c.scale, c.coeff, rfl, c.halfEven_coeff, c.hasRoom_toRat, c.scale_le, .inl rfl⟩

theorem Fitted.hasRoom_zero {x v : ℚ} (h : Fitted x v) : HasRoom x 0 := by
  obtain ⟨t, m, hfit⟩ := h
  exact hfit.room.of_le t.zero_le

theorem Fitted.eq_toRat {c : Decimal} {v : ℚ} (h : Fitted c.toRat v) : v = c.toRat := by
  obtain ⟨t, m, hfit⟩ := h
  rcases hfit.full with heq | hfull
  · exact heq
  · have hunits : c.toRat * 10 ^ t = ((c.coeff * 10 ^ (t - c.scale) : Int) : ℚ) :=
      div_mul_pow c.coeff (c.scale_le_of_full hfull)
    have hnear := hfit.near
    rw [hunits] at hnear
    have hm : m = c.coeff * 10 ^ (t - c.scale) :=
      le_antisymm (hnear.mono (halfEven_intCast _) le_rfl) ((halfEven_intCast _).mono hnear le_rfl)
    rw [hfit.value, hm, ← hunits]
    field_simp

theorem Fitted.neg {x v : ℚ} (h : Fitted x v) : Fitted (-x) (-v) := by
  obtain ⟨t, m, hfit⟩ := h
  refine ⟨t, -m, ?_, ?_, ?_, hfit.scale_le, ?_⟩
  · rw [hfit.value, Int.cast_neg, neg_div]
  · rw [neg_mul]
    exact hfit.near.neg
  · unfold HasRoom
    rw [abs_neg]
    exact hfit.room
  · unfold HasRoom
    rw [abs_neg, neg_inj]
    exact hfit.full

theorem Fitted.nonneg {x v : ℚ} (h : Fitted x v) (hx : 0 ≤ x) : 0 ≤ v := by
  obtain ⟨t, m, hfit⟩ := h
  have hzero : HalfEven 0 0 := by exact_mod_cast halfEven_intCast 0
  have hm : (0 : Int) ≤ m := hzero.mono hfit.near (by positivity)
  have hm' : (0 : ℚ) ≤ m := by exact_mod_cast hm
  rw [hfit.value]
  exact div_nonneg hm' (by positivity)

theorem Fitted.nonpos {x v : ℚ} (h : Fitted x v) (hx : x ≤ 0) : v ≤ 0 := by
  have := h.neg.nonneg (neg_nonneg.2 hx)
  linarith

/-! ## Order -/

/-- Where the larger number has no room one scale up, its coefficient is a tenth of the bound at
least, so it stays ahead of any coefficient with room there. -/
theorem FittedAt.lt_of_not_hasRoom {y w : ℚ} {t u : Nat} {m k : Int} (hy : FittedAt y w t m)
    (hy0 : 0 ≤ y) (hnone : ¬HasRoom y (t + 1)) (htu : t < u) (hk : k < twoPow 96) :
    (k : ℚ) / 10 ^ u < w := by
  have hfar : ((twoPow 96 : Int) : ℚ) - 1 / 2 ≤ y * 10 ^ t * 10 := by
    have := not_lt.1 hnone
    rwa [abs_of_nonneg hy0, pow_succ, ← mul_assoc] at this
  have hten : (twoPow 96 : Int) < 10 * m := by
    have hup := hy.near.upper
    have hm : 2 * (twoPow 96 : Int) - 11 ≤ 20 * m := by
      have : 2 * ((twoPow 96 : Int) : ℚ) - 11 ≤ 20 * m := by linarith
      exact_mod_cast this
    have hbound := twoPow_96
    omega
  have hpow : (10 : ℚ) ^ (t + 1) ≤ 10 ^ u := pow_le_pow_right₀ (by norm_num) htu
  have hkm : (k : ℚ) < 10 * m := by exact_mod_cast hk.trans hten
  have hm0 : (0 : ℚ) < 10 * m := by
    have : (0 : Int) < 10 * m := (Int.natCast_pos.2 (twoPow_pos 96)).trans hten
    exact_mod_cast this
  calc (k : ℚ) / 10 ^ u < 10 * m / 10 ^ u := by gcongr
    _ ≤ 10 * m / 10 ^ (t + 1) := by gcongr
    _ = w := by
      rw [hy.value, pow_succ]
      field_simp

theorem Fitted.mono_of_nonneg {x y v w : ℚ} (hx : Fitted x v) (hy : Fitted y w) (hx0 : 0 ≤ x)
    (hxy : x ≤ y) : v ≤ w := by
  obtain ⟨t, m, hx⟩ := hx
  obtain ⟨u, k, hy⟩ := hy
  have hy0 : 0 ≤ y := hx0.trans hxy
  have hunits : ∀ s : Nat, x * 10 ^ s ≤ y * 10 ^ s :=
    fun s => mul_le_mul_of_nonneg_right hxy (by positivity)
  rcases lt_trichotomy t u with htu | rfl | hut
  · -- `y` keeps more digits than `x`, which has room for them, so `x` was exact.
    have hroom : HasRoom x (t + 1) :=
      (hy.room.of_abs_le (abs_le_abs_of_nonneg hx0 hxy)).of_le htu
    have hexact : v = x := by
      have := hy.scale_le
      rcases hx.full with h | h | h
      · exact h
      · omega
      · exact absurd hroom h
    have hnear : HalfEven (x * 10 ^ u) (m * 10 ^ (u - t)) := by
      rw [← hexact, hx.value, div_mul_pow m htu.le]
      exact halfEven_intCast _
    have hle : m * 10 ^ (u - t) ≤ k := hnear.mono hy.near (hunits u)
    rw [hy.value, le_div_iff₀ (by positivity), hx.value, div_mul_pow m htu.le]
    exact_mod_cast hle
  · rw [hx.value, hy.value]
    have hle : (m : ℚ) ≤ k := by exact_mod_cast hx.near.mono hy.near (hunits t)
    gcongr
  · rcases hy.full with hexact | hfull
    · have hnear : HalfEven (y * 10 ^ t) (k * 10 ^ (t - u)) := by
        rw [← hexact, hy.value, div_mul_pow k hut.le]
        exact halfEven_intCast _
      have hle : m ≤ k * 10 ^ (t - u) := hx.near.mono hnear (hunits t)
      rw [hx.value, div_le_iff₀ (by positivity), hy.value, div_mul_pow k hut.le]
      exact_mod_cast hle
    · have hnone : ¬HasRoom y (u + 1) := by
        have := hx.scale_le
        rcases hfull with h | h
        · omega
        · exact h
      have hm : m < twoPow 96 := by
        have := (natAbs_lt_iff_hasRoom hx.near).2 hx.room
        omega
      rw [hx.value]
      exact (hy.lt_of_not_hasRoom hy0 hnone hut hm).le

theorem Fitted.mono {x y v w : ℚ} (hx : Fitted x v) (hy : Fitted y w) (hxy : x ≤ y) : v ≤ w := by
  rcases le_total 0 x with hx0 | hx0
  · exact hx.mono_of_nonneg hy hx0 hxy
  · rcases le_total 0 y with hy0 | hy0
    · exact (hx.nonpos hx0).trans (hy.nonneg hy0)
    · exact neg_le_neg_iff.1 (hy.neg.mono_of_nonneg hx.neg (neg_nonneg.2 hy0) (neg_le_neg hxy))

/-! ## Making room -/

/-- The outcome of an operation with the exact result `x`: `x` fitted, or none for want of room. -/
inductive FitsTo (x : ℚ) : Option Decimal → Prop
  | fitted {c : Decimal} (h : Fitted x c.toRat) : FitsTo x (some c)
  | tooLarge (h : ¬HasRoom x 0) : FitsTo x none

theorem FitsTo.exists_fitted {x : ℚ} {result : Option Decimal} (h : FitsTo x result)
    (hroom : HasRoom x 0) : ∃ c, result = some c ∧ Fitted x c.toRat := by
  cases h with
  | fitted hfitted => exact ⟨_, rfl, hfitted⟩
  | tooLarge hnone => exact absurd hroom hnone

theorem FitsTo.exists_exact {d : Decimal} {result : Option Decimal} (h : FitsTo d.toRat result) :
    ∃ c, result = some c ∧ c.toRat = d.toRat := by
  obtain ⟨c, hc, hfitted⟩ := h.exists_fitted (d.hasRoom_toRat.of_le d.scale.zero_le)
  exact ⟨c, hc, hfitted.eq_toRat⟩

theorem natAbs_roundHalfEven_lt_iff (n : Int) {s t : Nat} (hts : t ≤ s) :
    (roundHalfEven n (tenPow (s - t))).natAbs < twoPow 96 ↔ HasRoom (n / 10 ^ s) t :=
  natAbs_lt_iff_hasRoom (halfEven_roundHalfEven_tenPow n hts)

theorem fitsTo_of_hasRoom (n : Int) (s t : Nat) (ht : t ≤ 28) (hts : t ≤ s)
    (hroom : HasRoom (n / 10 ^ s) t)
    (hfull : t = s ∨ t = 28 ∨ ¬HasRoom (n / 10 ^ s) (t + 1)) :
    FitsTo (n / 10 ^ s) (fitUpTo n s t ht) := by
  rw [fitUpTo_of_room n s t ht ((natAbs_roundHalfEven_lt_iff n hts).2 hroom)]
  refine .fitted ⟨t, _, rfl, halfEven_roundHalfEven_tenPow n hts, hroom, ht, ?_⟩
  rcases hfull with rfl | hfull
  · left
    simp [toRat, tenPow]
  · exact .inr hfull

/-- The search goes down from `t` and ends at the first scale with room, if any scale has. -/
theorem fitsTo_fitUpTo (n : Int) (s t : Nat) (ht : t ≤ 28) (hts : t ≤ s)
    (hfull : t = s ∨ t = 28 ∨ ¬HasRoom (n / 10 ^ s) (t + 1)) :
    FitsTo (n / 10 ^ s) (fitUpTo n s t ht) := by
  induction t with
  | zero =>
    by_cases hroom : HasRoom (n / 10 ^ s) 0
    · exact fitsTo_of_hasRoom n s 0 ht hts hroom hfull
    · have hnone : fitUpTo n s 0 ht = none :=
        dif_neg (mt (natAbs_roundHalfEven_lt_iff n hts).1 hroom)
      rw [hnone]
      exact .tooLarge hroom
  | succ t ih =>
    by_cases hroom : HasRoom (n / 10 ^ s) (t + 1)
    · exact fitsTo_of_hasRoom n s (t + 1) ht hts hroom hfull
    · have hnext : fitUpTo n s (t + 1) ht = fitUpTo n s t (by omega) :=
        dif_neg (mt (natAbs_roundHalfEven_lt_iff n hts).1 hroom)
      rw [hnext]
      exact ih (by omega) (by omega) (.inr (.inr hroom))

theorem fitsTo_fit (n : Int) (s : Nat) : FitsTo (n / 10 ^ s) (fit n s) := by
  refine fitsTo_fitUpTo n s (min s 28) (Nat.min_le_right s 28) (Nat.min_le_left s 28) ?_
  rcases Nat.le_total s 28 with h | h
  · exact .inl (Nat.min_eq_left h)
  · exact .inr (.inl (Nat.min_eq_right h))

/-! ## Sum, difference, product -/

theorem fitsTo_add? (a b : Decimal) : FitsTo (a.toRat + b.toRat) (a.add? b) := by
  unfold add?
  by_cases ha : a.coeff = 0
  · rw [if_pos ha, toRat_of_coeff_eq_zero ha, zero_add]
    exact .fitted (fitted_toRat b)
  rw [if_neg ha]
  by_cases hb : b.coeff = 0
  · rw [if_pos hb, toRat_of_coeff_eq_zero hb, add_zero]
    exact .fitted (fitted_toRat a)
  rw [if_neg hb, ← coeff_mul_div a (Nat.le_max_left a.scale b.scale),
    ← coeff_mul_div b (Nat.le_max_right a.scale b.scale), ← add_div, ← Int.cast_add]
  exact fitsTo_fit _ _

theorem fitsTo_sub? (a b : Decimal) : FitsTo (a.toRat - b.toRat) (a.sub? b) := by
  have h := fitsTo_add? a (-b)
  rwa [toRat_neg, ← sub_eq_add_neg] at h

theorem toRat_signZero (a : Decimal) : a.signZero.toRat = a.toRat := by
  unfold signZero
  split <;> rfl

theorem FitsTo.signZero {x : ℚ} {result : Option Decimal} (h : FitsTo x result) :
    FitsTo x (result.map Decimal.signZero) := by
  cases h with
  | fitted hfitted =>
    rw [← toRat_signZero] at hfitted
    exact .fitted hfitted
  | tooLarge hnone => exact .tooLarge hnone

theorem toRat_mul_toRat (a b : Decimal) :
    a.toRat * b.toRat = ((a.coeff * b.coeff : Int) : ℚ) / 10 ^ (a.scale + b.scale) := by
  rw [toRat, toRat, div_mul_div_comm, pow_add, Int.cast_mul]

theorem fitted_zero_of_lt {x : ℚ} (h : |x| * 10 ^ 28 < 1 / 2) : Fitted x (toRat 0) := by
  have habs : |x * 10 ^ 28| < 1 / 2 := by
    rwa [abs_mul, abs_of_pos (by positivity : (0 : ℚ) < 10 ^ 28)]
  obtain ⟨hlow, hhigh⟩ := abs_lt.1 habs
  refine ⟨28, 0, by simp, ⟨?_, ?_, fun _ => Even.zero, fun _ => Even.zero⟩, ?_, le_rfl,
    .inr (.inl rfl)⟩
  · rw [Int.cast_zero]
    linarith
  · rw [Int.cast_zero]
    linarith
  · refine h.trans ?_
    have hbound : (1 : ℚ) < (twoPow 96 : Int) := by exact_mod_cast (by decide : 1 < twoPow 96)
    linarith

theorem fitted_zero_of_areShort {a b : Decimal} (h : areShort a b)
    (hscale : 47 < a.scale + b.scale) : Fitted (a.toRat * b.toRat) (toRat 0) := by
  unfold areShort at h
  rw [decide_eq_true_eq] at h
  have hcoeff : (a.coeff * b.coeff).natAbs < twoPow 64 := by
    have hbound : twoPow 32 * twoPow 32 = twoPow 64 := by decide
    rw [Int.natAbs_mul, ← hbound]
    exact Nat.mul_lt_mul'' h.1 h.2
  have hcoeff' : |((a.coeff * b.coeff : Int) : ℚ)| ≤ twoPow 64 := by
    rw [← Int.cast_abs, Int.abs_eq_natAbs]
    exact_mod_cast hcoeff.le
  have hpow : (10 : ℚ) ^ 48 ≤ 10 ^ (a.scale + b.scale) := pow_le_pow_right₀ (by norm_num) hscale
  have hsmall : (twoPow 64 : ℚ) * 10 ^ 28 < 1 / 2 * 10 ^ 48 := by
    have : (twoPow 64 : ℚ) = 18446744073709551616 := by
      exact_mod_cast (by decide : twoPow 64 = 18446744073709551616)
    rw [this]
    norm_num
  apply fitted_zero_of_lt
  rw [toRat_mul_toRat, abs_div, abs_of_pos (by positivity : (0 : ℚ) < 10 ^ (a.scale + b.scale)),
    div_mul_eq_mul_div, div_lt_iff₀ (by positivity)]
  calc |((a.coeff * b.coeff : Int) : ℚ)| * 10 ^ 28 ≤ twoPow 64 * 10 ^ 28 := by gcongr
    _ < 1 / 2 * 10 ^ 48 := hsmall
    _ ≤ 1 / 2 * 10 ^ (a.scale + b.scale) := by gcongr

theorem fitsTo_mul? (a b : Decimal) : FitsTo (a.toRat * b.toRat) (a.mul? b) := by
  unfold mul?
  by_cases hzero : a.coeff = 0 ∨ b.coeff = 0
  · have hproduct : a.toRat * b.toRat = toRat 0 := by
      rcases hzero with h | h <;> simp [toRat_of_coeff_eq_zero h]
    rw [if_pos hzero, hproduct]
    exact .fitted (fitted_toRat 0)
  rw [if_neg hzero]
  by_cases hshort : areShort a b
  · rw [if_pos hshort]
    by_cases hscale : 47 < a.scale + b.scale
    · rw [if_pos hscale]
      exact .fitted (fitted_zero_of_areShort hshort hscale)
    · rw [if_neg hscale, toRat_mul_toRat]
      exact fitsTo_fit _ _
  · rw [if_neg hshort, toRat_mul_toRat]
    have hfit := fitsTo_fit (a.coeff * b.coeff) (a.scale + b.scale)
    by_cases hneg : a.coeff * b.coeff < 0
    · rw [if_pos hneg]
      exact hfit.signZero
    · rw [if_neg hneg]
      exact hfit

/-! ## Results with room -/

theorem exists_mul?_fitted (a : Decimal) {share : Decimal} (hnonneg : 0 ≤ share.toRat)
    (hle : share.toRat ≤ 1) :
    ∃ c, a.mul? share = some c ∧ Fitted (a.toRat * share.toRat) c.toRat := by
  apply (fitsTo_mul? a share).exists_fitted
  apply (a.hasRoom_toRat.of_le a.scale.zero_le).of_abs_le
  rw [abs_mul, abs_of_nonneg hnonneg]
  exact mul_le_of_le_one_right (abs_nonneg _) hle

theorem exists_share_fitted (rate : Decimal) (hnonneg : 0 ≤ rate.toRat) (hle : rate.toRat ≤ 1) :
    ∃ share, (1 : Decimal).sub? rate = some share ∧ share.toRat = 1 - rate.toRat ∧
      ∀ a : Decimal, ∃ off, a.mul? share = some off ∧
        Fitted (a.toRat * (1 - rate.toRat)) off.toRat := by
  obtain ⟨share, hshare, hexact⟩ := exists_one_sub?_eq rate hnonneg hle
  refine ⟨share, hshare, hexact, fun a => ?_⟩
  rw [← hexact]
  apply a.exists_mul?_fitted
  · linarith
  · linarith

theorem exists_sub?_fitted {a b : Decimal} (ha : 0 ≤ a.toRat) (hb : 0 ≤ b.toRat) :
    ∃ c, a.sub? b = some c ∧ Fitted (a.toRat - b.toRat) c.toRat := by
  apply (fitsTo_sub? a b).exists_fitted
  rcases le_total a.toRat b.toRat with hab | hab
  · apply (b.hasRoom_toRat.of_le b.scale.zero_le).of_abs_le
    rw [abs_of_nonpos (by linarith), abs_of_nonneg hb]
    linarith
  · apply (a.hasRoom_toRat.of_le a.scale.zero_le).of_abs_le
    rw [abs_of_nonneg (by linarith), abs_of_nonneg ha]
    linarith

/-! ## Saturating sums -/

theorem toRat_greatest : greatest.toRat = 2 ^ 96 - 1 := by
  change ((twoPow 96 - 1 : Int) : ℚ) / 10 ^ 0 = 2 ^ 96 - 1
  rw [twoPow_96]
  norm_num

theorem le_greatest (a : Decimal) : a.toRat ≤ greatest.toRat := by
  have hcoeff : a.coeff ≤ 2 ^ 96 - 1 := by
    have hlt := a.coeff_lt
    rw [twoPow_96] at hlt
    omega
  rw [toRat_greatest, toRat, div_le_iff₀ (by positivity)]
  calc (a.coeff : ℚ) ≤ 2 ^ 96 - 1 := by exact_mod_cast hcoeff
    _ ≤ (2 ^ 96 - 1) * 10 ^ a.scale :=
      le_mul_of_one_le_right (by norm_num) (one_le_pow₀ (by norm_num))

theorem saturatingAdd_of_nonneg {a : Decimal} (b : Decimal) (ha : 0 ≤ a.toRat) :
    a.saturatingAdd b = (a.add? b).getD greatest := by
  have hsign : ¬a.isNegative := by rwa [isNegative_iff, not_lt]
  rw [saturatingAdd, if_neg hsign]

theorem saturatingAdd_nonneg {a b : Decimal} (ha : 0 ≤ a.toRat) (hb : 0 ≤ b.toRat) :
    0 ≤ (a.saturatingAdd b).toRat := by
  rw [saturatingAdd_of_nonneg b ha]
  have hsum := fitsTo_add? a b
  cases hresult : a.add? b with
  | none => exact ha.trans (le_greatest a)
  | some c =>
    rw [hresult] at hsum
    cases hsum with
    | fitted h => exact h.nonneg (add_nonneg ha hb)

/-- Where the larger sum is at the end of the range, nothing exceeds it. Where it has room, so does
the smaller one. -/
theorem saturatingAdd_mono {a b c d : Decimal} (ha : 0 ≤ a.toRat) (hb : 0 ≤ b.toRat)
    (hac : a.toRat ≤ c.toRat) (hbd : b.toRat ≤ d.toRat) :
    (a.saturatingAdd b).toRat ≤ (c.saturatingAdd d).toRat := by
  rw [saturatingAdd_of_nonneg b ha, saturatingAdd_of_nonneg d (ha.trans hac)]
  have hle : a.toRat + b.toRat ≤ c.toRat + d.toRat := add_le_add hac hbd
  have hlarger := fitsTo_add? c d
  cases hresult : c.add? d with
  | none => exact le_greatest _
  | some sum =>
    rw [hresult] at hlarger
    cases hlarger with
    | fitted hfitted =>
      obtain ⟨sum', hsum', hfitted'⟩ := (fitsTo_add? a b).exists_fitted
        (hfitted.hasRoom_zero.of_abs_le (abs_le_abs_of_nonneg (add_nonneg ha hb) hle))
      rw [hsum']
      exact hfitted'.mono hfitted hle

end Promotions.Decimal
