import Mathlib.Algebra.BigOperators.Group.List.Basic
import Mathlib.Data.List.MinMax
import Promotions.Proofs.Decimal.Fitted

/-!
# Exact totals

Decimals that are not negative are whole numbers of the smallest unit among them, and so are their
sums. A sum that has room in this unit is exact, whatever the scales of its two operands are.
-/

namespace Promotions.Decimal

/-! ## Units -/

/-- `x` is a number of units of `10 ^ -s`. -/
def InUnits (s : Nat) (x : ℚ) : Prop := ∃ n : Nat, x * 10 ^ s = n

variable {s : Nat} {x y : ℚ} {a b : Decimal} {amounts amounts' : List Decimal}

theorem InUnits.zero : InUnits s 0 := ⟨0, by simp⟩

theorem InUnits.add (hx : InUnits s x) (hy : InUnits s y) : InUnits s (x + y) := by
  obtain ⟨m, hm⟩ := hx
  obtain ⟨n, hn⟩ := hy
  exact ⟨m + n, by rw [add_mul, hm, hn, Nat.cast_add]⟩

theorem InUnits.nonneg (h : InUnits s x) : 0 ≤ x := by
  obtain ⟨n, hn⟩ := h
  have hunits : 0 ≤ x * 10 ^ s := hn ▸ n.cast_nonneg
  exact nonneg_of_mul_nonneg_left hunits (by positivity)

theorem inUnits_toRat (hnonneg : 0 ≤ a.toRat) (hscale : a.scale ≤ s) : InUnits s a.toRat := by
  have hunits : a.toRat * 10 ^ s = ((a.coeff * 10 ^ (s - a.scale) : Int) : ℚ) :=
    div_mul_pow a.coeff hscale
  have hpos : (0 : ℚ) ≤ ((a.coeff * 10 ^ (s - a.scale) : Int) : ℚ) :=
    hunits ▸ mul_nonneg hnonneg (by positivity)
  obtain ⟨n, hn⟩ := Int.eq_ofNat_of_zero_le (Int.cast_nonneg_iff.1 hpos)
  exact ⟨n, by rw [hunits, hn]; rfl⟩

theorem units_lt_of_le (h : y * 10 ^ s < twoPow 96) (hxy : x ≤ y) : x * 10 ^ s < twoPow 96 :=
  (mul_le_mul_of_nonneg_right hxy (by positivity)).trans_lt h

theorem InUnits.exists_toRat_eq (h : InUnits s x) (hs : s ≤ 28) (hroom : x * 10 ^ s < twoPow 96) :
    ∃ d : Decimal, d.toRat = x := by
  obtain ⟨n, hn⟩ := h
  have hlt : (n : Int).natAbs < twoPow 96 := by
    rw [hn] at hroom
    exact_mod_cast hroom
  refine ⟨ofCoeff n s hlt hs, ?_⟩
  change ((n : Int) : ℚ) / 10 ^ s = x
  rw [Int.cast_natCast, ← hn]
  field_simp

theorem toRat_saturatingAdd (ha : InUnits s a.toRat) (hb : InUnits s b.toRat) (hs : s ≤ 28)
    (hroom : (a.toRat + b.toRat) * 10 ^ s < twoPow 96) :
    (a.saturatingAdd b).toRat = a.toRat + b.toRat := by
  obtain ⟨d, hd⟩ := (ha.add hb).exists_toRat_eq hs hroom
  obtain ⟨c, hc, hexact⟩ := (hd ▸ fitsTo_add? a b).exists_exact
  rw [saturatingAdd_of_nonneg b ha.nonneg, hc, Option.getD_some, hexact, hd]

/-! ## Totals -/

/-- The exact sum. -/
def total (amounts : List Decimal) : ℚ := (amounts.map toRat).sum

@[simp]
theorem total_nil : total [] = 0 := rfl

@[simp]
theorem total_cons (a : Decimal) (amounts : List Decimal) :
    total (a :: amounts) = a.toRat + total amounts :=
  List.sum_cons

theorem total_append (amounts amounts' : List Decimal) :
    total (amounts ++ amounts') = total amounts + total amounts' := by
  rw [total, List.map_append, List.sum_append]
  rfl

theorem total_eq_of_perm (h : amounts.Perm amounts') : total amounts = total amounts' :=
  (h.map toRat).sum_eq

theorem inUnits_total (h : ∀ amount ∈ amounts, InUnits s amount.toRat) :
    InUnits s (total amounts) := by
  induction amounts with
  | nil => exact .zero
  | cons a amounts ih =>
    rw [List.forall_mem_cons] at h
    rw [total_cons]
    exact h.1.add (ih h.2)

/-! ## The smallest unit -/

/-- The most fraction digits among the decimals. -/
def largestScale (amounts : List Decimal) : Nat := (amounts.map (·.scale)).foldr max 0

theorem scale_le_largestScale (h : a ∈ amounts) : a.scale ≤ largestScale amounts :=
  List.le_max_of_le (List.mem_map_of_mem h) le_rfl

theorem largestScale_le (amounts : List Decimal) : largestScale amounts ≤ 28 := by
  refine List.max_le_of_forall_le _ _ fun scale hscale => ?_
  obtain ⟨a, -, rfl⟩ := List.mem_map.1 hscale
  exact a.scale_le

end Promotions.Decimal
