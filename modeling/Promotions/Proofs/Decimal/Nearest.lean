import Mathlib.Algebra.Order.Field.Rat
import Mathlib.Algebra.Ring.Parity
import Mathlib.Tactic.FieldSimp
import Mathlib.Tactic.Linarith
import Promotions.Decimal.Rounding

/-!
# The nearest integer

`HalfEven x r` is what rounding to the nearest integer means, without a way to compute it.
`roundHalfEven` computes it, and a larger number is never rounded to a smaller integer.
-/

namespace Promotions

/-- No integer is nearer to `x` than `r`, and `r` is even if another one is as near. -/
structure HalfEven (x : ℚ) (r : Int) : Prop where
  lower : (r : ℚ) - 1 / 2 ≤ x
  upper : x ≤ r + 1 / 2
  even_of_lower : x = r - 1 / 2 → Even r
  even_of_upper : x = r + 1 / 2 → Even r

theorem HalfEven.mono {x y : ℚ} {r s : Int} (hr : HalfEven x r) (hs : HalfEven y s) (hxy : x ≤ y) :
    r ≤ s := by
  by_contra hlt
  have hsucc : ((s + 1 : Int) : ℚ) ≤ r := by exact_mod_cast Int.not_le.1 hlt
  rw [Int.cast_add, Int.cast_one] at hsucc
  have hlow := hr.lower
  have hhigh := hs.upper
  -- Both are ties between `s` and its successor, which are not both even.
  have hx : x = r - 1 / 2 := by linarith
  have hy : y = s + 1 / 2 := by linarith
  have hrs : (r : ℚ) = ((s + 1 : Int) : ℚ) := by
    rw [Int.cast_add, Int.cast_one]
    linarith
  obtain ⟨k, hk⟩ := hr.even_of_lower hx
  obtain ⟨l, hl⟩ := hs.even_of_upper hy
  have hr' : r = s + 1 := by exact_mod_cast hrs
  omega

theorem HalfEven.neg {x : ℚ} {r : Int} (h : HalfEven x r) : HalfEven (-x) (-r) := by
  have hlow := h.lower
  have hhigh := h.upper
  refine ⟨?_, ?_, fun hx => ?_, fun hx => ?_⟩
  · push_cast
    linarith
  · push_cast
    linarith
  · push_cast at hx
    exact (h.even_of_upper (by linarith)).neg
  · push_cast at hx
    exact (h.even_of_lower (by linarith)).neg

theorem HalfEven.lt_iff {x : ℚ} {r n : Int} (h : HalfEven x r) (hn : Even n) :
    r < n ↔ x < n - 1 / 2 := by
  constructor
  · intro hlt
    by_contra hge
    have htie : HalfEven ((n : ℚ) - 1 / 2) n := by
      refine ⟨by linarith, by linarith, fun _ => hn, fun _ => hn⟩
    exact absurd (htie.mono h (not_lt.1 hge)) (not_le.2 hlt)
  · intro hlt
    have hlow := h.lower
    have hcast : (r : ℚ) < n := by linarith
    exact_mod_cast hcast

theorem halfEven_intCast (r : Int) : HalfEven r r := by
  refine ⟨by linarith, by linarith, ?_, ?_⟩
  · intro h
    exfalso
    linarith
  · intro h
    exfalso
    linarith

/-! ## The computed integer -/

theorem even_roundHalfEven (n : Int) (d : Nat) (hd : 0 < d)
    (h : 2 * n = 2 * (d * roundHalfEven n d) - d ∨ 2 * n = 2 * (d * roundHalfEven n d) + d) :
    Even (roundHalfEven n d) := by
  have hmod := Int.emod_nonneg n (b := (d : Int)) (by omega)
  have hlt := Int.emod_lt_of_pos n (b := (d : Int)) (by omega)
  have heq := Int.mul_ediv_add_emod n d
  rw [Int.even_iff]
  unfold roundHalfEven at h ⊢
  dsimp only at h ⊢
  split at h
  · omega
  · split at h
    · rename_i hdown
      rw [if_neg (by omega), if_pos hdown]
      exact hdown.2
    · rename_i hless hup
      rw [Int.mul_add] at h
      rw [if_neg hless, if_neg hup]
      omega

theorem halfEven_roundHalfEven (n : Int) (d : Nat) (hd : 0 < d) :
    HalfEven (n / d) (roundHalfEven n d) := by
  obtain ⟨hlow, hhigh⟩ := roundHalfEven_near n hd
  have heven := even_roundHalfEven n d hd
  generalize roundHalfEven n d = r at *
  have hdq : (0 : ℚ) < d := by exact_mod_cast hd
  have hlow' : 2 * ((d : ℚ) * r) ≤ 2 * n + d := by exact_mod_cast hlow
  have hhigh' : 2 * (n : ℚ) ≤ 2 * (d * r) + d := by exact_mod_cast hhigh
  refine ⟨?_, ?_, ?_, ?_⟩
  · rw [le_div_iff₀ hdq]
    linarith
  · rw [div_le_iff₀ hdq]
    linarith
  · intro h
    rw [div_eq_iff hdq.ne'] at h
    apply heven
    left
    have : 2 * (n : ℚ) = 2 * (d * r) - d := by linarith
    exact_mod_cast this
  · intro h
    rw [div_eq_iff hdq.ne'] at h
    apply heven
    right
    have : 2 * (n : ℚ) = 2 * (d * r) + d := by linarith
    exact_mod_cast this

end Promotions
