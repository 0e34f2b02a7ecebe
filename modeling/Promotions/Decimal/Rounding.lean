/-!
# Rounding a quotient

`roundHalfEven n d` is the integer nearest to `n / d`, and a tie goes to the even one.
Rounding never moves a number away from zero past its numerator, so what had room keeps it.
-/

namespace Promotions

/-- The integer nearest to `n / d`. Halfway between two of them, the even one. -/
def roundHalfEven (n : Int) (d : Nat) : Int :=
  let q := n / d
  let twice := 2 * (n % d)
  if twice < d then q
  else if twice = d ∧ q % 2 = 0 then q
  else q + 1

@[simp]
theorem roundHalfEven_one (n : Int) : roundHalfEven n 1 = n := by
  simp [roundHalfEven]

@[simp]
theorem roundHalfEven_zero (d : Nat) : roundHalfEven 0 d = 0 := by
  cases d <;> simp [roundHalfEven]

theorem roundHalfEven_near (n : Int) {d : Nat} (hd : 0 < d) :
    2 * (d * roundHalfEven n d) ≤ 2 * n + d ∧ 2 * n ≤ 2 * (d * roundHalfEven n d) + d := by
  have hmod := Int.emod_nonneg n (b := (d : Int)) (by omega)
  have hlt := Int.emod_lt_of_pos n (b := (d : Int)) (by omega)
  have heq := Int.mul_ediv_add_emod n d
  unfold roundHalfEven
  dsimp only
  split
  · omega
  · split
    · omega
    · rw [Int.mul_add]
      omega

theorem natAbs_roundHalfEven_le (n : Int) {d : Nat} (hd : 0 < d) :
    (roundHalfEven n d).natAbs ≤ n.natAbs := by
  obtain ⟨hup, hlow⟩ := roundHalfEven_near n hd
  generalize roundHalfEven n d = r at *
  have hpos : (1 : Int) ≤ d := by omega
  have bound : ∀ {x y : Int}, x ≤ y → (d : Int) * x ≤ d * y :=
    fun h => Int.mul_le_mul_of_nonneg_left h (by omega)
  rcases Int.le_total 0 n with hn | hn
  · have hdn : n ≤ d * n := by simpa using Int.mul_le_mul_of_nonneg_right hpos hn
    have hr0 : 0 ≤ r := by
      apply Int.not_lt.1
      intro h
      have := bound (show r ≤ -1 by omega)
      omega
    have hrn : r ≤ n := by
      apply Int.not_lt.1
      intro h
      have := bound (show n + 1 ≤ r by omega)
      rw [Int.mul_add] at this
      omega
    omega
  · have hdn : d * n ≤ n := by simpa using Int.mul_le_mul_of_nonpos_right hpos hn
    have hr0 : r ≤ 0 := by
      apply Int.not_lt.1
      intro h
      have := bound (show 1 ≤ r by omega)
      omega
    have hrn : n ≤ r := by
      apply Int.not_lt.1
      intro h
      have := bound (show r ≤ n - 1 by omega)
      rw [Int.mul_sub] at this
      omega
    omega

end Promotions
