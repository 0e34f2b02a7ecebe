import Promotions.Proofs.Decimal.Fitted
import Promotions.Proofs.Decimal.RoundTrip

/-!
# The number that is read

A numeral of any length has a value, `numeralValue`. What is read is the nearest number of some
scale, `Kept` says of which one. So every number that a decimal stands for is read as it is, and of
the other ones fraction digits are dropped until there is room. Only where the whole part has no
room is nothing read.
-/

namespace Promotions

namespace Text

theorem digitsValue_le_nine (c : Char) (h : c.isDigit) : digitsValue [c] ≤ 9 := by
  simp only [Char.isDigit, Bool.and_eq_true, decide_eq_true_eq] at h
  have hnine : c.toNat ≤ 57 := h.2
  rw [digitsValue_singleton]
  change c.toNat - 48 ≤ 9
  omega

theorem ofDigitChars_lt (cs : List Char) (m : Nat) (h : ∀ c ∈ cs, c.isDigit) :
    Nat.ofDigitChars 10 cs m < (m + 1) * 10 ^ cs.length := by
  induction cs generalizing m with
  | nil =>
    rw [Nat.ofDigitChars_nil]
    simp
  | cons c cs ih =>
    have hdigit := digitsValue_le_nine c (h c List.mem_cons_self)
    rw [digitsValue_singleton] at hdigit
    rw [Nat.ofDigitChars_cons, List.length_cons, Nat.pow_succ']
    calc Nat.ofDigitChars 10 cs (10 * m + (c.toNat - '0'.toNat))
        < (10 * m + (c.toNat - '0'.toNat) + 1) * 10 ^ cs.length :=
          ih _ fun d hd => h d (List.mem_cons_of_mem c hd)
      _ ≤ ((m + 1) * 10) * 10 ^ cs.length := Nat.mul_le_mul_right _ (by omega)
      _ = (m + 1) * (10 * 10 ^ cs.length) := Nat.mul_assoc _ _ _

theorem mul_le_ofDigitChars (cs : List Char) (m : Nat) :
    m * 10 ^ cs.length ≤ Nat.ofDigitChars 10 cs m := by
  rw [Nat.ofDigitChars_eq_ofDigitChars_zero, Nat.mul_comm]
  exact Nat.le_add_right _ _

end Text

namespace Decimal

open Text

/-! ## Values of numerals -/

/-- The whole part and the digits after the point. -/
def unsignedValue (cs : List Char) : ℚ :=
  let fraction := (cs.dropWhile (· != '.')).tail
  digitsValue (cs.takeWhile (· != '.')) + digitsValue fraction / 10 ^ fraction.length

def numeralValue : List Char → ℚ
  | '-' :: cs => -unsignedValue cs
  | cs => unsignedValue cs

/-- The digits `cs` after the number `m / 10 ^ s`. -/
def followedBy (m s : Nat) (cs : List Char) : ℚ := Nat.ofDigitChars 10 cs m / 10 ^ (s + cs.length)

theorem unsignedValue_unsignedChars {whole : List Char} (hw : isDigits whole)
    (fraction : List Char) :
    unsignedValue (unsignedChars whole fraction) = followedBy (digitsValue whole) 0 fraction := by
  have htail : (if fraction = [] then [] else '.' :: fraction).tail = fraction := by
    split
    · rename_i hnil
      rw [hnil, List.tail_nil]
    · rw [List.tail_cons]
  unfold unsignedValue followedBy
  rw [takeWhile_unsignedChars hw, dropWhile_unsignedChars hw, htail,
    Nat.ofDigitChars_eq_ofDigitChars_zero, Nat.zero_add]
  dsimp only
  rw [digitsValue.eq_def fraction]
  push_cast
  field_simp

theorem followedBy_nil (m s : Nat) : followedBy m s [] = m / 10 ^ s := by
  simp [followedBy]

theorem followedBy_cons (m s : Nat) (c : Char) (cs : List Char) :
    followedBy m s (c :: cs) = followedBy (10 * m + digitsValue [c]) (s + 1) cs := by
  rw [followedBy, followedBy, Nat.ofDigitChars_cons, digitsValue_singleton, List.length_cons,
    Nat.add_right_comm, Nat.add_assoc]

theorem followedBy_nonneg (m s : Nat) (cs : List Char) : 0 ≤ followedBy m s cs := by
  unfold followedBy
  positivity

theorem followedBy_bounds (m s : Nat) (cs : List Char) (h : ∀ c ∈ cs, c.isDigit) :
    m ≤ followedBy m s cs * 10 ^ s ∧ followedBy m s cs * 10 ^ s < m + 1 := by
  have hunits : followedBy m s cs * 10 ^ s = Nat.ofDigitChars 10 cs m / 10 ^ cs.length := by
    rw [followedBy, pow_add]
    field_simp
  have hpow : (0 : ℚ) < 10 ^ cs.length := by positivity
  rw [hunits, le_div_iff₀ hpow, div_lt_iff₀ hpow]
  constructor
  · exact_mod_cast mul_le_ofDigitChars cs m
  · exact_mod_cast ofDigitChars_lt cs m h

/-! ## What is kept of a number -/

/-- `c / 10 ^ s` is the nearest to `x` of the scale `s`, and of two it is the one away from zero. It
is `x` itself, or no larger scale has room. -/
structure Kept (x : ℚ) (c : Int) (s : Nat) : Prop where
  near : |x * 10 ^ s - c| ≤ 1 / 2
  away : |x * 10 ^ s - c| = 1 / 2 → |x| * 10 ^ s < |(c : ℚ)|
  room : HasRoom x s
  scale_le : s ≤ 28
  full : x * 10 ^ s = c ∨ s = 28 ∨ ¬HasRoom x (s + 1)

theorem hasRoom_iff_of_nonneg {x : ℚ} (hx : 0 ≤ x) (t : Nat) :
    HasRoom x t ↔ x * 10 ^ t < (twoPow 96 : Int) - 1 / 2 := by
  rw [HasRoom, abs_of_nonneg hx]

theorem not_hasRoom_of_le {x : ℚ} {c t : Nat} (hc : twoPow 96 ≤ c) (hcx : (c : ℚ) ≤ x * 10 ^ t) :
    ¬HasRoom x t := by
  have hlarge : ((twoPow 96 : Int) : ℚ) ≤ c := by exact_mod_cast hc
  have habs : x * 10 ^ t ≤ |x| * 10 ^ t :=
    mul_le_mul_of_nonneg_right (le_abs_self x) (by positivity)
  rw [HasRoom, not_lt]
  linarith

theorem Kept.neg {x : ℚ} {c : Int} {s : Nat} (h : Kept x c s) : Kept (-x) (-c) s := by
  have hdistance : |-x * 10 ^ s - ((-c : Int) : ℚ)| = |x * 10 ^ s - c| := by
    rw [Int.cast_neg, neg_mul, ← neg_sub', abs_neg]
  refine ⟨?_, ?_, ?_, h.scale_le, ?_⟩
  · rw [hdistance]
    exact h.near
  · rw [hdistance, abs_neg, Int.cast_neg, abs_neg]
    exact h.away
  · unfold HasRoom
    rw [abs_neg]
    exact h.room
  · unfold HasRoom
    rw [abs_neg, neg_mul, Int.cast_neg, neg_inj]
    exact h.full

theorem kept_of_bounds {x : ℚ} {c s : Nat} (hx : 0 ≤ x) (hlow : (c : ℚ) - 1 / 2 ≤ x * 10 ^ s)
    (hhigh : x * 10 ^ s < c + 1 / 2) (hc : c < twoPow 96) (hs : s ≤ 28)
    (hfull : x * 10 ^ s = c ∨ s = 28 ∨ ¬HasRoom x (s + 1)) : Kept x c s := by
  have hroom : (c : ℚ) + 1 ≤ (twoPow 96 : Int) := by exact_mod_cast hc
  refine ⟨?_, ?_, ?_, hs, ?_⟩
  · rw [Int.cast_natCast, abs_le]
    constructor <;> linarith
  · intro htie
    rw [Int.cast_natCast] at htie
    rw [abs_of_nonneg hx, Int.cast_natCast, Nat.abs_cast]
    rcases abs_eq (by norm_num) |>.1 htie with h | h <;> linarith
  · rw [hasRoom_iff_of_nonneg hx]
    linarith
  · exact_mod_cast hfull

/-- The outcome of reading a numeral of the value `x`. -/
inductive ReadsTo (x : ℚ) : Option Decimal → Prop
  | kept {a : Decimal} (h : Kept x a.coeff a.scale) : ReadsTo x (some a)
  | tooLarge (h : ¬HasRoom x 0) : ReadsTo x none

theorem ReadsTo.neg {x : ℚ} {result : Option Decimal} (h : ReadsTo x result) :
    ReadsTo (-x) (result.map fun a => -a) := by
  cases h with
  | kept hkept => exact .kept hkept.neg
  | tooLarge hnone =>
    refine .tooLarge ?_
    unfold HasRoom
    rwa [abs_neg]

/-! ## Reading digit by digit -/

variable {x : ℚ} {m s : Nat}

/-- The decimal of a coefficient and a scale that were read. -/
def ofPair? (negative : Bool) (pair : Option (Nat × Nat)) : Option Decimal :=
  pair.bind fun (m, s) => ofParts? negative m s

theorem readsTo_some (hm : m < twoPow 96) (h : Kept x m s) :
    ReadsTo x (ofPair? false (some (m, s))) := by
  have hpair : ofPair? false (some (m, s)) = some (ofCoeff m s (by simpa using hm) h.scale_le) :=
    dif_pos ⟨hm, h.scale_le⟩
  rw [hpair]
  exact .kept h

theorem readsTo_roundUp (hx : 0 ≤ x) (hlow : (m : ℚ) + 1 / 2 ≤ x * 10 ^ s)
    (hhigh : x * 10 ^ s < m + 1) (hm : m < twoPow 96) (hs : s ≤ 28)
    (hfull : s = 28 ∨ ¬HasRoom x (s + 1)) : ReadsTo x (ofPair? false (roundUp m s)) := by
  unfold roundUp
  by_cases hnext : m + 1 < twoPow 96
  · rw [if_pos hnext]
    refine readsTo_some hnext (kept_of_bounds hx ?_ ?_ hnext hs (.inr hfull))
    · push_cast
      linarith
    · push_cast
      linarith
  -- The next coefficient is the first one without room.
  rw [if_neg hnext]
  have hlast : m + 1 = twoPow 96 := by omega
  have hcast : (m : ℚ) + 1 = (twoPow 96 : Int) := by exact_mod_cast hlast
  have hnone : ¬HasRoom x s := by
    rw [hasRoom_iff_of_nonneg hx, not_lt]
    linarith
  cases s with
  | zero => exact .tooLarge hnone
  | succ s =>
    have hbound := twoPow_96
    obtain rfl : m = 79228162514264337593543950335 := by omega
    rw [pow_succ, ← mul_assoc] at hlow hhigh
    refine readsTo_some (by omega) (kept_of_bounds hx ?_ ?_ (by omega) (by omega)
      (.inr (.inr hnone)))
    · norm_num at hlow ⊢
      linarith
    · norm_num at hhigh ⊢
      linarith

/-- The first digit that is not taken rounds. It decides the tie too, as the digits after it only
make the number larger. -/
theorem readsTo_of_digit {digit : Nat} (hx : 0 ≤ x) (hlow : (10 * m + digit : ℚ) ≤ x * 10 ^ (s + 1))
    (hhigh : x * 10 ^ (s + 1) < 10 * m + digit + 1) (hnine : digit ≤ 9) (hm : m < twoPow 96)
    (hs : s ≤ 28) (hfull : s = 28 ∨ ¬HasRoom x (s + 1)) :
    ReadsTo x (ofPair? false (if digit < 5 then some (m, s) else roundUp m s)) := by
  rw [pow_succ, ← mul_assoc] at hlow hhigh
  by_cases hdown : digit < 5
  · have hdigit : (digit : ℚ) + 1 ≤ 5 := by exact_mod_cast hdown
    have hdigit0 : (0 : ℚ) ≤ digit := Nat.cast_nonneg digit
    rw [if_pos hdown]
    refine readsTo_some hm (kept_of_bounds hx ?_ ?_ hm hs (.inr hfull))
    · linarith
    · linarith
  · have hdigit : (5 : ℚ) ≤ digit := by exact_mod_cast Nat.le_of_not_lt hdown
    have hdigit9 : (digit : ℚ) ≤ 9 := by exact_mod_cast hnine
    rw [if_neg hdown]
    apply readsTo_roundUp hx ?_ ?_ hm hs hfull
    · linarith
    · linarith

theorem readsTo_readFraction (m s : Nat) (cs : List Char) (hcs : ∀ c ∈ cs, c.isDigit)
    (hm : m < twoPow 96) (hs : s ≤ 28) :
    ReadsTo (followedBy m s cs) (ofPair? false (readFraction m s cs)) := by
  induction cs generalizing m s with
  | nil =>
    have hunits : (m : ℚ) / 10 ^ s * 10 ^ s = m := by field_simp
    rw [readFraction, followedBy_nil]
    refine readsTo_some hm (kept_of_bounds (by positivity) ?_ ?_ hm hs (.inl hunits))
    · rw [hunits]
      linarith
    · rw [hunits]
      linarith
  | cons c cs ih =>
    have hrest : ∀ d ∈ cs, d.isDigit := fun d hd => hcs d (List.mem_cons_of_mem c hd)
    rw [readFraction, followedBy_cons]
    by_cases hroom : 10 * m + digitsValue [c] < twoPow 96 ∧ s < 28
    · rw [if_pos hroom]
      exact ih (10 * m + digitsValue [c]) (s + 1) hrest hroom.1 hroom.2
    · rw [if_neg hroom]
      have hnonneg := followedBy_nonneg (10 * m + digitsValue [c]) (s + 1) cs
      obtain ⟨hlow, hhigh⟩ := followedBy_bounds (10 * m + digitsValue [c]) (s + 1) cs hrest
      generalize followedBy (10 * m + digitsValue [c]) (s + 1) cs = x at hnonneg hlow hhigh
      have hfull : s = 28 ∨ ¬HasRoom x (s + 1) := by
        rcases Nat.lt_or_ge s 28 with hlt | hge
        · exact .inr (not_hasRoom_of_le (Nat.le_of_not_lt fun h => hroom ⟨h, hlt⟩) hlow)
        · exact .inl (Nat.le_antisymm hs hge)
      push_cast at hlow hhigh
      exact readsTo_of_digit hnonneg hlow hhigh (digitsValue_le_nine c (hcs c List.mem_cons_self))
        hm hs hfull

/-! ## Reading a numeral -/

theorem ofPair?_true (pair : Option (Nat × Nat)) :
    ofPair? true pair = (ofPair? false pair).map fun a => -a := by
  cases pair with
  | none => rfl
  | some pair =>
    obtain ⟨m, s⟩ := pair
    change ofParts? true m s = (ofParts? false m s).map fun a => -a
    unfold ofParts?
    split
    · rfl
    · rfl

theorem readsTo_readUnsigned {whole fraction : List Char} (hw : isDigits whole)
    (hf : ∀ c ∈ fraction, c.isDigit) :
    ReadsTo (unsignedValue (unsignedChars whole fraction))
      (ofPair? false (readUnsigned (unsignedChars whole fraction))) := by
  rw [unsignedValue_unsignedChars hw, readUnsigned_eq whole fraction hw hf]
  by_cases hroom : digitsValue whole < twoPow 96
  · rw [if_pos hroom]
    exact readsTo_readFraction _ 0 fraction hf hroom (Nat.zero_le 28)
  · have hlow := (followedBy_bounds (digitsValue whole) 0 fraction hf).1
    rw [if_neg hroom]
    exact .tooLarge (not_hasRoom_of_le (Nat.le_of_not_lt hroom) hlow)

/-- Every numeral is read like that, whatever its length. -/
theorem readsTo_ofChars? {cs : List Char} (h : IsNumeral cs) :
    ReadsTo (numeralValue cs) (ofChars? cs) := by
  obtain ⟨sign, whole, fraction, hsign, hwhole, hfraction, rfl⟩ := h
  have hread := readsTo_readUnsigned hwhole hfraction
  rcases hsign with rfl | rfl
  · obtain ⟨d, cs, hd, hcons⟩ := exists_digit_cons hwhole fraction
    have hminus : d ≠ '-' := ne_of_isDigit d _ hd (by decide)
    rw [hcons] at hread
    rw [List.nil_append, hcons, numeralValue, ofChars?]
    · exact hread
    all_goals
      intro rest hrest
      exact hminus (List.cons.inj hrest).1
  · have hneg := hread.neg
    rw [← ofPair?_true] at hneg
    exact hneg

/-! ## Numbers that are read exactly -/

/-- Some decimal stands for the number. -/
def Representable (x : ℚ) : Prop := ∃ d : Decimal, d.toRat = x

theorem eq_of_abs_sub_le_half {c d : Int} (h : |(d : ℚ) - c| ≤ 1 / 2) : d = c := by
  have hlt : |((d - c : Int) : ℚ)| < 1 := by
    rw [Int.cast_sub]
    linarith
  rw [← Int.cast_abs] at hlt
  have hzero : |d - c| < 1 := by exact_mod_cast hlt
  exact Int.sub_eq_zero.1 (Int.abs_lt_one_iff.1 hzero)

theorem toRat_eq_iff (a : Decimal) (x : ℚ) : a.toRat = x ↔ x * 10 ^ a.scale = a.coeff := by
  rw [toRat, div_eq_iff (by positivity), eq_comm]

theorem Kept.toRat_eq_iff {a : Decimal} (h : Kept x a.coeff a.scale) :
    a.toRat = x ↔ Representable x := by
  constructor
  · exact fun heq => ⟨a, heq⟩
  · rintro ⟨d, rfl⟩
    rw [Decimal.toRat_eq_iff]
    rcases h.full with hexact | hfull
    · exact hexact
    · have hunits : d.toRat * 10 ^ a.scale = ((d.coeff * 10 ^ (a.scale - d.scale) : Int) : ℚ) :=
        div_mul_pow d.coeff (d.scale_le_of_full hfull)
      have hnear := h.near
      rw [hunits] at hnear ⊢
      rw [eq_of_abs_sub_le_half hnear]

theorem Representable.hasRoom {x : ℚ} (h : Representable x) : HasRoom x 0 := by
  obtain ⟨d, rfl⟩ := h
  exact d.hasRoom_toRat.of_le d.scale.zero_le

end Decimal

end Promotions
