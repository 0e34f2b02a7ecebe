import Promotions.Decimal.Text

/-!
# Written decimals

The text of a decimal is read as the same coefficient and scale. Only the minus sign of a zero is
lost.
-/

namespace Promotions

namespace Text

/-! ## Digits -/

theorem le_ofDigitChars (cs : List Char) (m : Nat) : m ≤ Nat.ofDigitChars 10 cs m := by
  induction cs generalizing m with
  | nil => exact Nat.le_of_eq Nat.ofDigitChars_nil.symm
  | cons c cs ih =>
    rw [Nat.ofDigitChars_cons]
    refine Nat.le_trans ?_ (ih _)
    omega

theorem digitsValue_singleton (c : Char) : digitsValue [c] = c.toNat - '0'.toNat := by
  rw [digitsValue, Nat.ofDigitChars_cons, Nat.ofDigitChars_nil]
  omega

theorem digitsValue_append (cs ds : List Char) :
    digitsValue (cs ++ ds) = Nat.ofDigitChars 10 ds (digitsValue cs) := by
  rw [digitsValue, Nat.ofDigitChars_append]
  rfl

theorem isDigits_iff (cs : List Char) :
    isDigits cs ↔ cs ≠ [] ∧ ∀ c ∈ cs, c.isDigit := by
  rw [isDigits]
  cases cs <;> simp

theorem digitsValue_paddedDigits (width n : Nat) : digitsValue (paddedDigits width n) = n := by
  rw [paddedDigits, digitsValue_append, digitsValue, Nat.ofDigitChars_replicate_zero, Nat.mul_zero,
    Nat.ofDigitChars_ten_toDigits]

theorem isDigit_of_mem_paddedDigits (width n : Nat) (c : Char) (h : c ∈ paddedDigits width n) :
    c.isDigit := by
  rw [paddedDigits, List.mem_append] at h
  rcases h with h | h
  · rw [List.eq_of_mem_replicate h]
    rfl
  · exact Nat.isDigit_of_mem_toDigits (by decide) (by decide) h

theorem le_length_paddedDigits (width n : Nat) : width ≤ (paddedDigits width n).length := by
  rw [paddedDigits, List.length_append, List.length_replicate]
  omega

theorem length_paddedDigits {width n : Nat} (hw : 0 < width) (h : n < tenPow width) :
    (paddedDigits width n).length = width := by
  have hle := (Nat.length_toDigits_le_iff (by decide : 1 < 10) hw).2 h
  rw [paddedDigits, List.length_append, List.length_replicate]
  omega

theorem isDigits_paddedDigits {width n : Nat} (hw : 0 < width) :
    isDigits (paddedDigits width n) := by
  refine (isDigits_iff _).2 ⟨?_, isDigit_of_mem_paddedDigits width n⟩
  have hle := le_length_paddedDigits width n
  rw [← List.length_pos_iff]
  omega

theorem ne_of_isDigit (c d : Char) (h : c.isDigit) (hd : d.isDigit = false) : c ≠ d := by
  rintro rfl
  simp [hd] at h

end Text

namespace Decimal

open Text

/-! ## Numerals -/

/-- A numeral without a sign, its fraction left out where it has no digits. -/
def unsignedChars (whole fraction : List Char) : List Char :=
  whole ++ (if fraction = [] then [] else '.' :: fraction)

theorem exists_digit_cons {whole : List Char} (hw : isDigits whole) (fraction : List Char) :
    ∃ d cs, d.isDigit ∧ unsignedChars whole fraction = d :: cs := by
  obtain ⟨hne, hdigit⟩ := (isDigits_iff whole).1 hw
  obtain ⟨d, cs, rfl⟩ := List.exists_cons_of_ne_nil hne
  exact ⟨d, _, hdigit d List.mem_cons_self, rfl⟩

theorem isDigit_or_point_of_mem {whole fraction : List Char} (hw : isDigits whole)
    (hf : ∀ c ∈ fraction, c.isDigit) {c : Char} (h : c ∈ unsignedChars whole fraction) :
    c.isDigit ∨ c = '.' := by
  rw [unsignedChars, List.mem_append] at h
  rcases h with h | h
  · exact Or.inl (((isDigits_iff whole).1 hw).2 c h)
  · split at h
    · simp at h
    · rcases List.mem_cons.1 h with rfl | h
      · exact Or.inr rfl
      · exact Or.inl (hf c h)

/-- An optional minus sign, digits, and optionally a point and more digits. -/
def IsNumeral (cs : List Char) : Prop :=
  ∃ sign whole fraction, (sign = [] ∨ sign = ['-']) ∧ isDigits whole ∧
    (∀ c ∈ fraction, c.isDigit) ∧ cs = sign ++ unsignedChars whole fraction

theorem exists_unsignedChars_of_readUnsigned {cs : List Char} {m : Nat × Nat}
    (h : readUnsigned cs = some m) :
    ∃ whole fraction, isDigits whole ∧ (∀ c ∈ fraction, c.isDigit) ∧
      cs = unsignedChars whole fraction := by
  unfold readUnsigned at h
  dsimp only at h
  rw [Option.ite_none_right_eq_some] at h
  obtain ⟨⟨hwhole, -⟩, h⟩ := h
  have hsplit := List.takeWhile_append_dropWhile (p := (· != '.')) (l := cs)
  generalize cs.takeWhile (· != '.') = whole at hwhole hsplit
  cases hdrop : cs.dropWhile (· != '.') with
  | nil =>
    rw [hdrop] at hsplit
    exact ⟨whole, [], hwhole, by simp, by simpa [unsignedChars] using hsplit.symm⟩
  | cons point fraction =>
    rw [hdrop] at h hsplit
    dsimp only at h
    rw [Option.ite_none_right_eq_some] at h
    obtain ⟨hne, hfraction⟩ := (isDigits_iff fraction).1 h.1
    have hpoint := List.head?_dropWhile_not (· != '.') cs
    rw [hdrop] at hpoint
    obtain rfl : point = '.' := by simpa using hpoint
    exact ⟨whole, fraction, hwhole, hfraction, by simp [unsignedChars, hne, hsplit]⟩

theorem isNumeral_of_ofChars? {cs : List Char} {n : Decimal} (h : ofChars? cs = some n) :
    IsNumeral cs := by
  unfold ofChars? at h
  split at h
  · obtain ⟨m, hm, -⟩ := Option.bind_eq_some_iff.1 h
    obtain ⟨whole, fraction, hwhole, hfraction, rfl⟩ := exists_unsignedChars_of_readUnsigned hm
    exact ⟨['-'], whole, fraction, Or.inr rfl, hwhole, hfraction, rfl⟩
  · obtain ⟨m, hm, -⟩ := Option.bind_eq_some_iff.1 h
    obtain ⟨whole, fraction, hwhole, hfraction, rfl⟩ := exists_unsignedChars_of_readUnsigned hm
    exact ⟨[], whole, fraction, Or.inl rfl, hwhole, hfraction, rfl⟩

/-! ## Reading digits that have room -/

theorem readFraction_of_room (m s : Nat) (cs : List Char) (hs : s + cs.length ≤ 28)
    (hm : Nat.ofDigitChars 10 cs m < twoPow 96) :
    readFraction m s cs = some (Nat.ofDigitChars 10 cs m, s + cs.length) := by
  induction cs generalizing m s with
  | nil => rw [readFraction, Nat.ofDigitChars_nil, List.length_nil, Nat.add_zero]
  | cons c cs ih =>
    rw [Nat.ofDigitChars_cons] at hm ⊢
    rw [List.length_cons] at hs ⊢
    have hroom := Nat.lt_of_le_of_lt (le_ofDigitChars cs _) hm
    rw [readFraction, digitsValue_singleton, if_pos ⟨hroom, by omega⟩, ih _ _ (by omega) hm]
    congr 2
    omega

theorem takeWhile_unsignedChars {whole : List Char} (hw : isDigits whole) (fraction : List Char) :
    (unsignedChars whole fraction).takeWhile (· != '.') = whole := by
  have hpoint : ∀ c ∈ whole, (c != '.') = true := by
    intro c hc
    rw [bne_iff_ne]
    exact ne_of_isDigit c _ (((isDigits_iff whole).1 hw).2 c hc) (by decide)
  rw [unsignedChars, List.takeWhile_append_of_pos hpoint]
  split <;> simp

theorem dropWhile_unsignedChars {whole : List Char} (hw : isDigits whole) (fraction : List Char) :
    (unsignedChars whole fraction).dropWhile (· != '.') =
      if fraction = [] then [] else '.' :: fraction := by
  have hsplit := List.takeWhile_append_dropWhile (p := (· != '.'))
    (l := unsignedChars whole fraction)
  rw [takeWhile_unsignedChars hw] at hsplit
  exact List.append_cancel_left hsplit

theorem readUnsigned_eq (whole fraction : List Char) (hw : isDigits whole)
    (hf : ∀ c ∈ fraction, c.isDigit) :
    readUnsigned (unsignedChars whole fraction) =
      if digitsValue whole < twoPow 96 then readFraction (digitsValue whole) 0 fraction
      else none := by
  unfold readUnsigned
  dsimp only
  rw [takeWhile_unsignedChars hw, dropWhile_unsignedChars hw]
  by_cases hroom : digitsValue whole < twoPow 96
  · rw [if_pos ⟨hw, hroom⟩, if_pos hroom]
    by_cases hnil : fraction = []
    · rw [hnil, if_pos rfl, readFraction]
    · rw [if_neg hnil]
      exact if_pos ((isDigits_iff fraction).2 ⟨hnil, hf⟩)
  · rw [if_neg (fun h => hroom h.2), if_neg hroom]

theorem readUnsigned_of_room (whole fraction : List Char) (hw : isDigits whole)
    (hf : ∀ c ∈ fraction, c.isDigit) (hlen : fraction.length ≤ 28)
    (hroom : digitsValue (whole ++ fraction) < twoPow 96) :
    readUnsigned (unsignedChars whole fraction) =
      some (digitsValue (whole ++ fraction), fraction.length) := by
  rw [digitsValue_append] at hroom ⊢
  have hwhole := Nat.lt_of_le_of_lt (le_ofDigitChars fraction _) hroom
  rw [readUnsigned_eq whole fraction hw hf, if_pos hwhole,
    readFraction_of_room _ _ _ (by omega) hroom, Nat.zero_add]

/-! ## The text of a decimal -/

def wholeDigits (a : Decimal) : List Char :=
  let digits := paddedDigits (a.scale + 1) a.coeff.natAbs
  digits.take (digits.length - a.scale)

def fractionDigits (a : Decimal) : List Char :=
  let digits := paddedDigits (a.scale + 1) a.coeff.natAbs
  digits.drop (digits.length - a.scale)

theorem wholeDigits_append_fractionDigits (a : Decimal) :
    a.wholeDigits ++ a.fractionDigits = paddedDigits (a.scale + 1) a.coeff.natAbs :=
  List.take_append_drop _ _

theorem length_fractionDigits (a : Decimal) : a.fractionDigits.length = a.scale := by
  have := le_length_paddedDigits (a.scale + 1) a.coeff.natAbs
  rw [fractionDigits, List.length_drop]
  omega

theorem isDigit_of_mem_fractionDigits (a : Decimal) (c : Char) (h : c ∈ a.fractionDigits) :
    c.isDigit :=
  isDigit_of_mem_paddedDigits _ _ c (List.mem_of_mem_drop h)

theorem isDigits_wholeDigits (a : Decimal) : isDigits a.wholeDigits := by
  rw [isDigits_iff]
  constructor
  · have := le_length_paddedDigits (a.scale + 1) a.coeff.natAbs
    rw [← List.length_pos_iff, wholeDigits, List.length_take]
    omega
  · intro c hc
    exact isDigit_of_mem_paddedDigits _ _ c (List.mem_of_mem_take hc)

theorem renderChars_eq (a : Decimal) :
    a.renderChars = a.signChars ++ unsignedChars a.wholeDigits a.fractionDigits := by
  have hnil : a.fractionDigits = [] ↔ a.scale = 0 := by
    rw [← List.length_eq_zero_iff, length_fractionDigits]
  rw [unsignedChars, ← List.append_assoc]
  simp only [hnil]
  rfl

theorem readUnsigned_unsignedChars (a : Decimal) :
    readUnsigned (unsignedChars a.wholeDigits a.fractionDigits) =
      some (a.coeff.natAbs, a.scale) := by
  have hvalue : digitsValue (a.wholeDigits ++ a.fractionDigits) = a.coeff.natAbs := by
    rw [wholeDigits_append_fractionDigits, digitsValue_paddedDigits]
  rw [readUnsigned_of_room _ _ (isDigits_wholeDigits a) (isDigit_of_mem_fractionDigits a)
    (by rw [length_fractionDigits]; exact a.scale_le) (by rw [hvalue]; exact a.coeff_lt),
    hvalue, length_fractionDigits]

/-! ## Reading what was written -/

/-- The same number. If it is a zero, it has no minus sign. -/
def plain (a : Decimal) : Decimal := ofCoeff a.coeff a.scale a.coeff_lt a.scale_le

theorem plain_same (a : Decimal) : a.plain.same a := by
  simp [same, plain]

theorem ofParts?_eq (a : Decimal) (negative : Bool)
    (h : a.coeff = if negative then -(a.coeff.natAbs : Int) else a.coeff.natAbs) :
    ofParts? negative a.coeff.natAbs a.scale = some a.plain := by
  rw [ofParts?, dif_pos ⟨a.coeff_lt, a.scale_le⟩]
  simp only [plain, ← h]

theorem ofChars?_renderChars (a : Decimal) : ofChars? a.renderChars = some a.plain := by
  rw [renderChars_eq, signChars]
  split
  · rename_i hsign
    have hneg : a.coeff = -(a.coeff.natAbs : Int) := by
      rw [Bool.or_eq_true, isNegative, decide_eq_true_eq] at hsign
      rcases hsign with h | h
      · omega
      · rw [a.coeff_of_minusZero h]
        rfl
    rw [List.singleton_append, ofChars?, readUnsigned_unsignedChars]
    exact ofParts?_eq a true (by simpa using hneg)
  · rename_i hsign
    have hpos : a.coeff = a.coeff.natAbs := by
      rw [Bool.or_eq_true, isNegative, decide_eq_true_eq] at hsign
      omega
    obtain ⟨d, cs, hd, hcons⟩ := exists_digit_cons (isDigits_wholeDigits a) a.fractionDigits
    have hminus : d ≠ '-' := ne_of_isDigit d _ hd (by decide)
    have hread := readUnsigned_unsignedChars a
    rw [hcons] at hread
    rw [List.nil_append, hcons, ofChars?, hread]
    · exact ofParts?_eq a false (by simpa using hpos)
    · intro rest hrest
      exact hminus (List.cons.inj hrest).1

end Decimal

end Promotions
