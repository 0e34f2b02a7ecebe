import Promotions.Instant.Text
import Promotions.Proofs.Decimal.RoundTrip
import Promotions.Proofs.Fallible
import Promotions.Proofs.Instant.Calendar

/-!
# Written instants

The text of an instant is read as the same instant, the leap seconds among them, if its year has
four digits and no sign.
-/

namespace Promotions.Instant

open Text

/-! ## Fields -/

theorem dropWhile_isBlank_cons {c : Char} (h : isBlank c = false) (cs : List Char) :
    (c :: cs).dropWhile isBlank = c :: cs :=
  List.dropWhile_cons_of_neg (by simp [h])

theorem dropWhile_isBlank_paddedDigits {width : Nat} (hw : 0 < width) (n : Nat) (cs : List Char) :
    (paddedDigits width n ++ cs).dropWhile isBlank = paddedDigits width n ++ cs := by
  obtain ⟨hne, hdigit⟩ := (isDigits_iff _).1 (isDigits_paddedDigits (n := n) hw)
  obtain ⟨d, ds, hds⟩ := List.exists_cons_of_ne_nil hne
  rw [hds] at hdigit ⊢
  exact dropWhile_isBlank_cons (not_isBlank_of_isDigit d (hdigit d List.mem_cons_self)) _

theorem takeDigits_paddedDigits {width : Nat} (hw : 0 < width) (n : Nat) :
    takeDigits (paddedDigits width n) = some (n, []) := by
  obtain ⟨hne, hdigit⟩ := (isDigits_iff _).1 (isDigits_paddedDigits (n := n) hw)
  have hall : (paddedDigits width n ++ []).takeWhile Char.isDigit = paddedDigits width n ++ [] :=
    List.takeWhile_append_of_pos hdigit
  rw [List.append_nil] at hall
  simp only [takeDigits]
  rw [hall, if_neg (mt List.isEmpty_iff.1 hne), digitsValue_paddedDigits, List.drop_length]

theorem takeNumber_paddedDigits {width n : Nat} (hw : 0 < width) (h : n < tenPow width)
    (cs : List Char) : takeNumber width (paddedDigits width n ++ cs) = some (n, cs) := by
  have hlen := length_paddedDigits hw h
  simp only [takeNumber]
  rw [dropWhile_isBlank_paddedDigits hw, List.take_left' hlen, List.drop_left' hlen,
    takeDigits_paddedDigits hw]
  rfl

theorem takeYear_paddedDigits {n : Nat} (h : n < tenPow 4) (cs : List Char) :
    takeYear (paddedDigits 4 n ++ cs) = some ((n : Int), cs) := by
  have hsign : ∀ c rest, paddedDigits 4 n ++ cs = c :: rest → c.isDigit := by
    intro c rest hcons
    obtain ⟨hne, hdigit⟩ := (isDigits_iff _).1 (isDigits_paddedDigits (n := n) (by decide : 0 < 4))
    obtain ⟨d, ds, hds⟩ := List.exists_cons_of_ne_nil hne
    rw [hds] at hdigit hcons
    obtain ⟨rfl, -⟩ := List.cons.inj hcons
    exact hdigit d List.mem_cons_self
  unfold takeYear
  rw [dropWhile_isBlank_paddedDigits (by decide)]
  split
  case h_1 rest hcons => exact absurd (hsign _ _ hcons) (by decide)
  case h_2 rest hcons => exact absurd (hsign _ _ hcons) (by decide)
  case h_3 => rw [takeNumber_paddedDigits (by decide) h, Option.map_some]

theorem takeChar_cons {c : Char} (h : isBlank c = false) (cs : List Char) :
    takeChar c (c :: cs) = some cs := by
  simp [takeChar, dropWhile_isBlank_cons h]

theorem takeFraction_of_exact (width : Nat) {nano : Nat} (hw : 0 < width) (hw' : width ≤ 9)
    (h : nano < tenPow 9) (hexact : nano % tenPow (9 - width) = 0) :
    takeFraction ('.' :: paddedDigits width (nano / tenPow (9 - width)) ++ ['Z']) =
      some (nano, ['Z']) := by
  have hroom : nano / tenPow (9 - width) < tenPow width := by
    apply Nat.div_lt_of_lt_mul
    rwa [← tenPow_add, Nat.sub_add_cancel hw']
  obtain ⟨hne, hdigit⟩ :=
    (isDigits_iff _).1 (isDigits_paddedDigits (n := nano / tenPow (9 - width)) hw)
  have hlen := length_paddedDigits hw hroom
  simp only [List.cons_append, takeFraction]
  rw [List.takeWhile_append_of_pos hdigit, List.dropWhile_append_of_pos hdigit,
    List.takeWhile_cons_of_neg (by decide), List.dropWhile_cons_of_neg (by decide),
    List.append_nil, if_neg (mt List.isEmpty_iff.1 hne), List.take_of_length_le (hlen.trans_le hw'),
    hlen, digitsValue_paddedDigits, Nat.div_mul_cancel (Nat.dvd_of_mod_eq_zero hexact)]

theorem takeFraction_renderFraction {nano : Nat} (h : nano < tenPow 9) :
    takeFraction (renderFraction nano ++ ['Z']) = some (nano, ['Z']) := by
  unfold renderFraction
  split
  · subst nano
    rfl
  split
  · exact takeFraction_of_exact 3 (by decide) (by decide) h ‹_›
  split
  · exact takeFraction_of_exact 6 (by decide) (by decide) h ‹_›
  · have hread := takeFraction_of_exact 9 (by decide) (by decide) h (Nat.mod_one nano)
    rwa [show nano / tenPow (9 - 9) = nano from Nat.div_one nano] at hread

theorem takeOffset_utc : takeOffset (['Z'].dropWhile isBlank) = some (0, []) := by
  rw [dropWhile_isBlank_cons (by decide)]
  rfl

/-! ## Instants -/

/-- The year in which the instant lies in UTC. -/
def year (i : Instant) : Int := (Date.ofDays (i.second / 86400)).year

/-- In UTC the year is written with four digits and no sign. -/
def HasFourDigitYear (i : Instant) : Prop := 0 ≤ i.year ∧ i.year ≤ 9999

instance (i : Instant) : Decidable i.HasFourDigitYear :=
  inferInstanceAs (Decidable (0 ≤ i.year ∧ i.year ≤ 9999))

theorem ofChars?_fields {date : Date} {hour minute second nano : Nat} (hvalid : date.isValid)
    (hyear : 0 ≤ date.year) (hyear' : date.year ≤ 9999) (hhour : hour < 24) (hminute : minute < 60)
    (hsecond : second ≤ 60) (hnano : nano < tenPow 9) :
    ofChars? (paddedDigits 4 date.year.toNat ++ '-' :: paddedDigits 2 date.month ++
        '-' :: paddedDigits 2 date.day ++ 'T' :: paddedDigits 2 hour ++
        ':' :: paddedDigits 2 minute ++ ':' :: paddedDigits 2 second ++
        renderFraction nano ++ ['Z']) =
      ofParts? (86400 * date.toDays + 3600 * hour + 60 * minute + (min second 59 : Nat))
        (nano + (second - min second 59) * tenPow 9) := by
  have hdate : date.month < 100 ∧ date.day < 100 := by
    have := Date.daysInMonth_le date.year date.month
    simp only [Date.isValid, decide_eq_true_eq] at hvalid
    omega
  have htwo {n : Nat} (h : n < 100) (cs : List Char) :
      takeNumber 2 (paddedDigits 2 n ++ cs) = some (n, cs) :=
    takeNumber_paddedDigits (by decide) h cs
  have hfour : date.year.toNat < 10000 := by omega
  have hback : (⟨(date.year.toNat : Int), date.month, date.day⟩ : Date) = date := by
    rw [Int.toNat_of_nonneg hyear]
  have hcolon := takeChar_cons (c := ':') (by decide)
  have hdash := takeChar_cons (c := '-') (by decide)
  have hrange : date.isInRange := by
    simp only [Date.isInRange, decide_eq_true_eq]
    omega
  simp only [List.append_assoc, List.cons_append]
  -- The pairs are taken apart field by field, or every number read stays in the text as well.
  unfold ofChars?
  rw [takeYear_paddedDigits hfour, some_bind]
  dsimp only
  rw [hdash, some_bind, htwo hdate.1, some_bind]
  dsimp only
  rw [hdash, some_bind, htwo hdate.2, some_bind]
  dsimp only
  rw [takeSeparator, some_bind, htwo (by omega), some_bind]
  dsimp only
  rw [hcolon, some_bind, htwo (by omega), some_bind]
  dsimp only
  rw [hcolon, some_bind, htwo (by omega), some_bind]
  dsimp only
  rw [takeFraction_renderFraction hnano, some_bind]
  dsimp only
  rw [takeOffset_utc, some_bind]
  dsimp only
  rw [hback, guard, if_pos ⟨rfl, hrange, hvalid⟩, guard, if_pos ⟨hhour, hminute, hsecond⟩,
    Option.pure_def, some_bind, some_bind, Int.sub_zero]

theorem ofChars?_renderChars {i : Instant} (h : i.HasFourDigitYear) :
    ofChars? i.renderChars = some i := by
  have hyear : renderYear i.year = paddedDigits 4 i.year.toNat := if_pos h
  obtain ⟨ofDay, hofDay⟩ : ∃ n, n = (i.second % 86400).toNat := ⟨_, rfl⟩
  -- A leap second is written as second 60.
  have hleap : i.nano / tenPow 9 = 0 ∨ i.nano / tenPow 9 = 1 ∧ ofDay % 60 = 59 := by
    have hnano := i.nano_lt
    rw [show tenPow 9 = 1000000000 from rfl] at hnano ⊢
    omega
  have hwhole : min (ofDay % 60 + i.nano / tenPow 9) 59 = ofDay % 60 := by omega
  have hsecond : 86400 * (i.second / 86400) + 3600 * (ofDay / 3600 : Nat) +
      60 * (ofDay / 60 % 60 : Nat) + (ofDay % 60 : Nat) = i.second := by omega
  unfold HasFourDigitYear at h
  unfold year at hyear h
  simp only [renderChars]
  rw [hyear, ← hofDay, ofChars?_fields (Date.isValid_ofDays _) h.1 h.2 (by omega) (by omega)
    (by omega) (Nat.mod_lt _ (tenPow_pos 9)), Date.toDays_ofDays, hwhole, hsecond,
    Nat.add_sub_cancel_left, Nat.mod_add_div', ofParts?, dif_pos i.nano_lt]

end Promotions.Instant
