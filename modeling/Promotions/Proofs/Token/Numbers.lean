import Promotions.Proofs.Decimal.Reading
import Promotions.Proofs.Token.Tiling

/-!
# Numbers in a text

A number token stands where the text has a numeral. Its number is the value of the numeral exactly
if some decimal stands for this value. Of the other numerals only those are refused whose whole part
has no room, the rest is rounded and nothing tells of it.
-/

namespace Promotions.Token

open Text Lexeme
open Decimal (IsNumeral numeralValue Representable Kept HasRoom)

/-! ## Numerals of a text -/

/-- At the byte `offset` the text has the numeral `chars`, and then nothing that could be a part of
the same number. -/
structure NumeralAt (text : String) (offset : Nat) (chars : List Char) : Prop where
  isNumeral : IsNumeral chars
  stands : ∃ before after, text.toList = before ++ (chars ++ after) ∧
    offset = byteLength before ∧ Bounded inNumber after

theorem append_inj_of_byteLength_eq {before before' rest rest' : List Char}
    (h : before ++ rest = before' ++ rest') (hbytes : byteLength before = byteLength before') :
    before = before' ∧ rest = rest' := by
  induction before generalizing before' with
  | nil =>
    have hnil : before' = [] := by
      by_contra hne
      have := byteLength_pos hne
      rw [byteLength] at hbytes
      omega
    rw [hnil] at h ⊢
    exact ⟨rfl, h⟩
  | cons c before ih =>
    cases before' with
    | nil =>
      have := byteLength_pos (List.cons_ne_nil c before)
      rw [hbytes, byteLength] at this
      omega
    | cons d before' =>
      rw [List.cons_append, List.cons_append, List.cons.injEq] at h
      obtain ⟨rfl, h⟩ := h
      rw [byteLength, byteLength] at hbytes
      obtain ⟨rfl, hrest⟩ := ih h (by omega)
      exact ⟨rfl, hrest⟩

theorem NumeralAt.spanNumber_eq {text : String} {chars before rest : List Char}
    (h : NumeralAt text (byteLength before) chars) (htext : text.toList = before ++ rest) :
    (spanNumber rest).1 = chars := by
  obtain ⟨before', after, htext', hbytes, hafter⟩ := h.stands
  obtain ⟨-, rfl⟩ := append_inj_of_byteLength_eq (htext.symm.trans htext') hbytes
  rw [(span_of_isNumeral h.isNumeral hafter).2]

theorem NumeralAt.eq {text : String} {offset : Nat} {chars chars' : List Char}
    (h : NumeralAt text offset chars) (h' : NumeralAt text offset chars') : chars = chars' := by
  obtain ⟨before, after, htext, rfl, -⟩ := h.stands
  rw [← h.spanNumber_eq htext, h'.spanNumber_eq htext]

theorem numeralAt_toList {text : String} (h : IsNumeral text.toList) :
    NumeralAt text 0 text.toList :=
  ⟨h, [], [], by simp, rfl, .nil inNumber⟩

theorem exists_numeralAt_of_mem {text : String} {ts : List Token} (h : scan text = .ok ts)
    {n : Decimal} {offset : Nat} (hmem : ⟨.number n, offset⟩ ∈ ts) :
    ∃ chars, NumeralAt text offset chars ∧ Decimal.ofChars? chars = some n := by
  have htiles := tiles_scanFrom 0 text.toList ts h
  obtain ⟨us, rfl, -⟩ := htiles.ends
  rw [List.mem_append, List.mem_singleton] at hmem
  rcases hmem with hmem | hend
  · obtain ⟨next, before, chars, blanks, rest, htext, hoffset, -, ⟨stop, hspells, hstop⟩, -⟩ :=
      exists_next_of_isChain htiles.adjoins _ hmem
    rw [Nat.zero_add] at hoffset
    cases hspells with
    | keyword hkey => simp [keywords] at hkey
    | sign hsign => simp [signs] at hsign
    | number hnumeral hread => exact ⟨chars, ⟨hnumeral, before, _, htext, hoffset, hstop⟩, hread⟩
  · simp at hend

theorem ofChars?_of_malformedNumber {text literal : String} {offset : Nat} {chars : List Char}
    (h : scan text = .error (.malformedNumber literal offset)) (hat : NumeralAt text offset chars) :
    literal = String.ofList chars ∧ Decimal.ofChars? chars = none := by
  obtain ⟨before, rest, htext, hoffset, -, hdescribes, -⟩ :=
    exists_of_scanFrom_error 0 text.toList _ h
  rw [Nat.zero_add] at hoffset
  change offset = byteLength before at hoffset
  rw [hoffset] at hat
  have hspan := hat.spanNumber_eq htext
  cases hdescribes with
  | @malformedNumber run after _ sign d tail hliteral hsign hd hrun hafter hnone =>
    rw [hliteral, (span_of_run hsign hd hrun hafter).2, ← hliteral] at hspan
    rw [Decimal.ofText?, String.toList_ofList] at hnone
    rw [← hspan]
    exact ⟨rfl, hnone⟩

/-! ## Exact numbers -/

/-- At the offset of a number token stands one numeral, and the number is its value exactly if some
decimal stands for this value. Else it is a rounded one. A numeral that is refused has no room. -/
theorem scan_number_eq_iff (text : String) :
    (∀ ts, scan text = .ok ts → ∀ n offset, ⟨.number n, offset⟩ ∈ ts →
      ∃ chars, (∀ cs, NumeralAt text offset cs ↔ cs = chars) ∧
        (n.toRat = numeralValue chars ↔ Representable (numeralValue chars)) ∧
        Kept (numeralValue chars) n.coeff n.scale) ∧
    ∀ literal offset, scan text = .error (.malformedNumber literal offset) →
      ∀ chars, NumeralAt text offset chars →
        literal = String.ofList chars ∧ ¬HasRoom (numeralValue chars) 0 ∧
        ¬Representable (numeralValue chars) := by
  constructor
  · intro ts hts n offset hmem
    obtain ⟨chars, hat, hread⟩ := exists_numeralAt_of_mem hts hmem
    have hreads := Decimal.readsTo_ofChars? hat.isNumeral
    rw [hread] at hreads
    cases hreads with
    | kept hkept =>
      refine ⟨chars, fun cs => ⟨fun hcs => hcs.eq hat, ?_⟩, hkept.toRat_eq_iff, hkept⟩
      rintro rfl
      exact hat
  · intro literal offset herror chars hat
    obtain ⟨hliteral, hnone⟩ := ofChars?_of_malformedNumber herror hat
    have hreads := Decimal.readsTo_ofChars? hat.isNumeral
    rw [hnone] at hreads
    cases hreads with
    | tooLarge hroom => exact ⟨hliteral, hroom, fun h => hroom h.hasRoom⟩

/-- A price, and a number of one more than the largest coefficient. -/
theorem scan_number_eq_iff_price :
    (scan "-12.50" = .ok [⟨.number (.ofCoeff (-1250) 2 (by decide) (by decide)), 0⟩,
        ⟨.endOfInput, 6⟩] ∧
      (Decimal.ofCoeff (-1250) 2 (by decide) (by decide)).toRat = numeralValue "-12.50".toList) ∧
    (scan "79228162514264337593543950336" =
        .error (.malformedNumber "79228162514264337593543950336" 0) ∧
      ¬Representable (numeralValue "79228162514264337593543950336".toList)) := by
  have hprice : scan "-12.50" =
      .ok [⟨.number (.ofCoeff (-1250) 2 (by decide) (by decide)), 0⟩, ⟨.endOfInput, 6⟩] := by
    decide +kernel
  have hlarge : scan "79228162514264337593543950336" =
      .error (.malformedNumber "79228162514264337593543950336" 0) := by
    decide +kernel
  refine ⟨⟨hprice, ?_⟩, hlarge, ?_⟩
  · obtain ⟨chars, hunique, hexact, -⟩ :=
      (scan_number_eq_iff "-12.50").1 _ hprice _ 0 List.mem_cons_self
    have hread : Decimal.ofChars? "-12.50".toList =
        some (.ofCoeff (-1250) 2 (by decide) (by decide)) := by
      decide +kernel
    rw [← (hunique _).1 (numeralAt_toList (Decimal.isNumeral_of_ofChars? hread))] at hexact
    exact hexact.2 ⟨.ofCoeff (-125) 1 (by decide) (by decide), by decide +kernel⟩
  · have hnumeral : IsNumeral "79228162514264337593543950336".toList :=
      ⟨[], "79228162514264337593543950336".toList, [], .inl rfl, by decide, by simp,
        by decide +kernel⟩
    exact ((scan_number_eq_iff "79228162514264337593543950336").2 _ 0 hlarge _
      (numeralAt_toList hnumeral)).2.2

/-- A number smaller than half a unit of the last place is scanned as zero. -/
theorem not_scan_number_eq :
    ¬∀ (text : String) (ts : List Token), scan text = .ok ts →
      ∀ n offset, ⟨.number n, offset⟩ ∈ ts →
        ∀ chars, NumeralAt text offset chars → n.toRat = numeralValue chars := by
  intro hexact
  have hscan : scan "0.00000000000000000000000000001" =
      .ok [⟨.number (.ofCoeff 0 28 (by decide) (by decide)), 0⟩, ⟨.endOfInput, 31⟩] := by
    decide +kernel
  have hread : Decimal.ofChars? "0.00000000000000000000000000001".toList =
      some (.ofCoeff 0 28 (by decide) (by decide)) := by
    decide +kernel
  have hvalue : numeralValue "0.00000000000000000000000000001".toList = 1 / 10 ^ 29 := by
    decide +kernel
  have hzero : (Decimal.ofCoeff 0 28 (by decide) (by decide)).toRat = 0 :=
    Decimal.toRat_of_coeff_eq_zero rfl
  have heq := hexact _ _ hscan _ 0 List.mem_cons_self _
    (numeralAt_toList (Decimal.isNumeral_of_ofChars? hread))
  rw [hvalue, hzero] at heq
  norm_num at heq

end Promotions.Token
