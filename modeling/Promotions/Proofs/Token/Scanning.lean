import Promotions.Proofs.Decimal.RoundTrip
import Promotions.Token.Scan

/-!
# Scanning piece by piece

`Scans stop cs ks` says that `cs` is cut into tokens of the kinds `ks` whatever comes after it, as
long as that does not start with a character of the class `stop`. A word and a number need such a
boundary, brackets and strings do not. Pieces that scan are put side by side by `Scans.append`.
-/

namespace Promotions

open Text

/-! ## Classes of characters -/

theorem exists_of_inRanges (n : Nat) (ranges : List (Nat × Nat)) (h : inRanges n ranges) :
    ∃ r ∈ ranges, r.1 ≤ n ∧ n ≤ r.2 := by
  induction ranges with
  | nil => cases h
  | cons r ranges ih =>
    obtain ⟨first, last⟩ := r
    rw [inRanges] at h
    split at h
    · cases h
    · split at h
      · exact ⟨(first, last), by simp, by omega, by omega⟩
      · obtain ⟨r, hr, hn⟩ := ih h
        exact ⟨r, by simp [hr], hn⟩

theorem not_isAlphabetic_of_isBlank (c : Char) (h : isBlank c) : isAlphabetic c = false := by
  -- The blanks are few enough to look each of them up.
  have hblanks : ∀ r ∈ blankRanges, ∀ n ∈ List.range' r.1 (r.2 + 1 - r.1),
      inRanges n alphabeticRanges = false := by
    decide +kernel
  obtain ⟨r, hr, hfirst, hlast⟩ := exists_of_inRanges _ _ h
  exact hblanks r hr _ (List.mem_range'_1.2 ⟨hfirst, by omega⟩)

namespace Lexeme

theorem startsWord_iff (c : Char) : startsWord c ↔ isAlphabetic c ∨ c = '_' := by
  simp [startsWord]

theorem inWord_of_startsWord (c : Char) (h : startsWord c) : inWord c := by
  rw [startsWord_iff] at h
  rcases h with h | h <;> simp [inWord, h]

theorem inNumber_of_inWord (c : Char) (h : inWord c) : inNumber c := by
  simp [inNumber, h]

theorem not_isBlank_of_startsWord (c : Char) (h : startsWord c) : isBlank c = false := by
  rw [Bool.eq_false_iff]
  intro hblank
  rcases (startsWord_iff c).1 h with h | rfl
  · rw [not_isAlphabetic_of_isBlank c hblank] at h
    cases h
  · revert hblank
    decide

theorem ne_of_startsWord (c d : Char) (h : startsWord c) (hd : startsWord d = false) : c ≠ d := by
  rintro rfl
  rw [hd] at h
  cases h

theorem startsNumber_cons (c : Char) (cs : List Char) (h : c ≠ '-') :
    startsNumber (c :: cs) = c.isDigit := by
  rw [startsNumber]
  intro d tail hc
  exact absurd hc h

theorem spanNumber_cons (c : Char) (cs : List Char) (h : c ≠ '-') :
    spanNumber (c :: cs) = ((c :: cs).takeWhile inNumber, (c :: cs).dropWhile inNumber) := by
  rw [spanNumber]
  intro tail hcons
  exact h (List.cons.inj hcons).1

theorem not_startsWord_of_isDigit (c : Char) (h : c.isDigit) : startsWord c = false := by
  have hdigits : ∀ n ∈ List.range' 48 10, inRanges n alphabeticRanges = false := by
    decide +kernel
  obtain ⟨hlow, hhigh⟩ := toNat_of_isDigit c h
  have halpha : isAlphabetic c = false := hdigits _ (List.mem_range'_1.2 ⟨hlow, by omega⟩)
  rw [startsWord, halpha, Bool.false_or, beq_eq_false_iff_ne]
  rintro rfl
  revert hhigh
  decide

end Lexeme

namespace Token

open Lexeme

/-! ## Pieces -/

/-- The text goes on with no character of the class, or ends. -/
def Bounded (stop : Char → Bool) (rest : List Char) : Prop := ∀ c ∈ rest.head?, stop c = false

theorem Bounded.nil (stop : Char → Bool) : Bounded stop [] := by
  simp [Bounded]

theorem Bounded.cons {stop : Char → Bool} {c : Char} (h : stop c = false) (cs : List Char) :
    Bounded stop (c :: cs) := by
  simpa [Bounded] using h

theorem Bounded.mono {stop stop' : Char → Bool} {rest : List Char}
    (hstop : ∀ c, stop' c → stop c) (h : Bounded stop rest) : Bounded stop' rest := by
  intro c hc
  rw [Bool.eq_false_iff]
  intro hc'
  have := h c hc
  rw [hstop c hc'] at this
  cases this

theorem takeWhile_of_bounded (p : Char → Bool) (cs rest : List Char) (hcs : ∀ c ∈ cs, p c)
    (h : Bounded p rest) : (cs ++ rest).takeWhile p = cs := by
  rw [List.takeWhile_append_of_pos hcs]
  cases rest with
  | nil => rw [List.takeWhile_nil, List.append_nil]
  | cons c rest =>
    rw [List.takeWhile_cons_of_neg (by simp [h c rfl]), List.append_nil]

theorem dropWhile_of_bounded (p : Char → Bool) (cs rest : List Char) (hcs : ∀ c ∈ cs, p c)
    (h : Bounded p rest) : (cs ++ rest).dropWhile p = rest := by
  rw [List.dropWhile_append_of_pos hcs]
  cases rest with
  | nil => rfl
  | cons c rest => rw [List.dropWhile_cons_of_neg (by simp [h c rfl])]

def Scans (stop : Char → Bool) (cs : List Char) (ks : List Kind) : Prop :=
  ∀ offset rest, Bounded stop rest → ∃ ts, ts.map Token.kind = ks ∧
    scanFrom offset (cs ++ rest) = (scanFrom (offset + byteLength cs) rest).map (ts ++ ·)

/-- What needs no boundary. -/
def anywhere (_ : Char) : Bool := false

theorem byteLength_append (cs ds : List Char) :
    byteLength (cs ++ ds) = byteLength cs + byteLength ds := by
  induction cs with
  | nil => simp [byteLength]
  | cons c cs ih => rw [List.cons_append, byteLength, ih, byteLength, Nat.add_assoc]

theorem Scans.append {stop stop' : Char → Bool} {cs ds : List Char} {ks ls : List Kind}
    (h : Scans stop cs ks) (h' : Scans stop' ds ls)
    (hstop : ∀ rest, Bounded stop' rest → Bounded stop (ds ++ rest)) :
    Scans stop' (cs ++ ds) (ks ++ ls) := by
  intro offset rest hrest
  obtain ⟨ts, rfl, hts⟩ := h offset (ds ++ rest) (hstop rest hrest)
  obtain ⟨us, rfl, hus⟩ := h' (offset + byteLength cs) rest hrest
  refine ⟨ts ++ us, by rw [List.map_append], ?_⟩
  rw [List.append_assoc, hts, hus, byteLength_append, Nat.add_assoc]
  cases scanFrom (offset + (byteLength cs + byteLength ds)) rest with
  | error err => rfl
  | ok vs => simp [Except.map]

theorem Scans.mono {stop stop' : Char → Bool} {cs : List Char} {ks : List Kind}
    (h : Scans stop cs ks) (hstop : ∀ c, stop c → stop' c) : Scans stop' cs ks := by
  intro offset rest hrest
  exact h offset rest (hrest.mono hstop)

theorem Scans.append_cons {stop stop' : Char → Bool} {cs ds : List Char} {d : Char}
    {ks ls : List Kind} (h : Scans stop cs ks) (h' : Scans stop' (d :: ds) ls)
    (hd : stop d = false) : Scans stop' (cs ++ d :: ds) (ks ++ ls) :=
  h.append h' fun rest _ => Bounded.cons hd (ds ++ rest)

theorem Scans.append_of_anywhere {stop : Char → Bool} {cs ds : List Char} {ks ls : List Kind}
    (h : Scans anywhere cs ks) (h' : Scans stop ds ls) : Scans stop (cs ++ ds) (ks ++ ls) :=
  h.append h' fun _ _ _ _ => rfl

theorem Scans.of_anywhere {cs : List Char} {ks : List Kind} (h : Scans anywhere cs ks)
    (stop : Char → Bool) : Scans stop cs ks := by
  apply h.mono
  intro c hc
  simp [anywhere] at hc

/-! ## One token -/

theorem scanFrom_of_first {offset : Nat} {c : Char} {cs : List Char} {l : Lexeme}
    (hblank : isBlank c = false) (h : Lexeme.first offset c cs = .ok l) :
    scanFrom offset (c :: cs) =
      (scanFrom (offset + byteLength l.chars) l.rest).map (⟨l.kind, offset⟩ :: ·) := by
  rw [scanFrom, if_neg (by simp [hblank])]
  split
  · rename_i err herr
    rw [h] at herr
    cases herr
  · rename_i l' hl'
    rw [h] at hl'
    cases hl'
    rfl

/-- The lexeme `chars` is found wherever the text goes on with none of the class `stop`. -/
def Found (k : Kind) (chars : List Char) (stop : Char → Bool) : Prop :=
  ∃ c cs, chars = c :: cs ∧ isBlank c = false ∧
    ∀ offset rest, Bounded stop rest → Lexeme.first offset c (cs ++ rest) = .ok ⟨k, chars, rest⟩

theorem Found.scans {k : Kind} {chars : List Char} {stop : Char → Bool} (h : Found k chars stop) :
    Scans stop chars [k] := by
  obtain ⟨c, cs, rfl, hblank, hfirst⟩ := h
  intro offset rest hrest
  refine ⟨[⟨k, offset⟩], rfl, ?_⟩
  rw [List.cons_append, scanFrom_of_first hblank (hfirst offset rest hrest)]
  rfl

theorem scans_blank : Scans anywhere [' '] [] := by
  intro offset rest _
  refine ⟨[], rfl, ?_⟩
  have hblank : isBlank ' ' = true := by decide
  rw [List.singleton_append, scanFrom, if_pos hblank]
  change scanFrom (offset + byteLength [' ']) rest = _
  cases scanFrom (offset + byteLength [' ']) rest <;> rfl

/-! ## Words -/

theorem first_of_startsWord {c : Char} (h : startsWord c) (offset : Nat) (cs : List Char) :
    Lexeme.first offset c cs = .ok (Lexeme.word (c :: cs)) := by
  have hdigit : c.isDigit = false := by
    rw [Bool.eq_false_iff]
    intro hd
    exact ne_of_startsWord c c h (not_startsWord_of_isDigit c hd) rfl
  have hminus : c ≠ '-' := ne_of_startsWord c _ h (by decide +kernel)
  have hquote : c ≠ '"' := ne_of_startsWord c _ h (by decide +kernel)
  rw [Lexeme.first, if_neg hquote, startsNumber_cons _ _ hminus, if_neg (by simp [hdigit]),
    if_pos h]

theorem found_word {word : List Char} (hstarts : word.head?.any startsWord)
    (hword : word.all inWord) : Found (wordKind word) word inWord := by
  cases word with
  | nil => simp at hstarts
  | cons c cs =>
    rw [List.all_eq_true] at hword
    have hc : startsWord c := by simpa using hstarts
    refine ⟨c, cs, rfl, not_isBlank_of_startsWord c hc, fun offset rest hrest => ?_⟩
    rw [first_of_startsWord hc, Lexeme.word, ← List.cons_append,
      takeWhile_of_bounded _ _ _ hword hrest, dropWhile_of_bounded _ _ _ hword hrest]

theorem scans_word (word : List Char) (hstarts : word.head?.any startsWord)
    (hword : word.all inWord) : Scans inWord word [wordKind word] :=
  (found_word hstarts hword).scans

/-! ## Numbers -/

theorem first_of_startsNumber {c : Char} {cs : List Char} (h : startsNumber (c :: cs))
    (offset : Nat) : Lexeme.first offset c cs = number offset (c :: cs) := by
  have hquote : c ≠ '"' := by
    rintro rfl
    simp [startsNumber, Char.isDigit] at h
  rw [Lexeme.first, if_neg hquote, if_pos h]

theorem span_of_run {sign run rest : List Char} {d : Char} (hsign : sign = [] ∨ sign = ['-'])
    (hd : d.isDigit) (hrun : ∀ c ∈ run, inNumber c) (hrest : Bounded inNumber rest) :
    startsNumber (sign ++ d :: run ++ rest) ∧
      spanNumber (sign ++ d :: run ++ rest) = (sign ++ d :: run, rest) := by
  have hall : ∀ c ∈ d :: run, inNumber c :=
    List.forall_mem_cons.2 ⟨inNumber_of_isDigit hd, hrun⟩
  rcases hsign with rfl | rfl
  · have hminus : d ≠ '-' := ne_of_isDigit d _ hd (by decide)
    rw [List.nil_append, List.cons_append, startsNumber_cons _ _ hminus, spanNumber_cons _ _ hminus,
      ← List.cons_append, takeWhile_of_bounded _ _ _ hall hrest,
      dropWhile_of_bounded _ _ _ hall hrest]
    exact ⟨hd, rfl⟩
  · rw [List.singleton_append, List.cons_append, spanNumber, takeWhile_of_bounded _ _ _ hall hrest,
      dropWhile_of_bounded _ _ _ hall hrest]
    exact ⟨hd, rfl⟩

theorem span_of_isNumeral {cs rest : List Char} (hcs : Decimal.IsNumeral cs)
    (hrest : Bounded inNumber rest) :
    startsNumber (cs ++ rest) ∧ spanNumber (cs ++ rest) = (cs, rest) := by
  obtain ⟨sign, whole, fraction, hsign, hwhole, hfraction, rfl⟩ := hcs
  have hall : ∀ c ∈ Decimal.unsignedChars whole fraction, inNumber c := by
    intro c hc
    rcases Decimal.isDigit_or_point_of_mem hwhole hfraction hc with h | rfl
    · exact inNumber_of_isDigit h
    · decide +kernel
  obtain ⟨d, run, hd, hcons⟩ := Decimal.exists_digit_cons hwhole fraction
  rw [hcons] at hall ⊢
  exact span_of_run hsign hd (List.forall_mem_cons.1 hall).2 hrest

theorem not_isBlank_of_startsNumber {c : Char} {cs : List Char} (h : startsNumber (c :: cs)) :
    isBlank c = false := by
  by_cases hminus : c = '-'
  · rw [hminus]
    decide
  · rw [startsNumber_cons _ _ hminus] at h
    exact not_isBlank_of_isDigit c h

theorem found_number {cs : List Char} {n : Decimal} (hcs : Decimal.IsNumeral cs)
    (hn : Decimal.ofChars? cs = some n) : Found (.number n) cs inNumber := by
  cases cs with
  | nil => cases hn
  | cons c cs =>
    have hstart := (span_of_isNumeral hcs (Bounded.nil inNumber)).1
    refine ⟨c, cs, rfl, not_isBlank_of_startsNumber hstart, fun offset rest hrest => ?_⟩
    obtain ⟨hstarts, hspan⟩ := span_of_isNumeral hcs hrest
    rw [List.cons_append] at hstarts hspan
    rw [first_of_startsNumber hstarts, number, hspan]
    simp only [hn]

theorem scans_number (n : Decimal) : Scans inNumber n.renderChars [.number n.plain] :=
  (found_number (Decimal.isNumeral_of_ofChars? (Decimal.ofChars?_renderChars n))
    (Decimal.ofChars?_renderChars n)).scans

/-! ## Strings -/

theorem found_string {cs : List Char} (h : '"' ∉ cs) :
    Found (.string (String.ofList cs)) ('"' :: (cs ++ ['"'])) anywhere := by
  refine ⟨'"', cs ++ ['"'], rfl, by decide, fun offset rest _ => ?_⟩
  have hcs : ∀ c ∈ cs, (c != '"') = true := by
    intro c hc
    rw [bne_iff_ne]
    rintro rfl
    exact h hc
  have hquote : Bounded (· != '"') ('"' :: rest) := Bounded.cons (by decide) rest
  rw [Lexeme.first, if_pos rfl, string, List.append_assoc, List.singleton_append,
    takeWhile_of_bounded _ _ _ hcs hquote, dropWhile_of_bounded _ _ _ hcs hquote]
  rfl

theorem scans_string (cs : List Char) (h : '"' ∉ cs) :
    Scans anywhere ('"' :: (cs ++ ['"'])) [.string (String.ofList cs)] :=
  (found_string h).scans

end Token

end Promotions
