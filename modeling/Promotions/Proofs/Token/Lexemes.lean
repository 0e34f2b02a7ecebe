import Promotions.Proofs.Token.Words

/-!
# Lexemes

`Spells kind chars stop` tells how a token of a kind is written, and which characters would make
the lexeme longer. A text starts with the lexeme that is found there exactly if it is spelled like
that and goes on with no such character (`first_eq_ok_iff`). In particular no two lexemes compete.
-/

namespace Promotions

open Text

namespace Lexeme

open Token (Kind Bounded anywhere IsIdentifier Found Scans)

/-! ## Spellings -/

/-- The signs, aliases among them. -/
def signs : List (List Char × Kind) :=
  [(['='], .compare .eq), (['=', '='], .compare .eq), (['!', '='], .compare .ne),
   (['≠'], .compare .ne), (['>'], .compare .gt), (['>', '='], .compare .ge), (['≥'], .compare .ge),
   (['<'], .compare .lt), (['<', '='], .compare .le), (['≤'], .compare .le), (['!'], .not),
   (['('], .leftParen), ([')'], .rightParen), (['.'], .dot), ([','], .comma)]

/-- With one more character it is a sign still. -/
def growsSign (sign : List Char) (c : Char) : Bool := (signs.lookup (sign ++ [c])).isSome

/-- `chars` is a token of the kind, as long as none of the class `stop` follows. -/
inductive Spells : Kind → List Char → (Char → Bool) → Prop where
  /-- In any ASCII case. -/
  | keyword {word : List Char} {k : Kind} :
      (String.ofList (word.map Char.toLower), k) ∈ keywords → Spells k word inWord
  | ident {name : String} : IsIdentifier name → Spells (.ident name) name.toList inWord
  | number {cs : List Char} {n : Decimal} : Decimal.IsNumeral cs → Decimal.ofChars? cs = some n →
      Spells (.number n) cs inNumber
  | string {s : String} : '"' ∉ s.toList →
      Spells (.string s) ('"' :: (s.toList ++ ['"'])) anywhere
  | sign {sign : List Char} {k : Kind} : (sign, k) ∈ signs → Spells k sign (growsSign sign)

/-- The text `chars ++ rest` starts with the lexeme `chars` of the kind. -/
def Leads (k : Kind) (chars rest : List Char) : Prop :=
  ∃ stop, Spells k chars stop ∧ Bounded stop rest

/-! ## What is spelled is found -/

theorem startsWord_of_isLower_toLower (c : Char) (h : c.toLower.isLower) : startsWord c := by
  have hletters : ∀ n ∈ List.range' 65 26 ++ List.range' 97 26,
      inRanges n alphabeticRanges = true := by
    decide +kernel
  have hrange : c.toNat ∈ List.range' 65 26 ++ List.range' 97 26 := by
    rw [List.mem_append, List.mem_range'_1, List.mem_range'_1]
    unfold Char.toLower at h
    split at h
    · rename_i hupper
      have h1 : 65 ≤ c.toNat := hupper.1
      have h2 : c.toNat ≤ 90 := hupper.2
      omega
    · unfold Char.isLower at h
      simp only [Bool.and_eq_true, decide_eq_true_eq] at h
      have h1 : 97 ≤ c.toNat := h.1
      have h2 : c.toNat ≤ 122 := h.2
      omega
  rw [startsWord_iff]
  exact .inl (hletters _ hrange)

theorem wordKind_of_mem_keywords {word : List Char} {k : Kind}
    (h : (String.ofList (word.map Char.toLower), k) ∈ keywords) :
    word.head?.any startsWord ∧ word.all inWord ∧ wordKind word = k := by
  have hlower : ∀ p ∈ keywords, p.1.toList ≠ [] ∧ p.1.toList.all Char.isLower ∧
      keywords.lookup p.1 = some p.2 := by
    decide +kernel
  obtain ⟨hne, hall, hlookup⟩ := hlower _ h
  rw [String.toList_ofList, List.all_map, List.all_eq_true] at hall
  rw [String.toList_ofList, ne_eq, List.map_eq_nil_iff] at hne
  have hword : ∀ c ∈ word, startsWord c := fun c hc => startsWord_of_isLower_toLower c (hall c hc)
  refine ⟨?_, ?_, ?_⟩
  · obtain ⟨c, cs, rfl⟩ := List.exists_cons_of_ne_nil hne
    exact hword c List.mem_cons_self
  · rw [List.all_eq_true]
    exact fun c hc => inWord_of_startsWord c (hword c hc)
  · rw [wordKind, hlookup, Option.getD_some]

theorem eq_of_growsSign {sign : List Char} {k : Kind} (h : (sign, k) ∈ signs) {c : Char}
    (hc : growsSign sign c) : c = '=' := by
  have hlast : ∀ p ∈ signs, p.1 ≠ [] ∧ (p.1.length ≤ 1 ∨ p.1.getLast? = some '=') := by decide
  obtain ⟨k', hk'⟩ := Option.isSome_iff_exists.1 hc
  obtain ⟨before, after, hsigns, -⟩ := List.lookup_eq_some_iff.1 hk'
  have hlonger := (hlast (sign ++ [c], k') (by simp [hsigns])).2
  have hpos : 0 < sign.length := List.length_pos_iff.2 (hlast _ h).1
  rcases hlonger with hle | hequal
  · rw [List.length_append, List.length_singleton] at hle
    omega
  · simpa using hequal

theorem sign?_of_mem_signs {sign rest : List Char} {k : Kind} (h : (sign, k) ∈ signs)
    (hrest : Bounded (growsSign sign) rest) : sign? (sign ++ rest) = some ⟨k, sign, rest⟩ := by
  -- Of all that could follow, this is the only thing to look at.
  have hequal : growsSign sign '=' = true → rest.head? ≠ some '=' := by
    intro hgrows hhead
    rw [hrest '=' hhead] at hgrows
    cases hgrows
  simp only [signs, List.mem_cons, Prod.mk.injEq, List.not_mem_nil, or_false] at h
  rcases h with ⟨rfl, rfl⟩ | ⟨rfl, rfl⟩ | ⟨rfl, rfl⟩ | ⟨rfl, rfl⟩ | ⟨rfl, rfl⟩ | ⟨rfl, rfl⟩ |
    ⟨rfl, rfl⟩ | ⟨rfl, rfl⟩ | ⟨rfl, rfl⟩ | ⟨rfl, rfl⟩ | ⟨rfl, rfl⟩ | ⟨rfl, rfl⟩ | ⟨rfl, rfl⟩ |
    ⟨rfl, rfl⟩ | ⟨rfl, rfl⟩
  all_goals
    cases rest with
    | nil => rfl
    | cons c tail => simp_all [sign?, growsSign, signs]

theorem found_sign {sign : List Char} {k : Kind} (h : (sign, k) ∈ signs) :
    Found k sign (growsSign sign) := by
  have hhead : (signs.all fun p => p.1.head?.any fun c => !isBlank c && c != '"' && c != '-' &&
      !c.isDigit && !startsWord c) = true := by
    decide +kernel
  have hany := List.all_eq_true.1 hhead _ h
  cases sign with
  | nil => cases hany
  | cons c cs =>
    simp only [List.head?_cons, Option.any_some, Bool.and_eq_true, Bool.not_eq_true',
      bne_iff_ne] at hany
    obtain ⟨⟨⟨⟨hblank, hquote⟩, hminus⟩, hdigit⟩, hword⟩ := hany
    refine ⟨c, cs, rfl, hblank, fun offset rest hrest => ?_⟩
    rw [first, if_neg hquote, startsNumber_cons _ _ hminus, if_neg (by simp [hdigit]),
      if_neg (by simp [hword]), ← List.cons_append, sign?_of_mem_signs h hrest]

theorem scans_sign {sign : List Char} {k : Kind} (h : (sign, k) ∈ signs)
    (hgrows : ∀ c, growsSign sign c = false) : Scans anywhere sign [k] :=
  (found_sign h).scans.mono fun c hc => by simp [hgrows c] at hc

theorem scans_leftParen : Scans anywhere ['('] [.leftParen] :=
  scans_sign (by simp [signs]) fun c => by simp [growsSign, signs]

theorem scans_rightParen : Scans anywhere [')'] [.rightParen] :=
  scans_sign (by simp [signs]) fun c => by simp [growsSign, signs]

theorem scans_dot : Scans anywhere ['.'] [.dot] :=
  scans_sign (by simp [signs]) fun c => by simp [growsSign, signs]

theorem scans_comma : Scans anywhere [','] [.comma] :=
  scans_sign (by simp [signs]) fun c => by simp [growsSign, signs]

theorem scans_compare (op : Comparator) : Scans (· == '=') op.sign.toList [.compare op] := by
  have hmem : (op.sign.toList, Kind.compare op) ∈ signs := by
    cases op <;> simp [signs, Comparator.sign]
  exact (found_sign hmem).scans.mono fun c hc => beq_iff_eq.2 (eq_of_growsSign hmem hc)

theorem Spells.found {k : Kind} {chars : List Char} {stop : Char → Bool} (h : Spells k chars stop) :
    Found k chars stop := by
  cases h with
  | keyword hkey =>
    obtain ⟨hstarts, hword, rfl⟩ := wordKind_of_mem_keywords hkey
    exact Token.found_word hstarts hword
  | @ident name hname =>
    have hfound := Token.found_word hname.starts hname.word
    rwa [Token.wordKind_of_not_keyword _ hname.not_keyword, String.ofList_toList] at hfound
  | number hcs hn => exact Token.found_number hcs hn
  | @string s hs =>
    have hfound := Token.found_string hs
    rwa [String.ofList_toList] at hfound
  | sign hsign => exact found_sign hsign

theorem Leads.ne_nil {k : Kind} {chars rest : List Char} (h : Leads k chars rest) :
    chars ≠ [] := by
  obtain ⟨stop, hspells, -⟩ := h
  obtain ⟨c, cs, rfl, -⟩ := hspells.found
  exact List.cons_ne_nil c cs

theorem Leads.kind_ne {k : Kind} {chars rest : List Char} (h : Leads k chars rest) :
    k ≠ .endOfInput := by
  rintro rfl
  obtain ⟨stop, hspells, -⟩ := h
  cases hspells with
  | keyword hkey => simp [keywords] at hkey
  | sign hsign => simp [signs] at hsign

theorem Spells.readable {k : Kind} {chars : List Char} {stop : Char → Bool}
    (h : Spells k chars stop) : k.Readable := by
  cases h with
  | keyword hkey =>
    have hkeywords : ∀ p ∈ keywords, p.2.Readable := by simp [keywords, Kind.Readable]
    exact hkeywords _ hkey
  | ident hname => exact hname
  | number _ hn => exact Token.plain_of_ofChars? _ _ hn
  | string hs => exact hs
  | sign hsign =>
    have hsigns : ∀ p ∈ signs, p.2.Readable := by simp [signs, Kind.Readable]
    exact hsigns _ hsign

/-! ## What is found is spelled -/

theorem bounded_dropWhile (stop : Char → Bool) (cs : List Char) :
    Bounded stop (cs.dropWhile stop) := by
  intro c hc
  have hhead := List.head?_dropWhile_not stop cs
  rw [Option.mem_def.1 hc] at hhead
  exact hhead

theorem leads_word {c : Char} (cs : List Char) (hc : startsWord c) :
    Leads (word (c :: cs)).kind (word (c :: cs)).chars (word (c :: cs)).rest := by
  refine ⟨inWord, ?_, bounded_dropWhile inWord (c :: cs)⟩
  have hreadable := Token.readable_word c cs hc
  unfold word at hreadable ⊢
  dsimp only at hreadable ⊢
  generalize (c :: cs).takeWhile inWord = chars at hreadable ⊢
  cases hlookup : keywords.lookup (String.ofList (chars.map Char.toLower)) with
  | some k =>
    rw [wordKind, hlookup, Option.getD_some]
    obtain ⟨before, after, hkeywords, -⟩ := List.lookup_eq_some_iff.1 hlookup
    exact .keyword (by simp [hkeywords])
  | none =>
    rw [wordKind, hlookup, Option.getD_none] at hreadable ⊢
    have hident := Spells.ident hreadable
    rwa [String.toList_ofList] at hident

theorem bounded_spanNumber (cs : List Char) : Bounded inNumber (spanNumber cs).2 := by
  unfold spanNumber
  split
  · exact bounded_dropWhile inNumber _
  · exact bounded_dropWhile inNumber _

theorem leads_number {offset : Nat} {cs : List Char} {l : Lexeme} (h : number offset cs = .ok l) :
    Leads l.kind l.chars l.rest := by
  unfold number at h
  dsimp only at h
  split at h
  · rename_i n hn
    obtain rfl := Except.ok.inj h
    exact ⟨inNumber, .number (Decimal.isNumeral_of_ofChars? hn) hn, bounded_spanNumber cs⟩
  · simp at h

theorem leads_string {offset : Nat} {cs : List Char} {l : Lexeme} (h : string offset cs = .ok l) :
    Leads l.kind l.chars l.rest := by
  unfold string at h
  dsimp only at h
  split at h
  · rename_i quote rest hrest
    obtain rfl := Except.ok.inj h
    have hquote := List.head?_dropWhile_not (· != '"') cs
    rw [hrest] at hquote
    obtain rfl : quote = '"' := by simpa using hquote
    have hbody : '"' ∉ (String.ofList (cs.takeWhile (· != '"'))).toList := by
      rw [String.toList_ofList]
      intro hmem
      simpa using Token.mem_of_mem_takeWhile _ _ _ hmem
    have hspells := Spells.string hbody
    rw [String.toList_ofList] at hspells
    exact ⟨anywhere, hspells, fun _ _ => rfl⟩
  · simp at h

theorem leads_sign {cs : List Char} {l : Lexeme} (h : sign? cs = some l) :
    Leads l.kind l.chars l.rest := by
  unfold sign? at h
  split at h
  case h_16 => simp at h
  all_goals
    obtain rfl := Option.some.inj h
    refine ⟨_, .sign (by simp [signs]), ?_⟩
    rintro c hc
    obtain ⟨tail, rfl⟩ := List.head?_eq_some_iff.1 hc
    simp_all [growsSign, signs]

theorem leads_of_first {offset : Nat} {c : Char} {cs : List Char} {l : Lexeme}
    (h : first offset c cs = .ok l) : Leads l.kind l.chars l.rest := by
  unfold first at h
  split at h
  · exact leads_string h
  · split at h
    · exact leads_number h
    · split at h
      · rename_i hword
        obtain rfl := Except.ok.inj h
        exact leads_word cs hword
      · split at h
        · rename_i hsign
          obtain rfl := Except.ok.inj h
          exact leads_sign hsign
        · simp at h

/-- The first lexeme of a text is the one spelled there with nothing left to make it longer. -/
theorem first_eq_ok_iff (offset : Nat) (c : Char) (cs : List Char) (l : Lexeme) :
    first offset c cs = .ok l ↔ l.chars ++ l.rest = c :: cs ∧ Leads l.kind l.chars l.rest := by
  constructor
  · intro h
    exact ⟨(splits_first h).1, leads_of_first h⟩
  · rintro ⟨hsplit, stop, hspells, hrest⟩
    obtain ⟨d, ds, hchars, -, hfirst⟩ := hspells.found
    rw [hchars, List.cons_append, List.cons.injEq] at hsplit
    obtain ⟨rfl, rfl⟩ := hsplit
    exact hfirst offset l.rest hrest

theorem Leads.cut {k : Kind} {chars rest tail : List Char} (h : Leads k chars (rest ++ tail)) :
    Leads k chars rest := by
  obtain ⟨stop, hspells, hrest⟩ := h
  refine ⟨stop, hspells, fun c hc => hrest c ?_⟩
  rw [List.head?_append, Option.mem_def.1 hc]
  rfl

end Lexeme

end Promotions
