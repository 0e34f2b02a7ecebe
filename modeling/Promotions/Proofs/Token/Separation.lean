import Promotions.Proofs.Token.Tiling

/-!
# Texts with blanks between them

No lexeme goes on over a blank. So a text that is scanned, blanks and any other text are scanned one
after the other: the tokens of the second text, or its error, only move by the bytes before it.
-/

namespace Promotions

open Text

/-! ## Blanks end a lexeme -/

theorem not_isNumeric_of_isBlank (c : Char) (h : isBlank c) : isNumeric c = false := by
  -- The blanks are few enough to look each of them up.
  have hblanks : ∀ r ∈ blankRanges, ∀ n ∈ List.range' r.1 (r.2 + 1 - r.1),
      inRanges n numericRanges = false := by
    decide +kernel
  obtain ⟨r, hr, hfirst, hlast⟩ := exists_of_inRanges _ _ h
  exact hblanks r hr _ (List.mem_range'_1.2 ⟨hfirst, by omega⟩)

theorem ne_of_isBlank (c d : Char) (h : isBlank c) (hd : isBlank d = false) : c ≠ d := by
  rintro rfl
  rw [hd] at h
  cases h

namespace Lexeme

open Token (Kind Bounded)

theorem not_inWord_of_isBlank (c : Char) (h : isBlank c) : inWord c = false := by
  have hunderscore : c ≠ '_' := ne_of_isBlank c _ h (by decide)
  simp [inWord, not_isAlphabetic_of_isBlank c h, not_isNumeric_of_isBlank c h, hunderscore]

theorem not_inNumber_of_isBlank (c : Char) (h : isBlank c) : inNumber c = false := by
  have hpoint : c ≠ '.' := ne_of_isBlank c _ h (by decide)
  simp [inNumber, not_inWord_of_isBlank c h, hpoint]

theorem Spells.not_stop_of_isBlank {k : Kind} {chars : List Char} {stop : Char → Bool}
    (h : Spells k chars stop) (c : Char) (hc : isBlank c) : stop c = false := by
  cases h with
  | keyword _ => exact not_inWord_of_isBlank c hc
  | ident _ => exact not_inWord_of_isBlank c hc
  | number _ _ => exact not_inNumber_of_isBlank c hc
  | string _ => rfl
  | sign hsign =>
    rw [Bool.eq_false_iff]
    intro hgrows
    exact ne_of_isBlank c '=' hc (by decide) (eq_of_growsSign hsign hgrows)

theorem Leads.extend {k : Kind} {chars rest tail : List Char} (h : Leads k chars rest)
    (htail : ∀ c ∈ tail.head?, isBlank c) : Leads k chars (rest ++ tail) := by
  obtain ⟨stop, hspells, hrest⟩ := h
  refine ⟨stop, hspells, fun c hc => ?_⟩
  cases rest with
  | nil => exact hspells.not_stop_of_isBlank c (htail c hc)
  | cons d rest => exact hrest c hc

end Lexeme

/-! ## Moved tokens -/

def LexicalError.shift (n : Nat) : LexicalError → LexicalError
  | unexpectedChar c offset => unexpectedChar c (n + offset)
  | unterminatedString offset => unterminatedString (n + offset)
  | malformedNumber literal offset => malformedNumber literal (n + offset)

def Token.shift (n : Nat) (t : Token) : Token := { t with offset := n + t.offset }

theorem Lexeme.first_add (n offset : Nat) (c : Char) (cs : List Char) :
    first (n + offset) c cs = (first offset c cs).mapError (LexicalError.shift n) := by
  unfold first
  split
  · unfold string
    dsimp only
    split <;> rfl
  · split
    · unfold number
      dsimp only
      split <;> rfl
    · split
      · rfl
      · split <;> rfl

namespace Token

/-- What scanning gives when the text stands `n` bytes further on. -/
def shifted (n : Nat) (result : Except LexicalError (List Token)) :
    Except LexicalError (List Token) :=
  (result.map (List.map (shift n))).mapError (LexicalError.shift n)

theorem scanFrom_add (n start : Nat) (cs : List Char) :
    scanFrom (n + start) cs = shifted n (scanFrom start cs) := by
  fun_induction scanFrom start cs with
  | case1 start =>
    rw [scanFrom]
    rfl
  | case2 start c cs hblank ih => rw [scanFrom, if_pos hblank, Nat.add_assoc, ih]
  | case3 start c cs hblank err herr =>
    have hfirst := Lexeme.first_add n start c cs
    rw [herr] at hfirst
    rw [scanFrom, if_neg hblank]
    split
    · rename_i err' herr'
      rw [hfirst] at herr'
      obtain rfl := Except.error.inj herr'
      rfl
    · rename_i l hl
      rw [hfirst] at hl
      cases hl
  | case4 start c cs hblank l hl ih =>
    have hfirst := Lexeme.first_add n start c cs
    rw [hl] at hfirst
    rw [scanFrom_of_first (by simpa using hblank) hfirst, Nat.add_assoc, ih]
    cases scanFrom (start + byteLength l.chars) l.rest <;> rfl

/-! ## One text after the other -/

theorem scanFrom_blanks (start : Nat) (blanks cs : List Char) (h : ∀ c ∈ blanks, isBlank c) :
    scanFrom start (blanks ++ cs) = scanFrom (start + byteLength blanks) cs := by
  induction blanks generalizing start with
  | nil => rfl
  | cons c blanks ih =>
    rw [List.forall_mem_cons] at h
    rw [List.cons_append, scanFrom, if_pos h.1, ih _ h.2, byteLength, Nat.add_assoc]

/-- Behind a text that is scanned, scanning goes on as if it had started there. -/
theorem scanFrom_append {start : Nat} {cs tail : List Char} {ts : List Token}
    (h : scanFrom start cs = .ok ts) (htail : ∀ c ∈ tail.head?, isBlank c) :
    scanFrom start (cs ++ tail) =
      (scanFrom (start + byteLength cs) tail).map (ts.dropLast ++ ·) := by
  fun_induction scanFrom start cs generalizing ts with
  | case1 start =>
    obtain rfl := Except.ok.inj h
    rw [List.nil_append, byteLength, Nat.add_zero]
    cases scanFrom start tail <;> rfl
  | case2 start c cs hblank ih =>
    rw [List.cons_append, scanFrom, if_pos hblank, ih h, byteLength, Nat.add_assoc]
  | case3 start c cs hblank err herr => cases h
  | case4 start c cs hblank l hl ih =>
    obtain ⟨hsplit, hleads⟩ := (Lexeme.first_eq_ok_iff start c cs l).1 hl
    have hfirst : Lexeme.first start c (cs ++ tail) = .ok ⟨l.kind, l.chars, l.rest ++ tail⟩ := by
      rw [Lexeme.first_eq_ok_iff]
      exact ⟨by rw [← List.append_assoc, hsplit, List.cons_append], hleads.extend htail⟩
    cases hrest : scanFrom (start + byteLength l.chars) l.rest with
    | error err => simp [hrest, Except.map] at h
    | ok us =>
      rw [hrest] at h
      obtain rfl := Except.ok.inj h
      have hne : us ≠ [] := by
        obtain ⟨others, hus, -⟩ := (tiles_scanFrom _ _ us hrest).ends
        simp [hus]
      rw [List.cons_append, scanFrom_of_first (by simpa using hblank) hfirst, ih hrest, ← hsplit,
        byteLength_append, Nat.add_assoc, List.dropLast_cons_of_ne_nil hne]
      cases scanFrom (start + (byteLength l.chars + byteLength l.rest)) tail <;> rfl

/-- What separates two tokens: blanks, and at least one of them. -/
def IsGap (blanks : String) : Prop := blanks ≠ "" ∧ isBlankText blanks

theorem scan_append_gap {first gap : String} {ts : List Token} (hfirst : scan first = .ok ts)
    (hgap : IsGap gap) (second : String) :
    scan (first ++ gap ++ second) =
      (shifted (first ++ gap).utf8ByteSize (scan second)).map (ts.dropLast ++ ·) := by
  have hblanks : ∀ c ∈ gap.toList, isBlank c := List.all_eq_true.1 hgap.2
  have hhead : ∀ c ∈ (gap.toList ++ second.toList).head?, isBlank c := by
    obtain ⟨c, cs, hcons⟩ :=
      List.exists_cons_of_ne_nil (String.toList_eq_nil_iff.not.2 hgap.1)
    rw [hcons] at hblanks ⊢
    intro d hd
    obtain rfl := Option.some.inj hd
    exact hblanks c List.mem_cons_self
  have hbytes : byteLength first.toList + byteLength gap.toList =
      (first ++ gap).utf8ByteSize := by
    rw [byteLength_toList, byteLength_toList, String.utf8ByteSize_append]
  have hmoved := scanFrom_add (first ++ gap).utf8ByteSize 0 second.toList
  rw [Nat.add_zero] at hmoved
  unfold scan at hfirst ⊢
  rw [String.toList_append, String.toList_append, List.append_assoc, scanFrom_append hfirst hhead,
    scanFrom_blanks _ _ _ hblanks, Nat.zero_add, hbytes, hmoved]

/-! ## Kinds -/

/-- The kinds of the tokens, if the text is scanned, and not where they stand. -/
def kinds (result : Except LexicalError (List Token)) : Option (List Kind) :=
  result.toOption.map (List.map kind)

theorem kinds_shifted (n : Nat) (result : Except LexicalError (List Token)) :
    kinds (shifted n result) = kinds result := by
  cases result with
  | error e => rfl
  | ok ts =>
    change some ((ts.map (shift n)).map kind) = some (ts.map kind)
    rw [List.map_map]
    rfl

theorem kinds_scan_append_gap {first gap : String} {ts : List Token} (hfirst : scan first = .ok ts)
    (hgap : IsGap gap) (second : String) :
    kinds (scan (first ++ gap ++ second)) =
      (kinds (scan second)).map (ts.dropLast.map kind ++ ·) := by
  rw [scan_append_gap hfirst hgap, ← kinds_shifted (first ++ gap).utf8ByteSize (scan second)]
  cases shifted (first ++ gap).utf8ByteSize (scan second) with
  | error e => rfl
  | ok us =>
    change some ((ts.dropLast ++ us).map kind) = some (ts.dropLast.map kind ++ us.map kind)
    rw [List.map_append]

/-- Pieces of text, each with what stands behind it, and the last piece. -/
def joined (last : String) : List (String × String) → String
  | [] => last
  | (piece, gap) :: pieces => piece ++ gap ++ joined last pieces

/-- Every piece is scanned, and a gap stands behind it. -/
def AreSeparated (pieces : List (String × String)) : Prop :=
  ∀ p ∈ pieces, (∃ ts, scan p.1 = .ok ts) ∧ IsGap p.2

theorem kinds_scan_joined {pieces pieces' : List (String × String)} (last : String)
    (h : AreSeparated pieces) (h' : AreSeparated pieces')
    (hsame : pieces.map Prod.fst = pieces'.map Prod.fst) :
    kinds (scan (joined last pieces)) = kinds (scan (joined last pieces')) := by
  induction pieces generalizing pieces' with
  | nil =>
    obtain rfl := List.map_eq_nil_iff.1 hsame.symm
    rfl
  | cons p pieces ih =>
    obtain ⟨p', others, rfl, hpiece, hothers⟩ := List.map_eq_cons_iff.1 hsame.symm
    obtain ⟨⟨⟨ts, hts⟩, hgap⟩, hpieces⟩ := List.forall_mem_cons.1 h
    obtain ⟨⟨-, hgap'⟩, hpieces'⟩ := List.forall_mem_cons.1 h'
    obtain ⟨piece, gap⟩ := p
    obtain ⟨piece', gap'⟩ := p'
    obtain rfl : piece' = piece := hpiece
    rw [joined, joined, kinds_scan_append_gap hts hgap, kinds_scan_append_gap hts hgap',
      ih hpieces hpieces' hothers.symm]

/-- Over a gap texts are scanned one by one. The tokens of the first text, but for its end, come
before those of the second, and the second text's tokens or its error move by the bytes before it.
So the kinds of the tokens are the same whatever the gaps between them. -/
theorem scan_separated :
    (∀ (first gap second : String) (ts : List Token), scan first = .ok ts → IsGap gap →
      ts.getLast? = some ⟨.endOfInput, first.utf8ByteSize⟩ ∧
      scan (first ++ gap ++ second) =
        match scan second with
        | .ok us => .ok (ts.dropLast ++ us.map (shift (first ++ gap).utf8ByteSize))
        | .error e => .error (e.shift (first ++ gap).utf8ByteSize)) ∧
    ∀ (last : String) (pieces pieces' : List (String × String)), AreSeparated pieces →
      AreSeparated pieces' → pieces.map Prod.fst = pieces'.map Prod.fst →
      kinds (scan (joined last pieces)) = kinds (scan (joined last pieces')) := by
  constructor
  · intro first gap second ts hfirst hgap
    constructor
    · obtain ⟨us, rfl, -⟩ := (tiles_scanFrom 0 first.toList ts hfirst).ends
      rw [List.getLast?_concat, Nat.zero_add, byteLength_toList]
    · rw [scan_append_gap hfirst hgap]
      cases scan second <;> rfl
  · intro last pieces pieces' h h' hsame
    exact kinds_scan_joined last h h' hsame

/-- A sign that could have gone on, a blank of three bytes, and a text with an error in it. Then one
comparison with two kinds of gaps. -/
theorem scan_separated_comparison :
    (scan "total<" = .ok [⟨.ident "total", 0⟩, ⟨.compare .lt, 5⟩, ⟨.endOfInput, 6⟩] ∧
      scan "= $" = .error (.unexpectedChar '$' 2) ∧
      scan "total<\u2003= $" = .error (.unexpectedChar '$' 11)) ∧
    kinds (scan "total < 12") = kinds (scan "total\t\n<  12") := by
  have htotal : scan "total<" =
      .ok [⟨.ident "total", 0⟩, ⟨.compare .lt, 5⟩, ⟨.endOfInput, 6⟩] := by
    decide +kernel
  have herror : scan "= $" = .error (.unexpectedChar '$' 2) := by decide +kernel
  have hname : scan "total" = .ok [⟨.ident "total", 0⟩, ⟨.endOfInput, 5⟩] := by decide +kernel
  have hless : scan "<" = .ok [⟨.compare .lt, 0⟩, ⟨.endOfInput, 1⟩] := by decide +kernel
  have herror' := (scan_separated.1 "total<" "\u2003" "= $" _ htotal ⟨by decide, by decide⟩).2
  rw [herror] at herror'
  refine ⟨⟨htotal, herror, herror'⟩, ?_⟩
  have hnarrow : AreSeparated [("total", " "), ("<", " ")] := by
    rw [AreSeparated, List.forall_mem_cons, List.forall_mem_singleton]
    exact ⟨⟨⟨_, hname⟩, by decide, by decide⟩, ⟨_, hless⟩, by decide, by decide⟩
  have hwide : AreSeparated [("total", "\t\n"), ("<", "  ")] := by
    rw [AreSeparated, List.forall_mem_cons, List.forall_mem_singleton]
    exact ⟨⟨⟨_, hname⟩, by decide, by decide⟩, ⟨_, hless⟩, by decide, by decide⟩
  have hkinds := scan_separated.2 "12" _ _ hnarrow hwide rfl
  have htext : joined "12" [("total", " "), ("<", " ")] = "total < 12" := by decide +kernel
  have htext' : joined "12" [("total", "\t\n"), ("<", "  ")] = "total\t\n<  12" := by
    decide +kernel
  rwa [htext, htext'] at hkinds

end Token

end Promotions
