import Mathlib.Data.List.Chain
import Mathlib.Data.List.TakeWhile
import Promotions.Proofs.Token.Lexemes

/-!
# Tokens tile the text

A text that is scanned is its lexemes one after the other, with nothing but blanks before, between
and after them, and each token has the offset of its lexeme. A text that is not scanned has been cut
like that up to the offset of the error, where no lexeme stands.
-/

namespace Promotions

open Text

/-! ## Errors -/

namespace LexicalError

open Lexeme Token

def offset : LexicalError → Nat
  | unexpectedChar _ offset | unterminatedString offset | malformedNumber _ offset => offset

/-- What an error says about the text that starts at its offset. -/
inductive Describes : LexicalError → List Char → Prop where
  | unexpectedChar {c : Char} {offset : Nat} (cs : List Char) :
      Describes (.unexpectedChar c offset) (c :: cs)
  /-- No later quote closes the one at the offset. -/
  | unterminatedString {cs : List Char} {offset : Nat} : '"' ∉ cs →
      Describes (.unterminatedString offset) ('"' :: cs)
  /-- The literal goes as far as a number could. It is no numeral, or one without room. -/
  | malformedNumber {literal after : List Char} {offset : Nat} (sign : List Char) (d : Char)
      (run : List Char) : literal = sign ++ d :: run → (sign = [] ∨ sign = ['-']) → d.isDigit →
      (∀ c ∈ run, inNumber c) → Bounded inNumber after →
      Decimal.ofText? (String.ofList literal) = none →
      Describes (.malformedNumber (String.ofList literal) offset) (literal ++ after)

theorem exists_run_of_startsNumber {cs : List Char} (h : startsNumber cs) :
    ∃ sign d run, (spanNumber cs).1 = sign ++ d :: run ∧ (sign = [] ∨ sign = ['-']) ∧ d.isDigit ∧
      ∀ c ∈ run, inNumber c := by
  have hspan : ∀ (d : Char) (ds : List Char), d.isDigit →
      (d :: ds).takeWhile inNumber = d :: ds.takeWhile inNumber := by
    intro d ds hd
    rw [List.takeWhile_cons_of_pos (inNumber_of_isDigit hd)]
  unfold startsNumber at h
  split at h
  · rename_i d ds
    refine ⟨['-'], d, ds.takeWhile inNumber, ?_, .inr rfl, h, fun c => mem_of_mem_takeWhile _ _ c⟩
    rw [spanNumber, hspan d ds h]
    rfl
  · rename_i d ds hnot
    have hminus : d ≠ '-' := ne_of_isDigit d _ h (by decide)
    refine ⟨[], d, ds.takeWhile inNumber, ?_, .inl rfl, h, fun c => mem_of_mem_takeWhile _ _ c⟩
    rw [spanNumber_cons _ _ hminus, hspan d ds h]
    rfl
  · cases h

theorem describes_of_number {offset : Nat} {cs : List Char} {e : LexicalError}
    (hstarts : startsNumber cs) (h : number offset cs = .error e) :
    e.offset = offset ∧ e.Describes cs := by
  unfold number at h
  dsimp only at h
  split at h
  · simp at h
  · rename_i hnone
    obtain rfl := Except.error.inj h
    obtain ⟨sign, d, run, hliteral, hsign, hd, hrun⟩ := exists_run_of_startsNumber hstarts
    refine ⟨rfl, ?_⟩
    nth_rewrite 2 [← spanNumber_append cs]
    exact .malformedNumber sign d run hliteral hsign hd hrun (bounded_spanNumber cs)
      (by rw [Decimal.ofText?, String.toList_ofList, hnone])

theorem describes_of_string {offset : Nat} {cs : List Char} {e : LexicalError}
    (h : string offset cs = .error e) : e.offset = offset ∧ e.Describes ('"' :: cs) := by
  unfold string at h
  dsimp only at h
  split at h
  · simp at h
  · rename_i hnil
    obtain rfl := Except.error.inj h
    refine ⟨rfl, .unterminatedString ?_⟩
    intro hmem
    simpa using List.dropWhile_eq_nil_iff.1 hnil '"' hmem

theorem describes_of_first {offset : Nat} {c : Char} {cs : List Char} {e : LexicalError}
    (h : first offset c cs = .error e) : e.offset = offset ∧ e.Describes (c :: cs) := by
  unfold first at h
  split at h
  · rename_i hquote
    subst hquote
    exact describes_of_string h
  · split at h
    · exact describes_of_number ‹_› h
    · split at h
      · simp at h
      · split at h
        · simp at h
        · obtain rfl := Except.error.inj h
          exact ⟨rfl, .unexpectedChar cs⟩

end LexicalError

namespace Token

open Lexeme

/-! ## Tiles -/

/-- From the one token to the next the text holds a lexeme of the kind, and blanks. The text
starts at byte `start`. -/
def Adjoins (start : Nat) (text : List Char) (t next : Token) : Prop :=
  ∃ before chars blanks rest, text = before ++ (chars ++ (blanks ++ rest)) ∧
    t.offset = start + byteLength before ∧ next.offset = t.offset + byteLength (chars ++ blanks) ∧
    Leads t.kind chars (blanks ++ rest) ∧ ∀ c ∈ blanks, isBlank c

/-- A text that starts at byte `start`, and the tokens that it is cut into. -/
structure Tiles (start : Nat) (text : List Char) (ts : List Token) : Prop where
  /-- Blanks stand before the first token. -/
  starts : ∃ blanks rest first others, ts = first :: others ∧ text = blanks ++ rest ∧
    (∀ c ∈ blanks, isBlank c) ∧ first.offset = start + byteLength blanks
  adjoins : ts.IsChain (Adjoins start text)
  /-- The last token and no other is the end of the text. -/
  ends : ∃ us, ts = us ++ [⟨.endOfInput, start + byteLength text⟩] ∧ ∀ t ∈ us, t.kind ≠ .endOfInput

theorem byteLength_pos {cs : List Char} (h : cs ≠ []) : 0 < byteLength cs := by
  obtain ⟨c, cs, rfl⟩ := List.exists_cons_of_ne_nil h
  have := c.utf8Size_pos
  rw [byteLength]
  omega

theorem Adjoins.offset_lt {start : Nat} {text : List Char} {t next : Token}
    (h : Adjoins start text t next) : t.offset < next.offset := by
  obtain ⟨before, chars, blanks, rest, -, -, hnext, hleads, -⟩ := h
  have := byteLength_pos hleads.ne_nil
  rw [hnext, byteLength_append]
  omega

theorem Adjoins.prepend {start : Nat} {text : List Char} {t next : Token} (front : List Char)
    (h : Adjoins (start + byteLength front) text t next) :
    Adjoins start (front ++ text) t next := by
  obtain ⟨before, chars, blanks, rest, rfl, ht, hnext, hleads, hblanks⟩ := h
  refine ⟨front ++ before, chars, blanks, rest, by simp, ?_, hnext, hleads, hblanks⟩
  rw [ht, byteLength_append]
  omega

namespace Tiles

variable {start : Nat} {text rest : List Char} {ts : List Token}

theorem endOfInput (start : Nat) : Tiles start [] [⟨.endOfInput, start⟩] where
  starts := ⟨[], [], _, [], rfl, rfl, by simp, rfl⟩
  adjoins := List.isChain_singleton _
  ends := ⟨[], rfl, by simp⟩

theorem adjoins_prepend (front : List Char) (h : Tiles (start + byteLength front) text ts) :
    ts.IsChain (Adjoins start (front ++ text)) :=
  h.adjoins.imp fun _ _ hadjoins => hadjoins.prepend front

theorem blank {c : Char} (hc : isBlank c) (h : Tiles (start + c.utf8Size) text ts) :
    Tiles start (c :: text) ts where
  starts := by
    obtain ⟨blanks, rest, first, others, rfl, rfl, hblanks, hfirst⟩ := h.starts
    refine ⟨c :: blanks, rest, first, others, rfl, rfl, List.forall_mem_cons.2 ⟨hc, hblanks⟩, ?_⟩
    rw [hfirst, byteLength, Nat.add_assoc]
  adjoins := h.adjoins_prepend [c]
  ends := by
    obtain ⟨us, hus, hkinds⟩ := h.ends
    rw [Nat.add_assoc] at hus
    exact ⟨us, hus, hkinds⟩

theorem lexeme {k : Kind} {chars : List Char} (hleads : Leads k chars rest)
    (h : Tiles (start + byteLength chars) rest ts) :
    Tiles start (chars ++ rest) (⟨k, start⟩ :: ts) where
  starts := ⟨[], _, _, ts, rfl, rfl, by simp, rfl⟩
  adjoins := by
    rw [List.isChain_cons]
    refine ⟨?_, h.adjoins_prepend chars⟩
    obtain ⟨blanks, rest, first, others, rfl, rfl, hblanks, hfirst⟩ := h.starts
    rintro next hnext
    obtain rfl : first = next := by simpa using hnext
    refine ⟨[], chars, blanks, rest, rfl, rfl, ?_, hleads, hblanks⟩
    rw [hfirst, byteLength_append, Nat.add_assoc]
  ends := by
    obtain ⟨us, rfl, hkinds⟩ := h.ends
    refine ⟨⟨k, start⟩ :: us, ?_, List.forall_mem_cons.2 ⟨hleads.kind_ne, hkinds⟩⟩
    rw [byteLength_append, Nat.add_assoc, List.cons_append]

end Tiles

theorem tiles_scanFrom (start : Nat) (cs : List Char) (ts : List Token)
    (h : scanFrom start cs = .ok ts) : Tiles start cs ts := by
  fun_induction scanFrom start cs generalizing ts with
  | case1 start =>
    obtain rfl := Except.ok.inj h
    exact .endOfInput start
  | case2 start c cs hblank ih => exact (ih ts h).blank hblank
  | case3 start c cs hblank err herr => simp at h
  | case4 start c cs hblank l hl ih =>
    obtain ⟨hsplit, hleads⟩ := (first_eq_ok_iff start c cs l).1 hl
    cases hrest : scanFrom (start + byteLength l.chars) l.rest with
    | error err => simp [hrest, Except.map] at h
    | ok us =>
      rw [hrest] at h
      obtain rfl := Except.ok.inj h
      rw [← hsplit]
      exact (ih us hrest).lexeme hleads

/-- Up to the offset of the error the text is scanned, and there no lexeme stands. -/
theorem exists_of_scanFrom_error (start : Nat) (cs : List Char) (e : LexicalError)
    (h : scanFrom start cs = .error e) :
    ∃ before rest, cs = before ++ rest ∧ e.offset = start + byteLength before ∧
      (∃ ts, scanFrom start before = .ok ts) ∧ e.Describes rest ∧
      ∀ k chars after, rest = chars ++ after → ¬Leads k chars after := by
  fun_induction scanFrom start cs with
  | case1 start => simp at h
  | case2 start c cs hblank ih =>
    obtain ⟨before, rest, rfl, hoffset, ⟨ts, hts⟩, hstands⟩ := ih h
    refine ⟨c :: before, rest, rfl, ?_, ⟨ts, ?_⟩, hstands⟩
    · rw [hoffset, byteLength, Nat.add_assoc]
    · rw [scanFrom, if_pos hblank, hts]
  | case3 start c cs hblank err herr =>
    obtain rfl := Except.error.inj h
    obtain ⟨hoffset, hdescribes⟩ := LexicalError.describes_of_first herr
    refine ⟨[], c :: cs, rfl, hoffset, ⟨_, by rw [scanFrom]⟩, hdescribes, ?_⟩
    intro k chars after hsplit hleads
    have hok := (first_eq_ok_iff start c cs ⟨k, chars, after⟩).2 ⟨hsplit.symm, hleads⟩
    rw [herr] at hok
    cases hok
  | case4 start c cs hblank l hl ih =>
    obtain ⟨hsplit, hleads⟩ := (first_eq_ok_iff start c cs l).1 hl
    cases hscan : scanFrom (start + byteLength l.chars) l.rest with
    | ok us => simp [hscan, Except.map] at h
    | error err =>
      rw [hscan] at h
      obtain rfl := Except.error.inj h
      obtain ⟨before, rest, hrest, hoffset, ⟨ts, hts⟩, hstands⟩ := ih hscan
      rw [hrest] at hsplit hleads
      -- Without `rest` the same lexeme stands before `before`.
      obtain ⟨d, tail, hchars⟩ := List.exists_cons_of_ne_nil hleads.ne_nil
      rw [hchars, List.cons_append, List.cons.injEq] at hsplit
      obtain ⟨rfl, rfl⟩ := hsplit
      have hfirst := (first_eq_ok_iff start d (tail ++ before) ⟨l.kind, l.chars, before⟩).2
        ⟨by rw [hchars, List.cons_append], hleads.cut⟩
      refine ⟨l.chars ++ before, rest, by rw [hchars]; simp, ?_, ⟨⟨l.kind, start⟩ :: ts, ?_⟩,
        hstands⟩
      · rw [hoffset, byteLength_append, Nat.add_assoc]
      · rw [hchars, List.cons_append, scanFrom_of_first (by simpa using hblank) hfirst, hts]
        rfl

/-! ## Every text -/

theorem Tiles.offsets_increase {start : Nat} {text : List Char} {ts : List Token}
    (h : Tiles start text ts) : ts.Pairwise fun t next => t.offset < next.offset := by
  have hchain : (ts.map (·.offset)).IsChain (· < ·) := by
    rw [List.isChain_map]
    exact h.adjoins.imp fun _ _ hadjoins => hadjoins.offset_lt
  rw [List.isChain_iff_pairwise, List.pairwise_map] at hchain
  exact hchain

theorem index_eq_of_offset_eq {ts : List Token}
    (h : ts.Pairwise fun t next => t.offset < next.offset) {i j : Nat} {t u : Token}
    (hi : ts[i]? = some t) (hj : ts[j]? = some u) (heq : t.offset = u.offset) : i = j := by
  obtain ⟨hlti, rfl⟩ := List.getElem?_eq_some_iff.1 hi
  obtain ⟨hltj, rfl⟩ := List.getElem?_eq_some_iff.1 hj
  rw [List.pairwise_iff_getElem] at h
  rcases Nat.lt_trichotomy i j with hij | rfl | hij
  · have := h i j hlti hltj hij
    omega
  · rfl
  · have := h j i hltj hlti hij
    omega

theorem exists_next_of_isChain {α : Type} {R : α → α → Prop} {xs : List α} {last : α}
    (h : (xs ++ [last]).IsChain R) : ∀ x ∈ xs, ∃ next, R x next := by
  induction xs with
  | nil => simp
  | cons x xs ih =>
    rw [List.cons_append, List.isChain_cons] at h
    obtain ⟨next, hnext⟩ : ∃ next, (xs ++ [last]).head? = some next :=
      Option.isSome_iff_exists.1 (by simp)
    exact List.forall_mem_cons.2 ⟨⟨next, h.1 next hnext⟩, ih h.2⟩

theorem Tiles.exists_before {start : Nat} {text : List Char} {ts : List Token}
    (h : Tiles start text ts) :
    ∀ t ∈ ts, ∃ before after, text = before ++ after ∧ t.offset = start + byteLength before := by
  obtain ⟨us, rfl, -⟩ := h.ends
  intro t ht
  rcases List.mem_append.1 ht with ht | ht
  · obtain ⟨next, before, chars, blanks, rest, htext, hoffset, -⟩ :=
      exists_next_of_isChain h.adjoins t ht
    exact ⟨before, _, htext, hoffset⟩
  · rw [List.mem_singleton.1 ht]
    exact ⟨text, [], by simp, rfl⟩

theorem Tiles.readable {start : Nat} {text : List Char} {ts : List Token}
    (h : Tiles start text ts) : ∀ t ∈ ts, t.kind.Readable := by
  obtain ⟨us, rfl, -⟩ := h.ends
  intro t ht
  rcases List.mem_append.1 ht with ht | ht
  · obtain ⟨next, before, chars, blanks, rest, -, -, -, ⟨stop, hspells, -⟩, -⟩ :=
      exists_next_of_isChain h.adjoins t ht
    exact hspells.readable
  · rw [List.mem_singleton.1 ht]
    exact trivial

theorem byteLength_toList (text : String) : byteLength text.toList = text.utf8ByteSize := by
  have hlist : ∀ cs : List Char, byteLength cs = (String.ofList cs).utf8ByteSize := by
    intro cs
    induction cs with
    | nil => rfl
    | cons c cs ih =>
      rw [byteLength, ih, String.ofList_cons, String.utf8ByteSize_append,
        String.utf8ByteSize_singleton]
  rw [hlist, String.ofList_toList]

/-- A scanned text is tiled by its tokens. Where scanning fails, the text before is scanned, and
what stands there is no lexeme but what the error says. -/
theorem scan_tiles (text : String) :
    match scan text with
    | .ok ts =>
      Tiles 0 text.toList ts ∧
        (∀ t ∈ ts, ∃ before after, text.toList = before ++ after ∧ t.offset = byteLength before) ∧
        (ts.Pairwise fun t next => t.offset < next.offset) ∧
        ts.getLast? = some ⟨.endOfInput, text.utf8ByteSize⟩
    | .error e =>
      ∃ before rest, text.toList = before ++ rest ∧ e.offset = byteLength before ∧
        (∃ ts, scan (String.ofList before) = .ok ts) ∧ e.Describes rest ∧
        ∀ k chars after, rest = chars ++ after → ¬Leads k chars after := by
  unfold scan
  cases h : scanFrom 0 text.toList with
  | ok ts =>
    have htiles := tiles_scanFrom 0 text.toList ts h
    refine ⟨htiles, ?_, htiles.offsets_increase, ?_⟩
    · simpa only [Nat.zero_add] using htiles.exists_before
    · obtain ⟨us, rfl, -⟩ := htiles.ends
      rw [List.getLast?_concat, Nat.zero_add, byteLength_toList]
  | error e =>
    obtain ⟨before, rest, htext, hoffset, hscan, hstands⟩ :=
      exists_of_scanFrom_error 0 text.toList e h
    rw [Nat.zero_add] at hoffset
    rw [← String.toList_ofList (l := before)] at hscan
    exact ⟨before, rest, htext, hoffset, hscan, hstands⟩

/-- A bracket and a word of two bytes a letter, three blanks between them. -/
example : scan "(   éé" = .ok [⟨.leftParen, 0⟩, ⟨.ident "éé", 4⟩, ⟨.endOfInput, 8⟩] := by
  decide +kernel

end Token

end Promotions
