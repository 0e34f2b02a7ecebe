import Promotions.Text.Alphabetic
import Promotions.Text.Blank
import Promotions.Text.Numeric
import Promotions.Token.Basic

/-!
# From text to tokens

The text is cut into lexemes from left to right, blanks between them left out. Words and numbers run
as far as they can, so `12abc` is one malformed number and no number followed by a word.
-/

namespace Promotions

open Text

inductive LexicalError where
  | unexpectedChar (c : Char) (offset : Nat)
  | unterminatedString (offset : Nat)
  | malformedNumber (literal : String) (offset : Nat)
deriving DecidableEq

namespace LexicalError

def message : LexicalError → String
  | unexpectedChar c offset => s!"lex error: unexpected character '{c}' at offset {offset}"
  | unterminatedString offset =>
    s!"lex error: unterminated string literal starting at offset {offset}"
  | malformedNumber literal offset =>
    s!"lex error: malformed number '{literal}' at offset {offset}"

end LexicalError

/-- One token's characters, and the text after them. -/
structure Lexeme where
  kind : Token.Kind
  chars : List Char
  rest : List Char

namespace Lexeme

/-! ## Words -/

def startsWord (c : Char) : Bool := isAlphabetic c || c == '_'

def inWord (c : Char) : Bool := isAlphabetic c || isNumeric c || c == '_'

def keywords : List (String × Token.Kind) :=
  [("and", .and), ("or", .or), ("not", .not), ("true", .true), ("false", .false)]

/-- A keyword in any ASCII case, else an identifier. -/
def wordKind (word : List Char) : Token.Kind :=
  (keywords.lookup (String.ofList (word.map Char.toLower))).getD (.ident (String.ofList word))

def word (cs : List Char) : Lexeme :=
  let chars := cs.takeWhile inWord
  ⟨wordKind chars, chars, cs.dropWhile inWord⟩

/-! ## Numbers -/

def startsNumber : List Char → Bool
  | '-' :: c :: _ => c.isDigit
  | c :: _ => c.isDigit
  | [] => false

def inNumber (c : Char) : Bool := inWord c || c == '.'

/-- All that could belong to the number, an optional minus sign and a run of `inNumber`. -/
def spanNumber : List Char → List Char × List Char
  | '-' :: cs => ('-' :: cs.takeWhile inNumber, cs.dropWhile inNumber)
  | cs => (cs.takeWhile inNumber, cs.dropWhile inNumber)

/-- The number is taken whole before it is read. -/
def number (offset : Nat) (cs : List Char) : Except LexicalError Lexeme :=
  let (chars, rest) := spanNumber cs
  match Decimal.ofChars? chars with
  | some n => .ok ⟨.number n, chars, rest⟩
  | none => .error (.malformedNumber (String.ofList chars) offset)

/-! ## Strings and signs -/

/-- The string whose opening quote stands before `cs`. It runs to the next quote, and nothing is
escaped in it. -/
def string (offset : Nat) (cs : List Char) : Except LexicalError Lexeme :=
  let body := cs.takeWhile (· != '"')
  match cs.dropWhile (· != '"') with
  | quote :: rest => .ok ⟨.string (String.ofList body), '"' :: body ++ [quote], rest⟩
  | [] => .error (.unterminatedString offset)

/-- The longest sign at the start of the text. -/
def sign? : List Char → Option Lexeme
  | '!' :: '=' :: rest => some ⟨.compare .ne, ['!', '='], rest⟩
  | '>' :: '=' :: rest => some ⟨.compare .ge, ['>', '='], rest⟩
  | '<' :: '=' :: rest => some ⟨.compare .le, ['<', '='], rest⟩
  | '=' :: '=' :: rest => some ⟨.compare .eq, ['=', '='], rest⟩
  | '≠' :: rest => some ⟨.compare .ne, ['≠'], rest⟩
  | '≥' :: rest => some ⟨.compare .ge, ['≥'], rest⟩
  | '≤' :: rest => some ⟨.compare .le, ['≤'], rest⟩
  | '>' :: rest => some ⟨.compare .gt, ['>'], rest⟩
  | '<' :: rest => some ⟨.compare .lt, ['<'], rest⟩
  | '=' :: rest => some ⟨.compare .eq, ['='], rest⟩
  | '!' :: rest => some ⟨.not, ['!'], rest⟩
  | '(' :: rest => some ⟨.leftParen, ['('], rest⟩
  | ')' :: rest => some ⟨.rightParen, [')'], rest⟩
  | '.' :: rest => some ⟨.dot, ['.'], rest⟩
  | ',' :: rest => some ⟨.comma, [','], rest⟩
  | _ => none

/-! ## The first lexeme -/

/-- The lexeme at the start of `c :: cs`. The text starts at byte `offset`, and not with a blank. -/
def first (offset : Nat) (c : Char) (cs : List Char) : Except LexicalError Lexeme :=
  if c = '"' then string offset cs
  else if startsNumber (c :: cs) then number offset (c :: cs)
  else if startsWord c then .ok (word (c :: cs))
  else
    match sign? (c :: cs) with
    | some lexeme => .ok lexeme
    | none => .error (.unexpectedChar c offset)

def Splits (l : Lexeme) (cs : List Char) : Prop := l.chars ++ l.rest = cs ∧ l.chars ≠ []

theorem Splits.length_lt {l : Lexeme} {cs : List Char} (h : l.Splits cs) :
    l.rest.length < cs.length := by
  obtain ⟨rfl, hne⟩ := h
  have := List.length_pos_iff.2 hne
  simp only [List.length_append]
  omega

theorem splits_word {c : Char} (cs : List Char) (h : startsWord c) :
    (word (c :: cs)).Splits (c :: cs) := by
  have hc : inWord c := by
    simp only [startsWord, inWord, Bool.or_eq_true] at h ⊢
    exact h.imp_left .inl
  exact ⟨List.takeWhile_append_dropWhile, by simp [word, hc]⟩

theorem spanNumber_append (cs : List Char) : (spanNumber cs).1 ++ (spanNumber cs).2 = cs := by
  unfold spanNumber
  split
  · simp
  · exact List.takeWhile_append_dropWhile

theorem inNumber_of_isDigit {c : Char} (h : c.isDigit) : inNumber c := by
  have hc : isNumeric c := by
    simp only [Char.isDigit, Bool.and_eq_true, decide_eq_true_eq] at h
    have h1 : 48 ≤ c.toNat := h.1
    have h2 : c.toNat ≤ 57 := h.2
    unfold isNumeric numericRanges inRanges
    rw [if_neg (by omega), if_pos h2]
  simp [inNumber, inWord, hc]

theorem splits_number {offset : Nat} {cs : List Char} {l : Lexeme} (hs : startsNumber cs)
    (h : number offset cs = .ok l) : l.Splits cs := by
  unfold number at h
  dsimp only at h
  split at h
  · cases h
    refine ⟨spanNumber_append cs, ?_⟩
    show (spanNumber cs).1 ≠ []
    unfold spanNumber
    split
    · simp
    · cases cs with
      | nil => simp [startsNumber] at hs
      | cons c cs =>
        have hd : c.isDigit := by
          unfold startsNumber at hs
          split at hs
          · simp_all
          · simp_all
          · simp_all
        simp [inNumber_of_isDigit hd]
  · cases h

theorem splits_string {offset : Nat} {cs : List Char} {l : Lexeme}
    (h : string offset cs = .ok l) : l.Splits ('"' :: cs) := by
  unfold string at h
  dsimp only at h
  split at h
  · rename_i quote rest hd
    cases h
    refine ⟨?_, by simp⟩
    have := List.takeWhile_append_dropWhile (p := (· != '"')) (l := cs)
    rw [hd] at this
    simpa using this
  · cases h

theorem splits_sign {cs : List Char} {l : Lexeme} (h : sign? cs = some l) : l.Splits cs := by
  unfold sign? at h
  split at h <;> cases h <;> exact ⟨rfl, by simp⟩

theorem splits_first {offset : Nat} {c : Char} {cs : List Char} {l : Lexeme}
    (h : first offset c cs = .ok l) : l.Splits (c :: cs) := by
  unfold first at h
  split at h
  · rename_i hc
    subst hc
    exact splits_string h
  · split at h
    · exact splits_number ‹_› h
    · split at h
      · cases h
        exact splits_word cs ‹_›
      · split at h
        · cases h
          exact splits_sign ‹_›
        · cases h

end Lexeme

/-! ## The whole text -/

namespace Token

/-- The tokens of `cs`, a text that starts at byte `offset`, and the end of input after them. -/
def scanFrom (offset : Nat) : List Char → Except LexicalError (List Token)
  | [] => .ok [⟨.endOfInput, offset⟩]
  | c :: cs =>
    if isBlank c then scanFrom (offset + c.utf8Size) cs
    else
      match _h : Lexeme.first offset c cs with
      | .error e => .error e
      | .ok lexeme =>
        (scanFrom (offset + byteLength lexeme.chars) lexeme.rest).map (⟨lexeme.kind, offset⟩ :: ·)
termination_by cs => cs.length
decreasing_by
  · simp
  · exact (Lexeme.splits_first ‹_›).length_lt

def scan (text : String) : Except LexicalError (List Token) := scanFrom 0 text.toList

end Token

end Promotions
