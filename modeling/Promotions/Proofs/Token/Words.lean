import Promotions.Proofs.Token.Scanning

/-!
# What a text can be cut into

An identifier is a word that is no keyword. The tokens of a text carry identifiers, strings without
a quote in them, and numbers whose zeros have no sign.
-/

namespace Promotions

namespace Token

open Lexeme

/-! ## Identifiers -/

/-- A word other than the keywords, whatever their ASCII case. -/
structure IsIdentifier (s : String) : Prop where
  starts : s.toList.head?.any startsWord
  word : s.toList.all inWord
  not_keyword :
    String.ofList (s.toList.map Char.toLower) ∉ ["and", "or", "not", "true", "false"]

instance (s : String) : Decidable (IsIdentifier s) :=
  decidable_of_iff
    (s.toList.head?.any startsWord ∧ s.toList.all inWord ∧
      String.ofList (s.toList.map Char.toLower) ∉ ["and", "or", "not", "true", "false"])
    ⟨fun ⟨h₁, h₂, h₃⟩ => ⟨h₁, h₂, h₃⟩, fun h => ⟨h.starts, h.word, h.not_keyword⟩⟩

theorem wordKind_of_not_keyword (word : List Char)
    (h : String.ofList (word.map Char.toLower) ∉ ["and", "or", "not", "true", "false"]) :
    wordKind word = .ident (String.ofList word) := by
  rw [wordKind, List.lookup_eq_none_iff.2, Option.getD_none]
  intro p hp
  rw [bne_iff_ne]
  intro hkey
  exact h (hkey ▸ List.mem_map_of_mem hp)

theorem IsIdentifier.scans {s : String} (h : IsIdentifier s) : Scans inWord s.toList [.ident s] := by
  have hscans := scans_word s.toList h.starts h.word
  rwa [wordKind_of_not_keyword _ h.not_keyword, String.ofList_toList] at hscans

/-! ## Tokens of a text -/

/-- What a token of a text carries. -/
def Kind.Readable : Kind → Prop
  | ident name => IsIdentifier name
  | number n => n.plain = n
  | string s => '"' ∉ s.toList
  | _ => True

theorem plain_of_ofParts? {negative : Bool} {m k : Nat} {n : Decimal}
    (h : Decimal.ofParts? negative m k = some n) : n.plain = n := by
  unfold Decimal.ofParts? at h
  split at h
  · obtain rfl := Option.some.inj h
    rfl
  · simp at h

theorem plain_of_ofChars? (cs : List Char) (n : Decimal) (h : Decimal.ofChars? cs = some n) :
    n.plain = n := by
  unfold Decimal.ofChars? at h
  split at h
  · obtain ⟨_, -, hn⟩ := Option.bind_eq_some_iff.1 h
    exact plain_of_ofParts? hn
  · obtain ⟨_, -, hn⟩ := Option.bind_eq_some_iff.1 h
    exact plain_of_ofParts? hn

theorem mem_of_mem_takeWhile (p : Char → Bool) (cs : List Char) (c : Char)
    (h : c ∈ cs.takeWhile p) : p c := by
  have hall := List.all_takeWhile (p := p) (l := cs)
  rw [List.all_eq_true] at hall
  exact hall c h

theorem readable_word (c : Char) (cs : List Char) (hc : startsWord c) :
    (word (c :: cs)).kind.Readable := by
  unfold word
  dsimp only
  rw [List.takeWhile_cons_of_pos (inWord_of_startsWord c hc)]
  by_cases hkey : String.ofList ((c :: cs.takeWhile inWord).map Char.toLower) ∈
      ["and", "or", "not", "true", "false"]
  · unfold wordKind
    generalize String.ofList ((c :: cs.takeWhile inWord).map Char.toLower) = key at hkey
    simp only [List.mem_cons, List.not_mem_nil, or_false] at hkey
    rcases hkey with rfl | rfl | rfl | rfl | rfl <;> exact trivial
  · rw [wordKind_of_not_keyword _ hkey]
    refine ⟨?_, ?_, ?_⟩ <;> rw [String.toList_ofList]
    · exact hc
    · rw [List.all_cons, Bool.and_eq_true]
      exact ⟨inWord_of_startsWord c hc, List.all_takeWhile⟩
    · exact hkey

end Token

end Promotions
