import Promotions.Expr.Parse

/-!
# The grammar of conditions

`Derives phrase tokens opens` is the grammar as a relation. `opens` is the largest number of
constructs that are open at once: the bracket of a group or of a call, and a `not` whose operand
is still to come.
-/

namespace Promotions.Grammar

open Token (Kind)

/-! ## Phrases -/

/-- How tightly an expression holds together, from the loosest kind to the tightest. -/
inductive Level where
  | or
  | and
  | not
  | comparison
  | primary

def Level.rank : Level → Nat
  | or => 1
  | and => 2
  | not => 3
  | comparison => 4
  | primary => 5

/-- What tokens are read as. -/
inductive Phrase where
  | expr (level : Level) (e : Expr)
  | arguments (args : List Expr)

def dotted (segments : List String) : List Kind := (segments.map Kind.ident).intersperse .dot

inductive Derives : Phrase → List Kind → Nat → Prop where
  | or_and {e p n} : Derives (.expr .and e) p n → Derives (.expr .or e) p n
  | or {a b p q m n} : Derives (.expr .or a) p m → Derives (.expr .and b) q n →
      Derives (.expr .or (.or a b)) (p ++ .or :: q) (max m n)
  | and_not {e p n} : Derives (.expr .not e) p n → Derives (.expr .and e) p n
  | and {a b p q m n} : Derives (.expr .and a) p m → Derives (.expr .not b) q n →
      Derives (.expr .and (.and a b)) (p ++ .and :: q) (max m n)
  | not_comparison {e p n} : Derives (.expr .comparison e) p n → Derives (.expr .not e) p n
  | not {e p n} : Derives (.expr .not e) p n → Derives (.expr .not (.not e)) (.not :: p) (n + 1)
  | comparison_primary {e p n} :
      Derives (.expr .primary e) p n → Derives (.expr .comparison e) p n
  | compare {op a b p q m n} : Derives (.expr .primary a) p m → Derives (.expr .primary b) q n →
      Derives (.expr .comparison (.compare op a b)) (p ++ .compare op :: q) (max m n)
  | true : Derives (.expr .primary (.bool true)) [.true] 0
  | false : Derives (.expr .primary (.bool false)) [.false] 0
  | number {x} : Derives (.expr .primary (.number x)) [.number x] 0
  | string {s} : Derives (.expr .primary (.string s)) [.string s] 0
  /-- A group leaves no node. -/
  | group {e p n} : Derives (.expr .or e) p n →
      Derives (.expr .primary e) (.leftParen :: (p ++ [.rightParen])) (n + 1)
  | var {segments} : segments ≠ [] →
      Derives (.expr .primary (.var (.ofSegments segments))) (dotted segments) 0
  | call_nil {segments} : segments ≠ [] →
      Derives (.expr .primary (.call (Path.ofSegments segments).text []))
        (dotted segments ++ [.leftParen, .rightParen]) 1
  | call {segments args p n} : segments ≠ [] → Derives (.arguments args) p n →
      Derives (.expr .primary (.call (Path.ofSegments segments).text args))
        (dotted segments ++ .leftParen :: (p ++ [.rightParen])) (n + 1)
  | argument {e p n} : Derives (.expr .or e) p n → Derives (.arguments [e]) p n
  | comma {args e p q m n} : Derives (.arguments args) p m → Derives (.expr .or e) q n →
      Derives (.arguments (args ++ [e])) (p ++ .comma :: q) (max m n)

/-! ## Paths -/

theorem dotted_singleton (s : String) : dotted [s] = [.ident s] := rfl

theorem dotted_cons (s : String) (segments : List String) (h : segments ≠ []) :
    dotted (s :: segments) = .ident s :: .dot :: dotted segments := by
  obtain ⟨x, xs, rfl⟩ := List.exists_cons_of_ne_nil h
  rfl

theorem dotted_append (segments : List String) (s : String) (h : segments ≠ []) :
    dotted (segments ++ [s]) = dotted segments ++ [.dot, .ident s] := by
  induction segments with
  | nil => exact absurd rfl h
  | cons x xs ih =>
    by_cases hxs : xs = []
    · subst hxs
      rfl
    · rw [List.cons_append, dotted_cons _ _ (by simp), ih hxs, dotted_cons _ _ hxs]
      rfl

theorem dotted_ne_nil (segments : List String) (h : segments ≠ []) : dotted segments ≠ [] := by
  obtain ⟨x, xs, rfl⟩ := List.exists_cons_of_ne_nil h
  cases xs with
  | nil => simp [dotted_singleton]
  | cons y ys => simp [dotted_cons]

theorem mem_dotted (segments : List String) (k : Kind) (h : k ∈ dotted segments) :
    k = .dot ∨ ∃ s ∈ segments, k = .ident s := by
  induction segments with
  | nil => simp [dotted] at h
  | cons x xs ih =>
    by_cases hxs : xs = []
    · subst hxs
      rw [dotted_singleton, List.mem_singleton] at h
      exact Or.inr ⟨x, by simp, h⟩
    · rw [dotted_cons _ _ hxs, List.mem_cons, List.mem_cons] at h
      rcases h with rfl | rfl | h
      · exact Or.inr ⟨x, by simp, rfl⟩
      · exact Or.inl rfl
      · rcases ih h with rfl | ⟨s, hs, rfl⟩
        · exact Or.inl rfl
        · exact Or.inr ⟨s, by simp [hs], rfl⟩

theorem ident_mem_dotted (segments : List String) (s : String) (h : s ∈ segments) :
    .ident s ∈ dotted segments := by
  induction segments with
  | nil => simp at h
  | cons x xs ih =>
    by_cases hxs : xs = []
    · subst hxs
      rw [List.mem_singleton.1 h, dotted_singleton]
      simp
    · rw [dotted_cons _ _ hxs]
      rcases List.mem_cons.1 h with rfl | h
      · simp
      · simp [ih h]

/-! ## Levels -/

theorem Derives.loosen {l l' : Level} {e : Expr} {p : List Kind} {n : Nat}
    (h : Derives (.expr l e) p n) (hl : l'.rank ≤ l.rank) : Derives (.expr l' e) p n := by
  -- One step down from the level, and then as many as it takes.
  cases l with
  | or =>
    cases l' <;> simp [Level.rank] at hl
    exact h
  | and =>
    cases l' <;> simp [Level.rank] at hl
    · exact h.or_and
    · exact h
  | not =>
    cases l' <;> simp [Level.rank] at hl
    · exact h.and_not.or_and
    · exact h.and_not
    · exact h
  | comparison =>
    cases l' <;> simp [Level.rank] at hl
    · exact h.not_comparison.and_not.or_and
    · exact h.not_comparison.and_not
    · exact h.not_comparison
    · exact h
  | primary =>
    cases l' <;> simp [Level.rank] at hl
    · exact h.comparison_primary.not_comparison.and_not.or_and
    · exact h.comparison_primary.not_comparison.and_not
    · exact h.comparison_primary.not_comparison
    · exact h.comparison_primary
    · exact h

theorem Derives.of_primary {e : Expr} {p : List Kind} {n : Nat}
    (h : Derives (.expr .primary e) p n) (l : Level) : Derives (.expr l e) p n := by
  apply h.loosen
  cases l <;> decide

/-! ## The end of input -/

theorem Derives.not_mem_endOfInput {phrase : Phrase} {p : List Kind} {n : Nat}
    (h : Derives phrase p n) : .endOfInput ∉ p := by
  have hdotted : ∀ segments, .endOfInput ∉ dotted segments := by
    intro segments hmem
    rcases mem_dotted _ _ hmem with h | ⟨s, -, h⟩ <;> cases h
  induction h <;> simp_all

theorem Derives.ne_nil {phrase : Phrase} {p : List Kind} {n : Nat} (h : Derives phrase p n) :
    p ≠ [] := by
  induction h <;> simp_all [dotted_ne_nil]

end Promotions.Grammar
