import Mathlib.Data.List.Infix
import Promotions.Expr.Evaluate
import Promotions.Proofs.Decimal.Fitted
import Promotions.Proofs.Value.Order

/-!
# What the built-in callables answer

A text is found in another one if the other one is made of it and what stands around it, and a list
has an item if one of its items has the same content. Lengths add up. With a number of arguments
other than its arity, a body answers the error that the evaluator gives without calling it, and with
the right number it never does.
-/

namespace Promotions

/-! ## Parts of a text -/

namespace Text

theorem occursIn_iff (part s : List Char) : occursIn part s ↔ part <:+: s := by
  induction s with
  | nil => rw [occursIn, List.isEmpty_iff, List.infix_nil]
  | cons c cs ih =>
    rw [occursIn, Bool.or_eq_true, List.isPrefixOf_iff_prefix, ih, List.infix_cons_iff]

theorem toList_surjective : Function.Surjective String.toList :=
  fun cs => ⟨String.ofList cs, String.toList_ofList⟩

theorem toList_infix_iff (s t : String) : t.toList <:+: s.toList ↔ ∃ u v, s = u ++ t ++ v := by
  simp only [List.IsInfix, toList_surjective.exists, ← String.toList_append, String.toList_inj,
    @eq_comm _ s]

theorem toList_prefix_iff (s t : String) : t.toList <+: s.toList ↔ ∃ v, s = t ++ v := by
  simp only [List.IsPrefix, toList_surjective.exists, ← String.toList_append, String.toList_inj,
    @eq_comm _ s]

theorem toList_suffix_iff (s t : String) : t.toList <:+ s.toList ↔ ∃ u, s = u ++ t := by
  simp only [List.IsSuffix, toList_surjective.exists, ← String.toList_append, String.toList_inj,
    @eq_comm _ s]

end Text

/-! ## Counts -/

namespace Decimal

/-- The number is the count `n`, or the greatest decimal where `n` has no room. No text and no list
that fits in memory goes that far. -/
def IsCount (x : Decimal) (n : Nat) : Prop := x.toRat = min (n : ℚ) (2 ^ 96 - 1)

theorem cast_le_of_lt {n : Nat} (h : n < 2 ^ 96) : (n : ℚ) ≤ 2 ^ 96 - 1 := by
  have hsucc : ((n + 1 : Nat) : ℚ) ≤ ((2 ^ 96 : Nat) : ℚ) := Nat.cast_le.2 h
  push_cast at hsucc
  linarith

theorem isCount_ofCount (n : Nat) : (ofCount n).IsCount n := by
  unfold IsCount ofCount ofInt?
  by_cases h : (n : Int).natAbs < twoPow 96
  · have hlt : n < 2 ^ 96 := by rwa [Int.natAbs_natCast, twoPow_96] at h
    rw [dif_pos h, Option.getD_some, min_eq_left (cast_le_of_lt hlt)]
    change ((n : Int) : ℚ) / 10 ^ 0 = n
    simp
  · have hle : ((2 ^ 96 : Nat) : ℚ) ≤ n := by
      rw [Int.natAbs_natCast, twoPow_96, not_lt] at h
      exact Nat.cast_le.2 h
    push_cast at hle
    rw [dif_neg h, Option.getD_none, toRat_greatest, min_eq_right (by linarith)]

variable {x y z : Decimal} {m n : Nat}

theorem IsCount.eq_of_lt (h : x.IsCount n) (hn : n < 2 ^ 96) : x.toRat = n := by
  rw [h, min_eq_left (cast_le_of_lt hn)]

theorem IsCount.add (hx : x.IsCount m) (hy : y.IsCount n) (hz : z.IsCount (m + n)) :
    z.toRat = min (x.toRat + y.toRat) (2 ^ 96 - 1) := by
  have hm : (0 : ℚ) ≤ m := m.cast_nonneg
  have hn : (0 : ℚ) ≤ n := n.cast_nonneg
  rw [hx, hy, hz]
  push_cast
  -- A part without room leaves none for the whole.
  grind

end Decimal

namespace Callable

/-! ## The number of arguments -/

/-- The body called `name` refuses every number of arguments but its arity, and has no such
complaint about that one. -/
structure KeepsArity (name : String) (f : Callable) : Prop where
  refuses {args : List Value} (h : args.length ≠ f.arity) :
    f.run args = .error (.wrongArgCount name f.arity args.length)
  takes {args : List Value} (h : args.length = f.arity) (function : String) (arity found : Nat) :
    f.run args ≠ .error (.wrongArgCount function arity found)

theorem KeepsArity.wrongArgCount_iff {name : String} {f : Callable} (h : KeepsArity name f)
    (args : List Value) :
    (∃ function arity found, f.run args = .error (.wrongArgCount function arity found)) ↔
      args.length ≠ f.arity := by
  constructor
  · rintro ⟨function, arity, found, herror⟩ hlength
    exact h.takes hlength function arity found herror
  · exact fun hlength => ⟨_, _, _, h.refuses hlength⟩

theorem keepsArity_contains : KeepsArity "contains" ⟨2, contains⟩ where
  refuses {args} h := by
    change contains args = _
    unfold contains
    split
    case h_5 => rfl
    all_goals exact absurd rfl h
  takes {args} h function arity found := by
    obtain ⟨whole, part, rfl⟩ := List.length_eq_two.1 h
    change contains [whole, part] ≠ _
    cases whole <;> cases part <;> simp [contains]

theorem keepsArity_length : KeepsArity "length" ⟨1, length⟩ where
  refuses {args} h := by
    change length args = _
    unfold length
    split
    case h_4 => rfl
    all_goals exact absurd rfl h
  takes {args} h function arity found := by
    obtain ⟨v, rfl⟩ := List.length_eq_one_iff.1 h
    change length [v] ≠ _
    cases v <;> simp [length]

theorem keepsArity_ofTexts (name : String) (test : List Char → List Char → Bool) :
    KeepsArity name ⟨2, ofTexts name test⟩ where
  refuses {args} h := by
    change ofTexts name test args = _
    unfold ofTexts
    split
    case h_4 => rfl
    all_goals exact absurd rfl h
  takes {args} h function arity found := by
    obtain ⟨s, t, rfl⟩ := List.length_eq_two.1 h
    change ofTexts name test [s, t] ≠ _
    cases s <;> cases t <;> simp [ofTexts]

theorem keepsArity_of_builtin? {name : String} {f : Callable} (h : builtin? name = some f) :
    KeepsArity name f := by
  have hrows : ∀ row ∈ builtins, KeepsArity row.1 row.2 := by
    simp only [builtins, List.forall_mem_cons, List.not_mem_nil, false_implies, implies_true,
      and_true]
    exact ⟨keepsArity_contains, keepsArity_length, keepsArity_ofTexts _ _, keepsArity_ofTexts _ _⟩
  obtain ⟨before, after, hbuiltins, -⟩ := List.lookup_eq_some_iff.1 h
  exact hrows (name, f) (by simp [hbuiltins])

theorem evaluate_call_of_length_ne {r : Resolver} {name : String} {f : Callable} {es : List Expr}
    (hf : r.callable? name = some f) (h : es.length ≠ f.arity) :
    (Expr.call name es).evaluate r = .error (.wrongArgCount name f.arity es.length) := by
  rw [Expr.evaluate, hf]
  exact if_neg h

/-! ## Direct calls -/

/-- The built-in callable `name` answers to these arguments with `result`. -/
def Answers (name : String) (args : List Value) (result : Except EvalError Value) : Prop :=
  ∃ f, builtin? name = some f ∧ f.run args = result

/-- The built-in callable `name` tells of these arguments whether `p` holds. -/
def Tells (name : String) (args : List Value) (p : Prop) : Prop :=
  ∃ b : Bool, Answers name args (.ok (.bool b)) ∧ (b ↔ p)

theorem tells_containsText (s t : String) :
    Tells "contains" [.string s, .string t] (∃ u v, s = u ++ t ++ v) := by
  refine ⟨Text.occursIn t.toList s.toList, ⟨_, rfl, rfl⟩, ?_⟩
  rw [Text.occursIn_iff, Text.toList_infix_iff]

theorem tells_startsWith (s t : String) :
    Tells "starts_with" [.string s, .string t] (∃ v, s = t ++ v) := by
  refine ⟨t.toList.isPrefixOf s.toList, ⟨_, rfl, rfl⟩, ?_⟩
  rw [List.isPrefixOf_iff_prefix, Text.toList_prefix_iff]

theorem tells_endsWith (s t : String) :
    Tells "ends_with" [.string s, .string t] (∃ u, s = u ++ t) := by
  refine ⟨t.toList.isSuffixOf s.toList, ⟨_, rfl, rfl⟩, ?_⟩
  rw [List.isSuffixOf_iff_suffix, Text.toList_suffix_iff]

theorem tells_containsItem (items : List Value) (v : Value) :
    Tells "contains" [.list items, v] (∃ item ∈ items, item.content = v.content) := by
  refine ⟨items.any (·.same v), ⟨_, rfl, rfl⟩, ?_⟩
  simp only [List.any_eq_true, Value.same_iff]

theorem exists_length_append (s t : String) : ∃ m n sum : Decimal,
    Answers "length" [.string s] (.ok (.number m)) ∧ m.IsCount s.length ∧
    Answers "length" [.string t] (.ok (.number n)) ∧ n.IsCount t.length ∧
    Answers "length" [.string (s ++ t)] (.ok (.number sum)) ∧
    sum.toRat = min (m.toRat + n.toRat) (2 ^ 96 - 1) ∧
    ((s ++ t).length < 2 ^ 96 → sum.toRat = m.toRat + n.toRat) := by
  have hs := Decimal.isCount_ofCount s.length
  have ht := Decimal.isCount_ofCount t.length
  have hsum := Decimal.isCount_ofCount (s ++ t).length
  refine ⟨_, _, _, ⟨_, rfl, rfl⟩, hs, ⟨_, rfl, rfl⟩, ht, ⟨_, rfl, rfl⟩, ?_, fun hroom => ?_⟩
  · rw [String.length_append] at hsum ⊢
    exact hs.add ht hsum
  · rw [hsum.eq_of_lt hroom]
    rw [String.length_append] at hroom ⊢
    rw [hs.eq_of_lt (by omega), ht.eq_of_lt (by omega), Nat.cast_add]

/-- The built-in callables search and count as their names say, and each of them refuses a wrong
number of arguments as the evaluator does, with the same error. -/
theorem builtins_search_and_count :
    (∀ s t : String,
      Tells "contains" [.string s, .string t] (∃ u v, s = u ++ t ++ v) ∧
      Tells "starts_with" [.string s, .string t] (∃ v, s = t ++ v) ∧
      Tells "ends_with" [.string s, .string t] (∃ u, s = u ++ t)) ∧
    (∀ s t : String, ∃ m n sum : Decimal,
      Answers "length" [.string s] (.ok (.number m)) ∧ m.IsCount s.length ∧
      Answers "length" [.string t] (.ok (.number n)) ∧ n.IsCount t.length ∧
      Answers "length" [.string (s ++ t)] (.ok (.number sum)) ∧
      sum.toRat = min (m.toRat + n.toRat) (2 ^ 96 - 1) ∧
      ((s ++ t).length < 2 ^ 96 → sum.toRat = m.toRat + n.toRat)) ∧
    (∀ (items : List Value) (v : Value),
      Tells "contains" [.list items, v] (∃ item ∈ items, item.content = v.content) ∧
      ∃ n : Decimal, Answers "length" [.list items] (.ok (.number n)) ∧ n.IsCount items.length) ∧
    ∀ (name : String) (f : Callable), builtin? name = some f → ∀ args : List Value,
      ((∃ function arity found, f.run args = .error (.wrongArgCount function arity found)) ↔
        args.length ≠ f.arity) ∧
      (args.length ≠ f.arity →
        f.run args = .error (.wrongArgCount name f.arity args.length) ∧
        ∀ (r : Resolver) (es : List Expr), r.callable? name = some f → es.length = args.length →
          (Expr.call name es).evaluate r = f.run args) := by
  refine ⟨fun s t => ⟨tells_containsText s t, tells_startsWith s t, tells_endsWith s t⟩,
    exists_length_append, fun items v => ?_, fun name f hf args => ?_⟩
  · exact ⟨tells_containsItem items v, _, ⟨_, rfl, rfl⟩, Decimal.isCount_ofCount items.length⟩
  · have hkeeps := keepsArity_of_builtin? hf
    refine ⟨hkeeps.wrongArgCount_iff args, fun hlength => ⟨hkeeps.refuses hlength, ?_⟩⟩
    intro r es hr hes
    rw [hkeeps.refuses hlength, evaluate_call_of_length_ne hr (hes ▸ hlength), hes]

/-- A part that begins again inside of what looked like it, the length of two parts together, and a
call with an argument too few, whose variable nobody looks up. -/
theorem builtins_search_and_count_ananas :
    Answers "contains" [.string "ananas", .string "anas"] (.ok (.bool true)) ∧
    (∃ m n sum : Decimal, Answers "length" [.string "an"] (.ok (.number m)) ∧
      Answers "length" [.string "anas"] (.ok (.number n)) ∧
      Answers "length" [.string "ananas"] (.ok (.number sum)) ∧ sum.toRat = m.toRat + n.toRat) ∧
    builtin? "contains" = some ⟨2, contains⟩ ∧
    contains [.string "ananas"] = .error (.wrongArgCount "contains" 2 1) ∧
    (Expr.call "contains" [.var ⟨"fruit"⟩]).evaluate Context.empty.resolver =
      contains [.string "ananas"] := by
  obtain ⟨htexts, hlengths, -, harity⟩ := builtins_search_and_count
  obtain ⟨b, hanswer, hb⟩ := (htexts "ananas" "anas").1
  obtain rfl : b = true := hb.2 ⟨"an", "", by decide⟩
  obtain ⟨m, n, sum, hm, -, hn, -, hsum, -, hexact⟩ := hlengths "an" "anas"
  have happend : "an" ++ "anas" = "ananas" := by decide
  rw [happend] at hsum hexact
  have hbuiltin : builtin? "contains" = some ⟨2, contains⟩ := rfl
  have hne : [Value.string "ananas"].length ≠ 2 := by decide
  obtain ⟨hrefused, hsame⟩ := (harity _ _ hbuiltin _).2 hne
  exact ⟨hanswer, ⟨m, n, sum, hm, hn, hsum, hexact (by decide)⟩, hbuiltin, hrefused,
    hsame _ [.var ⟨"fruit"⟩] rfl rfl⟩

end Callable

end Promotions
