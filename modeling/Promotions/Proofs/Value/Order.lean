import Mathlib.Data.List.Forall2
import Promotions.Proofs.Decimal.Order
import Promotions.Value.Compare

/-!
# One order of values

Values of different kinds do not compare. Two numbers or two strings stand in one order to each
other, and each sign tells what it tells of that order. Truth values and lists are equal or not.
Values are equal if they have the same content, in which a number is its value and not its digits.
-/

namespace Promotions

/-! ## Signs -/

namespace Comparator

/-- The sign that holds exactly where this one does not. -/
def complement : Comparator → Comparator
  | eq => ne
  | ne => eq
  | gt => le
  | ge => lt
  | lt => ge
  | le => gt

/-- The sign that says the same with the two sides exchanged. -/
def converse : Comparator → Comparator
  | eq => eq
  | ne => ne
  | gt => lt
  | ge => le
  | lt => gt
  | le => ge

theorem holds_complement (op : Comparator) (o : Ordering) :
    op.complement.holds o = !op.holds o := by
  cases op <;> cases o <;> rfl

theorem holds_converse (op : Comparator) (o : Ordering) :
    op.converse.holds o.swap = op.holds o := by
  cases op <;> cases o <;> rfl

theorem existsUnique_holds (o : Ordering) :
    ∃! op : Comparator, (op = lt ∨ op = eq ∨ op = gt) ∧ op.holds o := by
  cases o
  · exact ⟨lt, by simp [holds], by rintro op ⟨rfl | rfl | rfl, h⟩ <;> simp [holds] at h ⊢⟩
  · exact ⟨eq, by simp [holds], by rintro op ⟨rfl | rfl | rfl, h⟩ <;> simp [holds] at h ⊢⟩
  · exact ⟨gt, by simp [holds], by rintro op ⟨rfl | rfl | rfl, h⟩ <;> simp [holds] at h ⊢⟩

/-- The four signs that need an order. -/
def isOrder : Comparator → Bool
  | gt | ge | lt | le => true
  | eq | ne => false

theorem isOrder_complement (op : Comparator) : op.complement.isOrder = op.isOrder := by
  cases op <;> rfl

theorem isOrder_or (op : Comparator) : op.isOrder ∨ op = eq ∨ op = ne := by
  cases op <;> simp [isOrder]

end Comparator

namespace Value

/-! ## Content -/

/-- What a value is, apart from how its numbers are written. -/
inductive Content where
  | bool (b : Bool)
  | number (q : ℚ)
  | string (s : String)
  | list (items : List Content)

mutual

def content : Value → Content
  | bool b => .bool b
  | number n => .number n.toRat
  | string s => .string s
  | list items => .list (contents items)

def contents : List Value → List Content
  | [] => []
  | item :: items => item.content :: contents items

end

mutual

theorem same_iff (a b : Value) : a.same b ↔ a.content = b.content := by
  cases a <;> cases b <;> simp only [same, content, Content.bool.injEq, Content.number.injEq,
    Content.string.injEq, Content.list.injEq, reduceCtorEq, Bool.false_eq_true, beq_iff_eq]
  case number.number m n => exact Decimal.same_iff m n
  case list.list xs ys => exact sameItems_iff xs ys

theorem sameItems_iff (xs ys : List Value) : sameItems xs ys ↔ contents xs = contents ys := by
  cases xs with
  | nil => cases ys <;> simp [sameItems, contents]
  | cons x xs =>
    cases ys with
    | nil => simp [sameItems, contents]
    | cons y ys => simp [sameItems, contents, same_iff x y, sameItems_iff xs ys]

end

theorem same_comm (a b : Value) : a.same b = b.same a := by
  rw [Bool.eq_iff_iff, same_iff, same_iff, eq_comm]

/-! ## The ways to compare -/

theorem compare_of_kind_ne {a b : Value} (h : a.kind ≠ b.kind) (op : Comparator) :
    a.compare op b = .error (.typeMismatch op.sign [a.kind] b.kind) := by
  unfold compare
  exact if_pos h

theorem compare_number (op : Comparator) (m n : Decimal) :
    (number m).compare op (number n) = .ok (op.holds (Ord.compare m n)) := rfl

theorem compare_string (op : Comparator) (s t : String) :
    (string s).compare op (string t) = .ok (op.holds (Ord.compare s t)) := rfl

/-- What two values answer to all signs at once. -/
inductive Compared (a b : Value) : Prop where
  | apart : a.kind ≠ b.kind →
      (∀ op, a.compare op b = .error (.typeMismatch op.sign [a.kind] b.kind)) → Compared a b
  /-- They stand in the order `o`, and every sign is about it. -/
  | ordered (o : Ordering) : a.kind = b.kind → a.kind = .number ∨ a.kind = .string →
      (∀ op, a.compare op b = .ok (op.holds o)) → Compared a b
  | unordered : a.kind = b.kind → a.kind = .bool ∨ a.kind = .list →
      a.compare .eq b = .ok (a.same b) → a.compare .ne b = .ok (!a.same b) →
      (∀ op : Comparator, op.isOrder →
        a.compare op b = .error (.typeMismatch op.sign [.number, .string] a.kind)) → Compared a b

theorem compared (a b : Value) : Compared a b := by
  by_cases hkind : a.kind = b.kind
  · cases a <;> cases b <;> simp only [kind, reduceCtorEq] at hkind
    case number.number m n => exact .ordered (Ord.compare m n) rfl (.inl rfl) fun _ => rfl
    case string.string s t => exact .ordered (Ord.compare s t) rfl (.inr rfl) fun _ => rfl
    case bool.bool x y | list.list x y =>
      refine .unordered rfl (by simp [kind]) rfl rfl fun op hop => ?_
      cases op <;> first | rfl | cases hop
  · exact .apart hkind (compare_of_kind_ne hkind)

theorem compare_eq_error_iff (op : Comparator) (a b : Value) (e : EvalError) :
    a.compare op b = .error e ↔
      (a.kind ≠ b.kind ∧ e = .typeMismatch op.sign [a.kind] b.kind) ∨
      (a.kind = b.kind ∧ (a.kind = .bool ∨ a.kind = .list) ∧ op.isOrder ∧
        e = .typeMismatch op.sign [.number, .string] a.kind) := by
  cases compared a b with
  | apart hkind hcompare =>
    rw [hcompare, Except.error.injEq]
    constructor
    · exact fun h => .inl ⟨hkind, h.symm⟩
    · rintro (⟨-, rfl⟩ | ⟨h, -⟩)
      · rfl
      · exact absurd h hkind
  | ordered o hkind hkinds hcompare =>
    have hordered : ¬(a.kind = .bool ∨ a.kind = .list) := by
      rcases hkinds with h | h <;> simp [h]
    simp [hcompare, hkind, hkind ▸ hordered]
  | unordered hkind hkinds heq hne horder =>
    rcases op.isOrder_or with hop | rfl | rfl
    · rw [horder op hop, Except.error.injEq]
      constructor
      · exact fun h => .inr ⟨hkind, hkinds, hop, h.symm⟩
      · rintro (⟨h, -⟩ | ⟨-, -, -, rfl⟩)
        · exact absurd hkind h
        · rfl
    · simp [heq, hkind, Comparator.isOrder]
    · simp [hne, hkind, Comparator.isOrder]

theorem compare_complement_iff (op : Comparator) (a b : Value) (x : Bool) :
    a.compare op b = .ok x ↔ a.compare op.complement b = .ok !x := by
  cases compared a b with
  | apart hkind hcompare => simp [hcompare]
  | ordered o hkind hkinds hcompare => simp [hcompare, Comparator.holds_complement]
  | unordered hkind hkinds heq hne horder =>
    rcases op.isOrder_or with hop | rfl | rfl
    · rw [horder op hop, horder op.complement (op.isOrder_complement ▸ hop)]
      simp
    · simp [Comparator.complement, heq, hne]
    · simp [Comparator.complement, heq, hne]

theorem compare_converse_iff (op : Comparator) (a b : Value) (x : Bool) :
    a.compare op b = .ok x ↔ b.compare op.converse a = .ok x := by
  by_cases hkind : a.kind = b.kind
  · cases a <;> cases b <;> simp only [kind, reduceCtorEq] at hkind
    case number.number m n =>
      rw [compare_number, compare_number, Decimal.compare_swap m n, Comparator.holds_converse]
    case string.string s t =>
      rw [compare_string, compare_string, Std.OrientedOrd.eq_swap (a := t),
        Comparator.holds_converse]
    case bool.bool x y | list.list x y =>
      cases op <;> simp [compare, kind, Comparator.converse, same_comm]
  · rw [compare_of_kind_ne hkind, compare_of_kind_ne (Ne.symm hkind)]
    simp

/-! ## Equal values -/

theorem compare_eq_number (m n : Decimal) :
    (number m).compare .eq (number n) = .ok (decide (m.toRat = n.toRat)) := by
  rw [compare_number, Comparator.holds, Except.ok.injEq, Bool.eq_iff_iff, beq_iff_eq,
    decide_eq_true_iff, Decimal.compare_eq_eq_iff]

theorem compare_eq_string (s t : String) :
    (string s).compare .eq (string t) = .ok (decide (s = t)) := by
  rw [compare_string, Comparator.holds, Except.ok.injEq, Bool.eq_iff_iff, beq_iff_eq,
    decide_eq_true_iff, Std.compare_eq_iff_eq]

theorem compare_eq_iff (a b : Value) :
    a.compare .eq b = .ok true ↔ a.content = b.content := by
  rw [← same_iff]
  cases a <;> cases b
  case number.number m n =>
    rw [compare_eq_number, same, Decimal.same_iff, Except.ok.injEq, decide_eq_true_iff]
  case string.string s t =>
    rw [compare_eq_string, same, beq_iff_eq, Except.ok.injEq, decide_eq_true_iff]
  all_goals simp [compare, kind, same]

theorem contents_eq_iff (xs ys : List Value) :
    contents xs = contents ys ↔ List.Forall₂ (fun x y => x.content = y.content) xs ys := by
  induction xs generalizing ys with
  | nil => cases ys <;> simp [contents]
  | cons x xs ih => cases ys <;> simp [contents, ih]

theorem compare_eq_list_iff (xs ys : List Value) :
    (list xs).compare .eq (list ys) = .ok true ↔
      List.Forall₂ (fun x y => x.compare .eq y = .ok true) xs ys := by
  simp only [compare_eq_iff, content, Content.list.injEq, contents_eq_iff]

theorem compare_eq_equivalence : Equivalence fun a b : Value => a.compare .eq b = .ok true := by
  simp only [compare_eq_iff]
  exact ⟨fun _ => rfl, Eq.symm, Eq.trans⟩

/-! ## Smaller values -/

/-- The numbers of the characters, by which strings are ordered. -/
def codePoints (s : String) : List Nat := s.toList.map Char.toNat

theorem lt_iff_codePoints_lt (s t : String) : s < t ↔ codePoints s < codePoints t := by
  have hlists : ∀ cs ds : List Char, cs < ds ↔ cs.map Char.toNat < ds.map Char.toNat := by
    intro cs
    induction cs with
    | nil => intro ds; cases ds <;> simp
    | cons c cs ih =>
      intro ds
      cases ds with
      | nil => simp
      | cons d ds =>
        rw [List.map_cons, List.map_cons, List.cons_lt_cons_iff, List.cons_lt_cons_iff, ih,
          Char.toNat_inj]
        rfl
  rw [String.lt_iff]
  exact hlists s.toList t.toList

theorem compare_lt_number (m n : Decimal) :
    (number m).compare .lt (number n) = .ok (decide (m.toRat < n.toRat)) := by
  rw [compare_number, Comparator.holds, Except.ok.injEq, Bool.eq_iff_iff, beq_iff_eq,
    decide_eq_true_iff, Decimal.compare_eq_lt_iff]

theorem compare_lt_string (s t : String) :
    (string s).compare .lt (string t) = .ok (decide (codePoints s < codePoints t)) := by
  rw [compare_string, Comparator.holds, Except.ok.injEq, Bool.eq_iff_iff, beq_iff_eq,
    decide_eq_true_iff, ← lt_iff_codePoints_lt]
  exact compareOfLessAndEq_eq_lt

theorem exists_of_compare_lt {a b : Value} (h : a.compare .lt b = .ok true) :
    (∃ m n, a = number m ∧ b = number n ∧ m.toRat < n.toRat) ∨
      ∃ s t, a = string s ∧ b = string t ∧ codePoints s < codePoints t := by
  cases compared a b with
  | apart hkind hcompare => simp [hcompare] at h
  | unordered hkind hkinds heq hne horder => simp [horder .lt rfl] at h
  | ordered o hkind hkinds hcompare =>
    cases a <;> cases b <;> simp only [kind, reduceCtorEq, or_self] at hkind hkinds
    case number.number m n =>
      rw [compare_lt_number, Except.ok.injEq, decide_eq_true_iff] at h
      exact .inl ⟨m, n, rfl, rfl, h⟩
    case string.string s t =>
      rw [compare_lt_string, Except.ok.injEq, decide_eq_true_iff] at h
      exact .inr ⟨s, t, rfl, rfl, h⟩

theorem compare_lt_trans {a b c : Value} (hab : a.compare .lt b = .ok true)
    (hbc : b.compare .lt c = .ok true) : a.compare .lt c = .ok true := by
  rcases exists_of_compare_lt hab with ⟨l, m, rfl, rfl, hlm⟩ | ⟨s, t, rfl, rfl, hst⟩
  · obtain ⟨m', n, hm, rfl, hmn⟩ | ⟨t, u, ht, -⟩ := exists_of_compare_lt hbc
    · cases hm
      rw [compare_lt_number, decide_eq_true (hlm.trans hmn)]
    · cases ht
  · obtain ⟨m, n, hm, -⟩ | ⟨t', u, ht, rfl, htu⟩ := exists_of_compare_lt hbc
    · cases hm
    · cases ht
      rw [compare_lt_string, decide_eq_true (List.lt_trans hst htu)]

theorem existsUnique_compare {a b : Value} (hkind : a.kind = b.kind)
    (h : a.kind = .number ∨ a.kind = .string) :
    ∃! op, (op = .lt ∨ op = .eq ∨ op = .gt) ∧ a.compare op b = .ok true := by
  cases compared a b with
  | apart hne => exact absurd hkind hne
  | unordered _ hkinds => rcases h with h | h <;> simp [h] at hkinds
  | ordered o _ _ hcompare =>
    simp only [hcompare, Except.ok.injEq]
    exact Comparator.existsUnique_holds o

/-! ## All signs together -/

/-- Which comparisons have an answer, and how the answers to the six signs hang together: there is
one order of numbers, by value, one of strings, by code point, and one equality of all values. -/
theorem comparisons_agree :
    (∀ (op : Comparator) (a b : Value) (e : EvalError), a.compare op b = .error e ↔
      (a.kind ≠ b.kind ∧ e = .typeMismatch op.sign [a.kind] b.kind) ∨
      (a.kind = b.kind ∧ (a.kind = .bool ∨ a.kind = .list) ∧ op.isOrder ∧
        e = .typeMismatch op.sign [.number, .string] a.kind)) ∧
    (∀ (op : Comparator) (a b : Value) (x : Bool),
      a.compare op b = .ok x ↔ a.compare op.complement b = .ok !x) ∧
    (∀ (op : Comparator) (a b : Value) (x : Bool),
      a.compare op b = .ok x ↔ b.compare op.converse a = .ok x) ∧
    (∀ a b : Value, a.kind = b.kind → a.kind = .number ∨ a.kind = .string →
      ∃! op, (op = .lt ∨ op = .eq ∨ op = .gt) ∧ a.compare op b = .ok true) ∧
    (∀ a b c : Value, a.compare .lt b = .ok true → b.compare .lt c = .ok true →
      a.compare .lt c = .ok true) ∧
    (∀ m n : Decimal,
      (number m).compare .lt (number n) = .ok (decide (m.toRat < n.toRat)) ∧
      (number m).compare .eq (number n) = .ok (decide (m.toRat = n.toRat))) ∧
    (∀ s t : String,
      (string s).compare .lt (string t) = .ok (decide (codePoints s < codePoints t)) ∧
      (string s).compare .eq (string t) = .ok (decide (s = t))) ∧
    (∀ a b : Value, a.compare .eq b = .ok true ↔ a.content = b.content) ∧
    Equivalence (fun a b : Value => a.compare .eq b = .ok true) ∧
    ∀ xs ys : List Value,
      (∃ x, (list xs).compare .eq (list ys) = .ok x) ∧
      ((list xs).compare .eq (list ys) = .ok true ↔
        List.Forall₂ (fun x y => x.compare .eq y = .ok true) xs ys) := by
  exact ⟨compare_eq_error_iff, compare_complement_iff, compare_converse_iff,
    fun a b => existsUnique_compare, fun a b c => compare_lt_trans,
    fun m n => ⟨compare_lt_number m n, compare_eq_number m n⟩,
    fun s t => ⟨compare_lt_string s t, compare_eq_string s t⟩, compare_eq_iff,
    compare_eq_equivalence, fun xs ys => ⟨⟨_, rfl⟩, compare_eq_list_iff xs ys⟩⟩

/-- Three prices of three scales in a row. -/
theorem comparisons_agree_prices :
    let low := number (.ofCoeff 5990 2 (by decide) (by decide))
    let middle := number (.ofCoeff 60 0 (by decide) (by decide))
    let high := number (.ofCoeff 605 1 (by decide) (by decide))
    (low.compare .lt middle = .ok true ∧ middle.compare .lt high = .ok true ∧
      low.compare .lt high = .ok true) ∧
    ∃! op, (op = .lt ∨ op = .eq ∨ op = .gt) ∧ high.compare op low = .ok true := by
  intro low middle high
  obtain ⟨-, -, -, hone, htrans, -⟩ := comparisons_agree
  have hlow : low.compare .lt middle = .ok true := rfl
  have hhigh : middle.compare .lt high = .ok true := rfl
  exact ⟨⟨hlow, hhigh, htrans low middle high hlow hhigh⟩, hone high low rfl (.inl rfl)⟩

end Value

end Promotions
