import Promotions.Expr.Evaluate
import Promotions.Proofs.Expr.Kinds
import Promotions.Proofs.Value.Order

/-!
# The laws of logic

An operand of `and`, `or` and `not` does one of three things: it fails, it has a truth value, or it
has another value, which is an error of the operation. The laws of logic hold for all of them. A
law with one operation on the left and another one on the right holds but for the name of the
operation in a type mismatch.
-/

namespace Promotions

/-! ## Results but for the operation -/

/-- The error without the operation that found a type mismatch. -/
def EvalError.unnamed : EvalError → EvalError
  | typeMismatch _ expected found => typeMismatch "" expected found
  | e => e

/-- The same result. Only the operation named in a type mismatch may differ. -/
def Alike {α : Type} (x y : Except EvalError α) : Prop :=
  x.mapError EvalError.unnamed = y.mapError EvalError.unnamed

theorem Alike.refl {α : Type} (x : Except EvalError α) : Alike x x := rfl

theorem Alike.map {α β : Type} {x y : Except EvalError α} (h : Alike x y) (f : α → β) :
    Alike (x.map f) (y.map f) := by
  cases x <;> cases y <;> simp_all [Alike, Except.map, Except.mapError]

theorem alike_error {α : Type} {e e' : EvalError} (h : e.unnamed = e'.unnamed) :
    Alike (α := α) (.error e) (.error e') :=
  congrArg Except.error h

theorem Value.alike_compare_complement (op : Comparator) (a b : Value) :
    Alike ((a.compare op b).map (!·)) (a.compare op.complement b) := by
  cases compared a b with
  | apart hkind hcompare =>
    rw [hcompare, hcompare]
    exact alike_error rfl
  | ordered o hkind hkinds hcompare =>
    rw [hcompare, hcompare, Comparator.holds_complement]
    exact .refl _
  | unordered hkind hkinds heq hne horder =>
    rcases op.isOrder_or with hop | rfl | rfl
    · rw [horder op hop, horder op.complement (op.isOrder_complement ▸ hop)]
      exact alike_error rfl
    · rw [heq, Comparator.complement, hne]
      exact .refl _
    · rw [hne, Comparator.complement, heq]
      exact congrArg _ (congrArg _ (Bool.not_not _))

namespace Expr

variable {r : Resolver}

/-! ## Operands -/

theorem truth_of_kind_ne {v : Value} (h : v.kind ≠ .bool) (operation : String) :
    v.truth operation = .error (.typeMismatch operation [.bool] v.kind) := by
  cases v with
  | bool b => exact absurd rfl h
  | number n | string s | list items => rfl

/-- The truth value that an operation takes `e` for. -/
def truthOf (r : Resolver) (operation : String) (e : Expr) : Except EvalError Bool := do
  (← e.evaluate r).truth operation

/-- An operand has one truth value for all operations, or fails in all of them alike. -/
inductive Operand (r : Resolver) (e : Expr) : Prop where
  | holds (x : Bool) : (∀ operation, truthOf r operation e = .ok x) → Operand r e
  | fails (error : String → EvalError) :
      (∀ operation, truthOf r operation e = .error (error operation)) →
      (∀ operation operation', (error operation).unnamed = (error operation').unnamed) →
      Operand r e

theorem operand (r : Resolver) (e : Expr) : Operand r e := by
  cases h : e.evaluate r with
  | error error =>
    refine .fails (fun _ => error) (fun operation => ?_) fun _ _ => rfl
    rw [truthOf, h]
    rfl
  | ok v =>
    by_cases hkind : v.kind = .bool
    · obtain ⟨x, rfl⟩ := Value.exists_bool_of_kind hkind
      refine .holds x fun operation => ?_
      rw [truthOf, h]
      rfl
    · refine .fails (fun operation => .typeMismatch operation [.bool] v.kind)
        (fun operation => ?_) fun _ _ => rfl
      rw [truthOf, h]
      exact truth_of_kind_ne hkind operation

theorem truthOf_of_evaluate {e : Expr} {x : Except EvalError Bool}
    (h : e.evaluate r = x.map .bool) (operation : String) : truthOf r operation e = x := by
  rw [truthOf, h]
  cases x <;> rfl

theorem evaluate_and (a b : Expr) :
    (a.and b).evaluate r =
      (do if ← truthOf r "and" a then truthOf r "and" b else .ok false).map .bool := by
  have hsteps : (a.and b).evaluate r = do
      if ← truthOf r "and" a then return .bool (← truthOf r "and" b) else return .bool false := by
    simp only [evaluate, truthOf, bind_assoc]
  rw [hsteps]
  cases truthOf r "and" a with
  | error error => rfl
  | ok x =>
    cases x with
    | false => rfl
    | true => cases truthOf r "and" b <;> rfl

theorem evaluate_or (a b : Expr) :
    (a.or b).evaluate r =
      (do if ← truthOf r "or" a then .ok true else truthOf r "or" b).map .bool := by
  have hsteps : (a.or b).evaluate r = do
      if ← truthOf r "or" a then return .bool true else return .bool (← truthOf r "or" b) := by
    simp only [evaluate, truthOf, bind_assoc]
  rw [hsteps]
  cases truthOf r "or" a with
  | error error => rfl
  | ok x =>
    cases x with
    | true => rfl
    | false => cases truthOf r "or" b <;> rfl

theorem evaluate_not (a : Expr) :
    a.not.evaluate r = ((truthOf r "not" a).map (!·)).map .bool := by
  have hsteps : a.not.evaluate r = do return .bool !(← truthOf r "not" a) := by
    simp only [evaluate, truthOf, bind_assoc]
  rw [hsteps]
  cases truthOf r "not" a <;> rfl

theorem evaluate_compare (op : Comparator) (a b : Expr) :
    (Expr.compare op a b).evaluate r =
      (do (← a.evaluate r).compare op (← b.evaluate r)).map .bool := by
  rw [evaluate]
  cases a.evaluate r with
  | error error => rfl
  | ok left =>
    cases b.evaluate r with
    | error error => rfl
    | ok right =>
      change (do return Value.bool (← left.compare op right)) = (left.compare op right).map .bool
      cases left.compare op right <;> rfl

/-! ## Chains -/

theorem evaluate_and_assoc (a b c : Expr) :
    ((a.and b).and c).evaluate r = (a.and (b.and c)).evaluate r := by
  rw [evaluate_and, evaluate_and, truthOf_of_evaluate (evaluate_and a b),
    truthOf_of_evaluate (evaluate_and b c)]
  cases truthOf r "and" a with
  | error error => rfl
  | ok x => cases x <;> rfl

theorem evaluate_or_assoc (a b c : Expr) :
    ((a.or b).or c).evaluate r = (a.or (b.or c)).evaluate r := by
  rw [evaluate_or, evaluate_or, truthOf_of_evaluate (evaluate_or a b),
    truthOf_of_evaluate (evaluate_or b c)]
  cases truthOf r "or" a with
  | error error => rfl
  | ok x => cases x <;> rfl

/-- A way to put the operands of a chain in pairs. -/
inductive Grouping where
  | operand (e : Expr)
  | pair (left right : Grouping)

namespace Grouping

/-- From left to right. -/
def operands : Grouping → List Expr
  | operand e => [e]
  | pair left right => left.operands ++ right.operands

def toExpr (join : Expr → Expr → Expr) : Grouping → Expr
  | operand e => e
  | pair left right => join (left.toExpr join) (right.toExpr join)

theorem exists_operands (g : Grouping) : ∃ es last, g.operands = es ++ [last] := by
  induction g with
  | operand e => exact ⟨[], e, rfl⟩
  | pair left right _ ihright =>
    obtain ⟨es, last, hlast⟩ := ihright
    exact ⟨left.operands ++ es, last, by rw [operands, hlast, List.append_assoc]⟩

section Chain

variable {join : Expr → Expr → Expr}
  (hassoc : ∀ a b c : Expr, (join (join a b) c).evaluate r = (join a (join b c)).evaluate r)
  (hright : ∀ a b c : Expr, b.evaluate r = c.evaluate r →
    (join a b).evaluate r = (join a c).evaluate r)

include hright in
theorem evaluate_foldr {e e' : Expr} (h : e.evaluate r = e'.evaluate r) (es : List Expr) :
    (es.foldr join e).evaluate r = (es.foldr join e').evaluate r := by
  induction es with
  | nil => exact h
  | cons a es ih => exact hright a _ _ ih

include hassoc hright in
theorem evaluate_join_toExpr (g : Grouping) (e : Expr) :
    (join (g.toExpr join) e).evaluate r = (g.operands.foldr join e).evaluate r := by
  induction g generalizing e with
  | operand a => rfl
  | pair left right ihleft ihright =>
    calc (join (join (left.toExpr join) (right.toExpr join)) e).evaluate r
      _ = (join (left.toExpr join) (join (right.toExpr join) e)).evaluate r := hassoc _ _ _
      _ = (left.operands.foldr join (join (right.toExpr join) e)).evaluate r := ihleft _
      _ = (left.operands.foldr join (right.operands.foldr join e)).evaluate r :=
        evaluate_foldr hright (ihright e) left.operands
      _ = ((left.operands ++ right.operands).foldr join e).evaluate r := by rw [List.foldr_append]

include hassoc hright in
theorem evaluate_toExpr {g : Grouping} {es : List Expr} {last : Expr}
    (h : g.operands = es ++ [last]) :
    (g.toExpr join).evaluate r = (es.foldr join last).evaluate r := by
  induction g generalizing es with
  | operand e =>
    have hsingle : [] ++ [e] = es ++ [last] := h
    obtain ⟨rfl, hsame⟩ := List.append_inj' hsingle rfl
    obtain rfl : e = last := by simpa using hsame
    rfl
  | pair left right _ ihright =>
    obtain ⟨fs, last', hlast⟩ := exists_operands right
    rw [operands, hlast, ← List.append_assoc] at h
    obtain ⟨rfl, hsame⟩ := List.append_inj' h rfl
    obtain rfl : last' = last := by simpa using hsame
    rw [List.foldr_append, ← evaluate_foldr hright (ihright hlast) left.operands]
    exact evaluate_join_toExpr hassoc hright left _

include hassoc hright in
theorem evaluate_toExpr_eq {g g' : Grouping} (h : g.operands = g'.operands) :
    (g.toExpr join).evaluate r = (g'.toExpr join).evaluate r := by
  obtain ⟨es, last, hlast⟩ := exists_operands g
  rw [evaluate_toExpr hassoc hright hlast, evaluate_toExpr hassoc hright (h ▸ hlast)]

end Chain

end Grouping

/-! ## Negations -/

theorem alike_truthOf (operation operation' : String) (e : Expr) :
    Alike (truthOf r operation e) (truthOf r operation' e) := by
  cases operand r e with
  | holds x h =>
    rw [h, h]
    exact .refl _
  | fails error h hsame =>
    rw [h, h]
    exact alike_error (hsame _ _)

theorem alike_not_and (a b : Expr) :
    Alike ((a.and b).not.evaluate r) ((a.not.or b.not).evaluate r) := by
  rw [evaluate_not, evaluate_or, truthOf_of_evaluate (evaluate_and a b),
    truthOf_of_evaluate (evaluate_not a), truthOf_of_evaluate (evaluate_not b)]
  apply Alike.map
  cases operand r a with
  | fails error ha hsame =>
    rw [ha, ha]
    exact alike_error (hsame _ _)
  | holds x ha =>
    rw [ha, ha]
    cases x with
    | false => exact .refl _
    | true => exact (alike_truthOf "and" "not" b).map _

theorem alike_not_or (a b : Expr) :
    Alike ((a.or b).not.evaluate r) ((a.not.and b.not).evaluate r) := by
  rw [evaluate_not, evaluate_and, truthOf_of_evaluate (evaluate_or a b),
    truthOf_of_evaluate (evaluate_not a), truthOf_of_evaluate (evaluate_not b)]
  apply Alike.map
  cases operand r a with
  | fails error ha hsame =>
    rw [ha, ha]
    exact alike_error (hsame _ _)
  | holds x ha =>
    rw [ha, ha]
    cases x with
    | true => exact .refl _
    | false => exact (alike_truthOf "or" "not" b).map _

theorem alike_holds_not_not (a : Expr) : Alike (a.not.not.holds r) (a.holds r) := by
  change Alike (truthOf r "condition" a.not.not) (truthOf r "condition" a)
  rw [truthOf_of_evaluate (evaluate_not a.not), truthOf_of_evaluate (evaluate_not a)]
  cases operand r a with
  | fails error ha hsame =>
    rw [ha, ha]
    exact alike_error (hsame _ _)
  | holds x ha =>
    rw [ha, ha]
    cases x <;> exact .refl _

theorem alike_not_compare (op : Comparator) (a b : Expr) :
    Alike ((Expr.compare op a b).not.evaluate r)
      ((Expr.compare op.complement a b).evaluate r) := by
  rw [evaluate_not, truthOf_of_evaluate (evaluate_compare op a b), evaluate_compare]
  apply Alike.map
  cases a.evaluate r with
  | error error => exact .refl _
  | ok left =>
    cases b.evaluate r with
    | error error => exact .refl _
    | ok right => exact left.alike_compare_complement op right

/-! ## All laws together -/

/-- The laws of logic for every operand, failing ones among them. A chain of one operation has one
value however it is grouped. -/
theorem boolean_laws (r : Resolver) :
    (∀ a b c : Expr, ((a.and b).and c).evaluate r = (a.and (b.and c)).evaluate r) ∧
    (∀ a b c : Expr, ((a.or b).or c).evaluate r = (a.or (b.or c)).evaluate r) ∧
    (∀ g g' : Grouping, g.operands = g'.operands →
      (g.toExpr and).evaluate r = (g'.toExpr and).evaluate r ∧
      (g.toExpr or).evaluate r = (g'.toExpr or).evaluate r) ∧
    (∀ a b : Expr, Alike ((a.and b).not.evaluate r) ((a.not.or b.not).evaluate r)) ∧
    (∀ a b : Expr, Alike ((a.or b).not.evaluate r) ((a.not.and b.not).evaluate r)) ∧
    (∀ a : Expr, Alike (a.not.not.holds r) (a.holds r)) ∧
    ∀ (op : Comparator) (a b : Expr), Alike ((Expr.compare op a b).not.evaluate r)
      ((Expr.compare op.complement a b).evaluate r) := by
  refine ⟨evaluate_and_assoc, evaluate_or_assoc, fun g g' h => ⟨?_, ?_⟩, alike_not_and,
    alike_not_or, alike_holds_not_not, alike_not_compare⟩
  · refine Grouping.evaluate_toExpr_eq evaluate_and_assoc (fun a b c hbc => ?_) h
    rw [evaluate, evaluate, hbc]
  · refine Grouping.evaluate_toExpr_eq evaluate_or_assoc (fun a b c hbc => ?_) h
    rw [evaluate, evaluate, hbc]

/-- Four operands, the second of which is a number. -/
theorem boolean_laws_number :
    let vip := Expr.call "contains" [.var ⟨"customer.tags"⟩, .string "vip"]
    let total := Expr.var ⟨"order.total"⟩
    let g := Grouping.pair (.pair (.operand vip) (.operand total))
      (.pair (.operand (.bool false)) (.operand vip))
    let g' := Grouping.pair (.operand vip)
      (.pair (.pair (.operand total) (.operand (.bool false))) (.operand vip))
    g.operands = g'.operands ∧
      (g.toExpr and).evaluate Context.vipOrder.resolver =
        .error (.typeMismatch "and" [.bool] .number) ∧
      (g.toExpr or).evaluate Context.vipOrder.resolver = .ok (.bool true) := by
  intro vip total g g'
  have hsame : g.operands = g'.operands := rfl
  obtain ⟨hand, hor⟩ := (boolean_laws Context.vipOrder.resolver).2.2.1 g g' hsame
  exact ⟨hsame, hand.trans rfl, hor.trans rfl⟩

end Expr

end Promotions
