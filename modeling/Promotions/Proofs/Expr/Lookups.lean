import Promotions.Expr.Evaluate
import Promotions.Proofs.Fallible

/-!
# What an evaluation looks up

An evaluation asks the resolver for the names on its way, and for no others: not for those of an
operand that no longer matters, and not for those after a failure. Its answer depends on what the
resolver says to these names only, and it needs all of them.
-/

namespace Promotions

/-- A question to a resolver. -/
inductive Lookup where
  | value (path : String)
  | callable (name : String)
deriving DecidableEq

namespace Lookup

/-- Both resolvers give the same answer. -/
def Agrees (r r' : Resolver) : Lookup → Prop
  | value path => r'.value? path = r.value? path
  | callable name => r'.callable? name = r.callable? name

/-- The failure of an evaluation whose question has no answer. -/
def missing : Lookup → EvalError
  | value path => .unknownVariable path
  | callable name => .unknownFunction name

end Lookup

/-- The resolver without its answer to one question. -/
def Resolver.without (r : Resolver) (x : Lookup) : Resolver where
  value? path := if x = .value path then none else r.value? path
  callable? name := if x = .callable name then none else r.callable? name

theorem Resolver.agrees_without {r : Resolver} {x y : Lookup} (h : x ≠ y) :
    y.Agrees r (r.without x) := by
  cases y <;> exact if_neg h

namespace Expr

mutual

/-- The questions of an evaluation, in its order. -/
def lookups (r : Resolver) : Expr → List Lookup
  | bool _ | number _ | string _ => []
  | var path => [.value path.text]
  | compare _ a b =>
    lookups r a ++
      match evaluate r a with
      | .ok _ => lookups r b
      | .error _ => []
  | and a b =>
    lookups r a ++
      match evaluate r a with
      | .ok (.bool true) => lookups r b
      | _ => []
  | or a b =>
    lookups r a ++
      match evaluate r a with
      | .ok (.bool false) => lookups r b
      | _ => []
  | not a => lookups r a
  | call name args =>
    .callable name ::
      match r.callable? name with
      | some f => if args.length = f.arity then lookupsAll r args else []
      | none => []

def lookupsAll (r : Resolver) : List Expr → List Lookup
  | [] => []
  | e :: es =>
    lookups r e ++
      match evaluate r e with
      | .ok _ => lookupsAll r es
      | .error _ => []

end

variable {r r' : Resolver}

/-! ## Parts that are not read -/

theorem lookups_and_of_ne {a : Expr} (b : Expr) (h : a.evaluate r ≠ .ok (.bool true)) :
    (and a b).lookups r = a.lookups r := by
  rw [lookups]
  split
  · contradiction
  · rw [List.append_nil]

theorem lookups_or_of_ne {a : Expr} (b : Expr) (h : a.evaluate r ≠ .ok (.bool false)) :
    (or a b).lookups r = a.lookups r := by
  rw [lookups]
  split
  · contradiction
  · rw [List.append_nil]

theorem lookups_compare_of_error {a : Expr} {error : EvalError} (op : Comparator) (b : Expr)
    (h : a.evaluate r = .error error) : (compare op a b).lookups r = a.lookups r := by
  rw [lookups, h, List.append_nil]

theorem lookups_call_of_ne {name : String} {args : List Expr}
    (h : ∀ f, r.callable? name = some f → args.length ≠ f.arity) :
    (call name args).lookups r = [.callable name] := by
  rw [lookups]
  split
  · next f hf => rw [if_neg (h f hf)]
  · rfl

theorem lookupsAll_append_of_error {e : Expr} {error : EvalError} (before after : List Expr)
    (h : e.evaluate r = .error error) :
    lookupsAll r (before ++ e :: after) = lookupsAll r (before ++ [e]) := by
  induction before with
  | nil => simp [lookupsAll, h]
  | cons first before ih => simp only [List.cons_append, lookupsAll, ih]

/-! ## Only the questions matter -/

mutual

theorem evaluate_eq_of_agrees (e : Expr) (h : ∀ x ∈ e.lookups r, x.Agrees r r') :
    e.evaluate r' = e.evaluate r := by
  cases e with
  | bool | number | string => rw [evaluate, evaluate]
  | var path =>
    have hpath : r'.value? path.text = r.value? path.text :=
      h (.value path.text) (by simp [lookups])
    rw [evaluate, evaluate, hpath]
  | compare op a b =>
    rw [lookups, List.forall_mem_append] at h
    rw [evaluate, evaluate]
    refine bind_eq_bind (evaluate_eq_of_agrees a h.1) fun left ha => ?_
    rw [ha] at h
    rw [evaluate_eq_of_agrees b h.2]
  | and a b =>
    rw [lookups, List.forall_mem_append] at h
    rw [evaluate, evaluate]
    refine bind_eq_bind (evaluate_eq_of_agrees a h.1) fun left ha => ?_
    rcases left with (_ | _) | _ | _ | _
    case bool.true =>
      rw [ha] at h
      rw [evaluate_eq_of_agrees b h.2]
    all_goals rfl
  | or a b =>
    rw [lookups, List.forall_mem_append] at h
    rw [evaluate, evaluate]
    refine bind_eq_bind (evaluate_eq_of_agrees a h.1) fun left ha => ?_
    rcases left with (_ | _) | _ | _ | _
    case bool.false =>
      rw [ha] at h
      rw [evaluate_eq_of_agrees b h.2]
    all_goals rfl
  | not a =>
    rw [lookups] at h
    rw [evaluate, evaluate, evaluate_eq_of_agrees a h]
  | call name args =>
    rw [lookups, List.forall_mem_cons] at h
    have hname : r'.callable? name = r.callable? name := h.1
    rw [evaluate, evaluate, hname]
    cases hf : r.callable? name with
    | none => rfl
    | some f =>
      by_cases hlength : args.length = f.arity
      · simp only [hf, if_pos hlength] at h ⊢
        rw [evaluateAll_eq_of_agrees args h.2]
      · simp only [if_neg hlength]

theorem evaluateAll_eq_of_agrees (es : List Expr) (h : ∀ x ∈ lookupsAll r es, x.Agrees r r') :
    evaluateAll r' es = evaluateAll r es := by
  cases es with
  | nil => rw [evaluateAll, evaluateAll]
  | cons e es =>
    rw [lookupsAll, List.forall_mem_append] at h
    rw [evaluateAll, evaluateAll]
    refine bind_eq_bind (evaluate_eq_of_agrees e h.1) fun v he => ?_
    rw [he] at h
    rw [evaluateAll_eq_of_agrees es h.2]

end

/-! ## All questions matter -/

/-- Two steps fail without an answer to `x`, if the first one asks `x`, or the second one fails like
that. -/
theorem bind_without {β : Type} {a : Expr} {x : Lookup} {k : Value → Except EvalError β}
    (hfirst : x ∈ a.lookups r → a.evaluate (r.without x) = .error x.missing)
    (h : x ∈ a.lookups r ∨ ∃ v, a.evaluate r = .ok v ∧ k v = .error x.missing) :
    (a.evaluate (r.without x) >>= k) = .error x.missing := by
  by_cases hx : x ∈ a.lookups r
  · rw [hfirst hx, error_bind]
  · obtain ⟨v, hv, hk⟩ := h.resolve_left hx
    have hsame : a.evaluate (r.without x) = a.evaluate r :=
      evaluate_eq_of_agrees a fun _ hy => Resolver.agrees_without (ne_of_mem_of_not_mem hy hx).symm
    rw [hsame, hv, ok_bind, hk]

mutual

theorem evaluate_without (e : Expr) (x : Lookup) (h : x ∈ e.lookups r) :
    e.evaluate (r.without x) = .error x.missing := by
  cases e with
  | bool | number | string => simp [lookups] at h
  | var path =>
    obtain rfl : x = .value path.text := by simpa [lookups] using h
    simp [evaluate, Resolver.without, Lookup.missing]
  | compare op a b =>
    rw [lookups, List.mem_append] at h
    rw [evaluate]
    refine bind_without (evaluate_without a x) (h.imp_right fun hb => ?_)
    split at hb
    · next left ha => exact ⟨left, ha, by rw [evaluate_without b x hb, error_bind]⟩
    · simp at hb
  | and a b =>
    rw [lookups, List.mem_append] at h
    rw [evaluate]
    refine bind_without (evaluate_without a x) (h.imp_right fun hb => ?_)
    split at hb
    · next ha => exact ⟨.bool true, ha, by rw [evaluate_without b x hb]; rfl⟩
    · simp at hb
  | or a b =>
    rw [lookups, List.mem_append] at h
    rw [evaluate]
    refine bind_without (evaluate_without a x) (h.imp_right fun hb => ?_)
    split at hb
    · next ha => exact ⟨.bool false, ha, by rw [evaluate_without b x hb]; rfl⟩
    · simp at hb
  | not a =>
    rw [lookups] at h
    rw [evaluate, evaluate_without a x h, error_bind]
  | call name args =>
    by_cases hx : x = .callable name
    · subst hx
      simp [evaluate, Resolver.without, Lookup.missing]
    · rw [lookups, List.mem_cons, or_iff_right hx] at h
      have hname : (r.without x).callable? name = r.callable? name := if_neg hx
      split at h
      · next f hf =>
        split at h
        · next hlength =>
          rw [evaluate, hname, hf]
          simp only [if_pos hlength]
          rw [evaluateAll_without args x h, error_bind]
        · simp at h
      · simp at h

theorem evaluateAll_without (es : List Expr) (x : Lookup) (h : x ∈ lookupsAll r es) :
    evaluateAll (r.without x) es = .error x.missing := by
  cases es with
  | nil => simp [lookupsAll] at h
  | cons e es =>
    rw [lookupsAll, List.mem_append] at h
    rw [evaluateAll]
    refine bind_without (evaluate_without e x) (h.imp_right fun hes => ?_)
    split at hes
    · next v he => exact ⟨v, he, by rw [evaluateAll_without es x hes, error_bind]⟩
    · simp at hes

end

/-- Resolvers that agree on the questions of an evaluation give it the same answer. The evaluation
asks all of them: it fails if one has no answer. Operands that no longer matter and arguments that
are not reached have no questions. -/
theorem evaluate_reads_lookups (r : Resolver) :
    (∀ (e : Expr) (r' : Resolver), (∀ x ∈ e.lookups r, x.Agrees r r') →
      e.evaluate r' = e.evaluate r) ∧
    (∀ (e : Expr), ∀ x ∈ e.lookups r, e.evaluate (r.without x) = .error x.missing) ∧
    (∀ a b, a.evaluate r ≠ .ok (.bool true) → (and a b).lookups r = a.lookups r) ∧
    (∀ a b, a.evaluate r ≠ .ok (.bool false) → (or a b).lookups r = a.lookups r) ∧
    (∀ op a b error, a.evaluate r = .error error →
      (compare op a b).lookups r = a.lookups r) ∧
    (∀ name args, (∀ f, r.callable? name = some f → args.length ≠ f.arity) →
      (call name args).lookups r = [.callable name]) ∧
    (∀ before e after error, e.evaluate r = .error error →
      lookupsAll r (before ++ e :: after) = lookupsAll r (before ++ [e])) :=
  ⟨fun e _ h => evaluate_eq_of_agrees e h, evaluate_without, fun _ b h => lookups_and_of_ne b h,
    fun _ b h => lookups_or_of_ne b h, fun op _ b _ h => lookups_compare_of_error op b h,
    fun _ _ h => lookups_call_of_ne h,
    fun before _ after _ h => lookupsAll_append_of_error before after h⟩

end Expr

def Context.guest : Context := empty.insert "member" (.bool false)

namespace Expr

/-- The tree of `member and rank(customer.id) > 0`. -/
def rankedMember : Expr :=
  .and (.var ⟨"member"⟩) (.compare .gt (.call "rank" [.var ⟨"customer.id"⟩]) (.number 0))

theorem evaluate_reads_lookups_guest :
    let r := Context.guest.resolver
    let member : Expr := .var ⟨"member"⟩
    let customer : Expr := .var ⟨"customer.id"⟩
    let rank : Expr := .call "rank" [customer]
    rankedMember.evaluate (Context.guest.insert "customer.id" (.string "A7")).resolver =
      rankedMember.evaluate r ∧
    rankedMember.evaluate (r.without (.value "member")) = .error (.unknownVariable "member") ∧
    (and member rank).lookups r = [.value "member"] ∧
    (or (.not member) rank).lookups r = [.value "member"] ∧
    (compare .gt rank customer).lookups r = [.callable "rank"] ∧
    rank.lookups r = [.callable "rank"] ∧
    lookupsAll r [member, customer, rank] = lookupsAll r [member, customer] := by
  intro r member customer rank
  obtain ⟨hsame, hmissing, hand, hor, hcompare, hcall, hargs⟩ := evaluate_reads_lookups r
  have hmember : member.evaluate r = .ok (.bool false) := rfl
  have hnot : (Expr.not member).evaluate r = .ok (.bool true) := rfl
  have hcustomer : customer.evaluate r = .error (.unknownVariable "customer.id") := rfl
  have hrank : rank.evaluate r = .error (.unknownFunction "rank") := rfl
  have hlookups : rankedMember.lookups r = [.value "member"] := rfl
  have hagrees : ∀ x ∈ rankedMember.lookups r,
      x.Agrees r (Context.guest.insert "customer.id" (.string "A7")).resolver := by
    rw [hlookups, List.forall_mem_singleton]
    rfl
  have hunknown (f : Callable) (hf : r.callable? "rank" = some f) :
      [customer].length ≠ f.arity := nomatch hf
  exact ⟨hsame _ _ hagrees, hmissing _ (.value "member") (hlookups ▸ List.mem_singleton_self _),
    hand _ rank (by simp [hmember]), hor _ rank (by simp [hnot]),
    hcompare _ _ customer _ hrank, hcall _ _ hunknown, hargs [member] _ [rank] _ hcustomer⟩

end Expr

end Promotions
