import Mathlib.Data.List.Forall2
import Promotions.Expr.Evaluate
import Promotions.Proofs.Fallible

/-!
# The kinds of conditions

Once the variables have kinds, expressions have kinds, too. An expression of a kind evaluates to a
value of that kind, wherever the variables have values of their kinds and the built-in callables are
not hidden. It never fails.
-/

namespace Promotions

/-! ## Kinds -/

/-- The operators that compare two values of a kind. Truth values and lists have no order. -/
def Comparator.Compares (op : Comparator) : Kind → Prop
  | .number | .string => True
  | .bool | .list => op = .eq ∨ op = .ne

/-- The kinds of the arguments of a built-in callable, and the kind of its result. -/
inductive Callable.Signature : String → List Kind → Kind → Prop
  | containsItem (item : Kind) : Signature "contains" [.list, item] .bool
  | containsText : Signature "contains" [.string, .string] .bool
  | startsWith : Signature "starts_with" [.string, .string] .bool
  | endsWith : Signature "ends_with" [.string, .string] .bool
  | lengthOfList : Signature "length" [.list] .number
  | lengthOfText : Signature "length" [.string] .number

/-- The kind of an expression, where `Γ` gives the kinds of the variables. -/
inductive Expr.HasKind (Γ : Path → Option Kind) : Expr → Kind → Prop
  | bool (b : Bool) : HasKind Γ (.bool b) .bool
  | number (n : Decimal) : HasKind Γ (.number n) .number
  | string (s : String) : HasKind Γ (.string s) .string
  | var {path : Path} {k : Kind} (h : Γ path = some k) : HasKind Γ (.var path) k
  | compare {op : Comparator} {a b : Expr} {k : Kind} (hop : op.Compares k) (ha : HasKind Γ a k)
      (hb : HasKind Γ b k) : HasKind Γ (.compare op a b) .bool
  | and {a b : Expr} (ha : HasKind Γ a .bool) (hb : HasKind Γ b .bool) : HasKind Γ (.and a b) .bool
  | or {a b : Expr} (ha : HasKind Γ a .bool) (hb : HasKind Γ b .bool) : HasKind Γ (.or a b) .bool
  | not {a : Expr} (ha : HasKind Γ a .bool) : HasKind Γ (.not a) .bool
  | call {name : String} {args : List Expr} {kinds : List Kind} {k : Kind}
      (hname : Callable.Signature name kinds k) (hargs : List.Forall₂ (HasKind Γ) args kinds) :
      HasKind Γ (.call name args) k

/-- Every variable with a kind has a value of that kind, and the built-in callables stay what they
are. -/
structure Resolver.Supplies (r : Resolver) (Γ : Path → Option Kind) : Prop where
  value {path : Path} {k : Kind} (h : Γ path = some k) :
    ∃ v, r.value? path.text = some v ∧ v.kind = k
  builtin {name : String} {f : Callable} (h : Callable.builtin? name = some f) :
    r.callable? name = some f

/-! ## Values of a kind -/

namespace Value

theorem exists_bool_of_kind {v : Value} (h : v.kind = .bool) : ∃ b, v = bool b := by
  cases v <;> simp [kind] at h ⊢

theorem exists_string_of_kind {v : Value} (h : v.kind = .string) : ∃ s, v = string s := by
  cases v <;> simp [kind] at h ⊢

theorem exists_list_of_kind {v : Value} (h : v.kind = .list) : ∃ items, v = list items := by
  cases v <;> simp [kind] at h ⊢

theorem exists_compare_of_kind {op : Comparator} {left right : Value} {k : Kind}
    (hop : op.Compares k) (hleft : left.kind = k) (hright : right.kind = k) :
    ∃ b, left.compare op right = .ok b := by
  subst hleft
  unfold compare
  rw [if_neg (not_not_intro hright.symm)]
  cases left <;> cases right <;> simp only [kind, reduceCtorEq] at hright
  case number.number | string.string => exact ⟨_, rfl⟩
  case bool.bool | list.list => rcases hop with rfl | rfl <;> exact ⟨_, rfl⟩

end Value

theorem Callable.Signature.run {name : String} {kinds : List Kind} {k : Kind} {vs : List Value}
    (h : Signature name kinds k) (hvs : List.Forall₂ (fun v k => v.kind = k) vs kinds) :
    ∃ f, builtin? name = some f ∧ f.arity = kinds.length ∧ ∃ v, f.run vs = .ok v ∧ v.kind = k := by
  cases h with
  | containsItem item =>
    obtain _ | ⟨hlist, _ | ⟨-, _ | _⟩⟩ := hvs
    obtain ⟨items, rfl⟩ := Value.exists_list_of_kind hlist
    exact ⟨_, rfl, rfl, _, rfl, rfl⟩
  | containsText | startsWith | endsWith =>
    obtain _ | ⟨hleft, _ | ⟨hright, _ | _⟩⟩ := hvs
    obtain ⟨s, rfl⟩ := Value.exists_string_of_kind hleft
    obtain ⟨t, rfl⟩ := Value.exists_string_of_kind hright
    exact ⟨_, rfl, rfl, _, rfl, rfl⟩
  | lengthOfList =>
    obtain _ | ⟨hlist, _ | _⟩ := hvs
    obtain ⟨items, rfl⟩ := Value.exists_list_of_kind hlist
    exact ⟨_, rfl, rfl, _, rfl, rfl⟩
  | lengthOfText =>
    obtain _ | ⟨htext, _ | _⟩ := hvs
    obtain ⟨s, rfl⟩ := Value.exists_string_of_kind htext
    exact ⟨_, rfl, rfl, _, rfl, rfl⟩

/-! ## Evaluation -/

namespace Expr

variable {r : Resolver} {Γ : Path → Option Kind}

theorem exists_bool {e : Expr} (h : ∃ v, e.evaluate r = .ok v ∧ v.kind = .bool) :
    ∃ b, e.evaluate r = .ok (.bool b) := by
  obtain ⟨v, hv, hkind⟩ := h
  obtain ⟨b, rfl⟩ := Value.exists_bool_of_kind hkind
  exact ⟨b, hv⟩

mutual

theorem exists_of_hasKind (hr : r.Supplies Γ) (e : Expr) (k : Kind) (h : HasKind Γ e k) :
    ∃ v, e.evaluate r = .ok v ∧ v.kind = k := by
  cases h with
  | bool b => exact ⟨.bool b, by rw [evaluate], rfl⟩
  | number n => exact ⟨.number n, by rw [evaluate], rfl⟩
  | string s => exact ⟨.string s, by rw [evaluate], rfl⟩
  | var hpath =>
    obtain ⟨v, hv, hkind⟩ := hr.value hpath
    exact ⟨v, by rw [evaluate, hv], hkind⟩
  | compare hop ha hb =>
    obtain ⟨left, ha, hleft⟩ := exists_of_hasKind hr _ _ ha
    obtain ⟨right, hb, hright⟩ := exists_of_hasKind hr _ _ hb
    obtain ⟨result, hresult⟩ := Value.exists_compare_of_kind hop hleft hright
    exact ⟨.bool result, by simp [evaluate, ha, hb, hresult], rfl⟩
  | and ha hb =>
    obtain ⟨x, ha⟩ := exists_bool (exists_of_hasKind hr _ _ ha)
    obtain ⟨y, hb⟩ := exists_bool (exists_of_hasKind hr _ _ hb)
    exact ⟨.bool (x && y), by cases x <;> simp [evaluate, ha, hb, Value.truth], rfl⟩
  | or ha hb =>
    obtain ⟨x, ha⟩ := exists_bool (exists_of_hasKind hr _ _ ha)
    obtain ⟨y, hb⟩ := exists_bool (exists_of_hasKind hr _ _ hb)
    exact ⟨.bool (x || y), by cases x <;> simp [evaluate, ha, hb, Value.truth], rfl⟩
  | not ha =>
    obtain ⟨x, ha⟩ := exists_bool (exists_of_hasKind hr _ _ ha)
    exact ⟨.bool !x, by simp [evaluate, ha, Value.truth], rfl⟩
  | call hname hargs =>
    obtain ⟨vs, hvs, hkinds⟩ := exists_of_hasKinds hr _ _ hargs
    obtain ⟨f, hf, harity, v, hv, hkind⟩ := hname.run hkinds
    have hlength := hargs.length_eq.trans harity.symm
    exact ⟨v, by rw [evaluate, hr.builtin hf]; simp [hlength, hvs, hv], hkind⟩
termination_by sizeOf e

theorem exists_of_hasKinds (hr : r.Supplies Γ) (es : List Expr) (kinds : List Kind)
    (h : List.Forall₂ (HasKind Γ) es kinds) :
    ∃ vs, evaluateAll r es = .ok vs ∧ List.Forall₂ (fun v k => v.kind = k) vs kinds := by
  cases h with
  | nil => exact ⟨[], by rw [evaluateAll], .nil⟩
  | cons he hes =>
    obtain ⟨v, hv, hkind⟩ := exists_of_hasKind hr _ _ he
    obtain ⟨vs, hvs, hkinds⟩ := exists_of_hasKinds hr _ _ hes
    exact ⟨v :: vs, by simp [evaluateAll, hv, hvs], .cons hkind hkinds⟩
termination_by sizeOf es

end

/-- An expression of a kind evaluates to a value of that kind, without an error. -/
theorem evaluate_of_hasKind (hr : r.Supplies Γ) (e : Expr) (k : Kind) (h : HasKind Γ e k) :
    (∃ v, e.evaluate r = .ok v ∧ v.kind = k) ∧ ∀ error, e.evaluate r ≠ .error error := by
  obtain ⟨v, hv, hkind⟩ := exists_of_hasKind hr e k h
  refine ⟨⟨v, hv, hkind⟩, fun error herror => ?_⟩
  rw [hv] at herror
  cases herror

end Expr

/-! ## Contexts -/

namespace Context

/-- The kinds of the values of a context. -/
def kinds (c : Context) (path : Path) : Option Kind := (c.value? path.text).map Value.kind

theorem callable?_eq_builtin? {c : Context} {name : String}
    (h : ∀ entry ∈ c.callables, entry.1 ≠ name) : c.callable? name = Callable.builtin? name := by
  have hnone : c.callables.lookup name = none := by
    rw [List.lookup_eq_none_iff]
    exact fun entry hentry => by simpa using (h entry hentry).symm
  rw [callable?, hnone, Option.none_or]

theorem supplies_kinds {c : Context}
    (h : ∀ entry ∈ c.callables, Callable.builtin? entry.1 = none) :
    c.resolver.Supplies c.kinds where
  value hpath := Option.map_eq_some_iff.1 hpath
  builtin {name f} hf := by
    refine (callable?_eq_builtin? fun entry hentry hname => ?_).trans hf
    have hnone := h entry hentry
    rw [hname, hf] at hnone
    cases hnone

/-- A customer with tags and an order. -/
def vipOrder : Context where
  values :=
    [("order.total", .number (.ofCount 120)), ("customer.name", .string "Ada"),
      ("customer.tags", .list [.string "vip", .number (.ofCount 7)])]
  callables := []

end Context

namespace Expr

/-- The tree of `order.total >= 100 and (contains(customer.tags, "vip") or
length(customer.name) = 3)`. -/
def vipDiscount : Expr :=
  .and (.compare .ge (.var ⟨"order.total"⟩) (.number (.ofCount 100)))
    (.or (.call "contains" [.var ⟨"customer.tags"⟩, .string "vip"])
      (.compare .eq (.call "length" [.var ⟨"customer.name"⟩]) (.number (.ofCount 3))))

theorem evaluate_of_hasKind_vipDiscount :
    HasKind Context.vipOrder.kinds vipDiscount .bool ∧
      ∃ v, vipDiscount.evaluate Context.vipOrder.resolver = .ok v ∧ v.kind = .bool := by
  have htotal : HasKind Context.vipOrder.kinds (.var ⟨"order.total"⟩) .number := .var rfl
  have htags : HasKind Context.vipOrder.kinds (.var ⟨"customer.tags"⟩) .list := .var rfl
  have hname : HasKind Context.vipOrder.kinds (.var ⟨"customer.name"⟩) .string := .var rfl
  have hlength := HasKind.call .lengthOfText (.cons hname .nil)
  have hkind : HasKind Context.vipOrder.kinds vipDiscount .bool :=
    .and (.compare (k := .number) trivial htotal (.number _))
      (.or (.call (.containsItem .string) (.cons htags (.cons (.string "vip") .nil)))
        (.compare (k := .number) trivial hlength (.number _)))
  have hr : Context.vipOrder.resolver.Supplies Context.vipOrder.kinds :=
    Context.supplies_kinds fun _ hentry => nomatch hentry
  exact ⟨hkind, (evaluate_of_hasKind hr vipDiscount .bool hkind).1⟩

end Expr

end Promotions
