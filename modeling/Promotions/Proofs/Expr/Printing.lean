import Promotions.Proofs.Expr.Grammar
import Promotions.Proofs.Token.Words

/-!
# Trees that print

A tree is printable if its strings have no quote and its names are dotted identifiers. `brackets`
is how many constructs are open at once in the text of a tree, whose operators all stand in
brackets of their own.
-/

namespace Promotions

/-! ## Names -/

/-- Identifiers with a dot between neighbours. -/
def IsName (text : String) : Prop :=
  ∃ segments, segments ≠ [] ∧ (∀ s ∈ segments, Token.IsIdentifier s) ∧
    text = (Path.ofSegments segments).text

namespace Expr

/-! ## Induction on trees -/

@[elab_as_elim, induction_eliminator]
theorem induct {motive : Expr → Prop} (bool : ∀ b, motive (.bool b))
    (number : ∀ n, motive (.number n)) (string : ∀ s, motive (.string s))
    (var : ∀ path, motive (.var path))
    (compare : ∀ op a b, motive a → motive b → motive (.compare op a b))
    (and : ∀ a b, motive a → motive b → motive (.and a b))
    (or : ∀ a b, motive a → motive b → motive (.or a b)) (not : ∀ a, motive a → motive (.not a))
    (call : ∀ name args, (∀ e ∈ args, motive e) → motive (.call name args)) (e : Expr) : motive e :=
  @Expr.rec motive (fun es => ∀ e ∈ es, motive e) bool number string var compare and or not call
    (fun _ h => absurd h List.not_mem_nil)
    (fun _ _ he hes x hx => (List.mem_cons.1 hx).elim (fun h => h ▸ he) (hes x)) e

/-! ## What can be printed -/

mutual

def Printable : Expr → Prop
  | bool _ | number _ => True
  | string s => '"' ∉ s.toList
  | var p => IsName p.text
  | compare _ a b | and a b | or a b => a.Printable ∧ b.Printable
  | not a => a.Printable
  | call name args => IsName name ∧ AllPrintable args

def AllPrintable : List Expr → Prop
  | [] => True
  | e :: es => e.Printable ∧ AllPrintable es

end

mutual

/-- The constructs that are open at once in the text of the tree. A `not` is open inside its own
bracket. -/
def brackets : Expr → Nat
  | bool _ | number _ | string _ | var _ => 0
  | compare _ a b | and a b | or a b => 1 + max a.brackets b.brackets
  | not a => 2 + a.brackets
  | call _ args => 1 + maxBrackets args

def maxBrackets : List Expr → Nat
  | [] => 0
  | e :: es => max e.brackets (maxBrackets es)

end

mutual

/-- The same tree. Its zeros have no minus sign. -/
def plain : Expr → Expr
  | bool b => bool b
  | number n => number n.plain
  | string s => string s
  | var p => var p
  | compare op a b => compare op a.plain b.plain
  | and a b => and a.plain b.plain
  | or a b => or a.plain b.plain
  | not a => not a.plain
  | call name args => call name (plainAll args)

def plainAll : List Expr → List Expr
  | [] => []
  | e :: es => e.plain :: plainAll es

end

theorem allPrintable_iff (es : List Expr) : AllPrintable es ↔ ∀ e ∈ es, e.Printable := by
  induction es with
  | nil => simp [AllPrintable]
  | cons e es ih => simp [AllPrintable, ih]

theorem plainAll_eq_map (es : List Expr) : plainAll es = es.map plain := by
  induction es with
  | nil => rfl
  | cons e es ih => rw [plainAll, ih, List.map_cons]

theorem renderAll_eq_map (es : List Expr) : renderAll es = es.map render := by
  induction es with
  | nil => rfl
  | cons e es ih => rw [renderAll, ih, List.map_cons]

theorem maxBrackets_append (es : List Expr) (e : Expr) :
    maxBrackets (es ++ [e]) = max (maxBrackets es) e.brackets := by
  induction es with
  | nil => simp [maxBrackets]
  | cons x xs ih => rw [List.cons_append, maxBrackets, ih, maxBrackets, Nat.max_assoc]

/-! ## Trees without signed zeros -/

theorem same_plainAll (es : List Expr) (h : ∀ e ∈ es, e.plain.same e) :
    sameAll (plainAll es) es := by
  induction es with
  | nil => rfl
  | cons e es ih =>
    rw [plainAll, sameAll, Bool.and_eq_true]
    exact ⟨h e (by simp), ih fun x hx => h x (by simp [hx])⟩

theorem plain_same (e : Expr) : e.plain.same e := by
  induction e with
  | bool b => simp [plain, same]
  | number n => simpa [plain, same] using n.plain_same
  | string s => simp [plain, same]
  | var p => simp [plain, same]
  | compare op a b iha ihb => simp [plain, same, iha, ihb]
  | and a b iha ihb => simp [plain, same, iha, ihb]
  | or a b iha ihb => simp [plain, same, iha, ihb]
  | not a ih => simp [plain, same, ih]
  | call name args ih => simp [plain, same, same_plainAll args ih]

theorem maxDepth_plainAll (es : List Expr) (h : ∀ e ∈ es, e.plain.depth = e.depth) :
    maxDepth (plainAll es) = maxDepth es := by
  induction es with
  | nil => rfl
  | cons e es ih =>
    rw [plainAll, maxDepth, maxDepth, h e (by simp), ih fun x hx => h x (by simp [hx])]

theorem depth_plain (e : Expr) : e.plain.depth = e.depth := by
  induction e with
  | bool b => rfl
  | number n => rfl
  | string s => rfl
  | var p => rfl
  | compare op a b iha ihb => simp [plain, depth, iha, ihb]
  | and a b iha ihb => simp [plain, depth, iha, ihb]
  | or a b iha ihb => simp [plain, depth, iha, ihb]
  | not a ih => simp [plain, depth, ih]
  | call name args ih => simp [plain, depth, maxDepth_plainAll args ih]

end Expr

/-! ## Derived trees -/

namespace Grammar

open Token (Kind)

theorem isName_of_dotted (segments : List String) (hne : segments ≠ [])
    (h : ∀ k ∈ dotted segments, k.Readable) : IsName (Path.ofSegments segments).text := by
  refine ⟨segments, hne, ?_, rfl⟩
  intro s hs
  exact h (.ident s) (ident_mem_dotted segments s hs)

/-- Every tree of the phrase is printable and has no signed zero. -/
def Phrase.Printable : Phrase → Prop
  | expr _ e => e.Printable ∧ e.plain = e
  | arguments args => Expr.AllPrintable args ∧ Expr.plainAll args = args

theorem Derives.printable {phrase : Phrase} {p : List Kind} {n : Nat} (h : Derives phrase p n)
    (hp : ∀ k ∈ p, k.Readable) : phrase.Printable := by
  induction h with
  | or_and _ ih | and_not _ ih | not_comparison _ ih | comparison_primary _ ih => exact ih hp
  | or _ _ iha ihb | and _ _ iha ihb | compare _ _ iha ihb =>
    obtain ⟨ha, hpa⟩ := iha fun k hk => hp k (by simp [hk])
    obtain ⟨hb, hpb⟩ := ihb fun k hk => hp k (by simp [hk])
    exact ⟨⟨ha, hb⟩, by rw [Expr.plain, hpa, hpb]⟩
  | not _ ih =>
    obtain ⟨ha, hpa⟩ := ih fun k hk => hp k (by simp [hk])
    exact ⟨ha, by rw [Expr.plain, hpa]⟩
  | true | false => exact ⟨trivial, rfl⟩
  | @number x =>
    have hx : x.plain = x := hp (.number x) (by simp)
    exact ⟨trivial, by rw [Expr.plain, hx]⟩
  | @string s => exact ⟨hp (.string s) (by simp), rfl⟩
  | group _ ih => exact ih fun k hk => hp k (by simp [hk])
  | @var segments hne => exact ⟨isName_of_dotted segments hne hp, rfl⟩
  | @call_nil segments hne =>
    have hname := isName_of_dotted segments hne fun k hk => hp k (by simp [hk])
    exact ⟨⟨hname, trivial⟩, rfl⟩
  | @call segments args p n hne _ ih =>
    have hname := isName_of_dotted segments hne fun k hk => hp k (by simp [hk])
    obtain ⟨hargs, hplain⟩ := ih fun k hk => hp k (by simp [hk])
    exact ⟨⟨hname, hargs⟩, by rw [Expr.plain, hplain]⟩
  | argument _ ih =>
    obtain ⟨he, hpe⟩ := ih hp
    exact ⟨⟨he, trivial⟩, by rw [Expr.plainAll, hpe]; rfl⟩
  | comma _ _ iha ihe =>
    obtain ⟨hargs, hplain⟩ := iha fun k hk => hp k (by simp [hk])
    obtain ⟨he, hpe⟩ := ihe fun k hk => hp k (by simp [hk])
    rw [Expr.plainAll_eq_map] at hplain
    refine ⟨?_, ?_⟩
    · rw [Expr.allPrintable_iff] at hargs ⊢
      intro x hx
      rcases List.mem_append.1 hx with hx | hx
      · exact hargs x hx
      · rwa [List.mem_singleton.1 hx]
    · rw [Expr.plainAll_eq_map, List.map_append, hplain, List.map_singleton, hpe]

end Grammar

end Promotions
