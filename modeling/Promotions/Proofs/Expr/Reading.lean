import Mathlib.Data.List.Induction
import Mathlib.Tactic.ByContra
import Promotions.Proofs.Expr.Grammar
import Promotions.Proofs.Fallible

/-!
# Reading the tokens of a phrase

The reader closes an operator only when a later token ends its operand. So what a run over the
tokens of a phrase comes to is said together with one more token: the phrase and a token that
ends it are read as if the whole tree had stood there in one piece. With a phrase that goes too
deep the run fails, and for no other reason.
-/

namespace Promotions.Grammar

open Token (Kind)
open Parse

/-! ## Depth -/

theorem depth_pos (e : Expr) : 1 ≤ e.depth := by
  cases e <;> simp [Expr.depth]

theorem maxDepth_append (es : List Expr) (e : Expr) :
    Expr.maxDepth (es ++ [e]) = max (Expr.maxDepth es) e.depth := by
  induction es with
  | nil => simp [Expr.maxDepth]
  | cons x xs ih => simp [Expr.maxDepth, ih, Nat.max_assoc]

/-! ## Runs -/

theorem run_cons (limit : Nat) (s : State) (t : Token) (ts : List Token) :
    run limit s (t :: ts) = step limit s t >>= fun s => run limit s ts := by
  simp [run]

theorem run_append (limit : Nat) (s : State) (ts us : List Token) :
    run limit s (ts ++ us) = run limit s ts >>= fun s => run limit s us := by
  simp [run]

theorem run_singleton (limit : Nat) (s : State) (t : Token) :
    run limit s [t] = step limit s t := by
  rw [run_cons]
  cases step limit s t <;> rfl

theorem ite_ok_bind {α : Type} (c : Prop) [Decidable c] (x : α) (err : ParseError)
    (f : α → Except ParseError State) :
    ((if c then .ok x else .error err) >>= f) = if c then f x else .error err := by
  split <;> rfl

/-! ## The stack -/

def opened (stack : List Frame) : Nat := stack.countP Frame.isOpening

theorem opened_cons (f : Frame) (stack : List Frame) :
    opened (f :: stack) = opened stack + if f.isOpening then 1 else 0 := by
  simp [opened, List.countP_cons]

theorem opened_push (f : Frame) (stack : List Frame) (h : f.isOpening = true) :
    opened (f :: stack) = opened stack + 1 := by
  simp [opened_cons, h]

theorem enter_eq (limit : Nat) (stack : List Frame) :
    enter limit stack =
      if opened stack ≤ limit then .ok (.operand stack) else .error (.tooDeep limit) := rfl

/-- The level of the operand that a construct waits for. -/
def waitsFor : Frame → Level
  | .group | .call _ _ => .or
  | .or _ => .and
  | .and _ | .not => .not
  | .compare _ _ => .primary

/-- An expression of the level may stand as the operand that the stack waits for. -/
def Level.Fits (level : Level) (stack : List Frame) : Prop :=
  ∀ f ∈ stack.head?, (waitsFor f).rank ≤ level.rank

theorem Level.fits_nil (level : Level) : level.Fits [] := by simp [Level.Fits]

theorem Level.fits_cons (level : Level) (f : Frame) (stack : List Frame) :
    level.Fits (f :: stack) ↔ (waitsFor f).rank ≤ level.rank := by
  simp [Level.Fits]

theorem Level.Fits.mono {l l' : Level} {stack : List Frame} (h : l.Fits stack)
    (hl : l.rank ≤ l'.rank) : l'.Fits stack := by
  intro f hf
  exact Nat.le_trans (h f hf) hl

/-- No expression of the level goes on with such a token. -/
def Level.Ends (level : Level) (k : Kind) : Prop :=
  k ≠ .dot ∧ k ≠ .leftParen ∧ (level.rank < Level.primary.rank → ∀ op, k ≠ .compare op) ∧
    (level.rank < Level.and.rank → k ≠ .and)

theorem Level.Ends.mono {l l' : Level} {k : Kind} (h : l.Ends k) (hl : l.rank ≤ l'.rank) :
    l'.Ends k := by
  obtain ⟨hdot, hparen, hcompare, hand⟩ := h
  exact ⟨hdot, hparen, fun h => hcompare (by omega), fun h => hand (by omega)⟩

/-! ## After an operand -/

theorem close_eq (limit : Nat) (f : Frame) (e : Expr) :
    f.close limit e =
      if (f.plug e).depth ≤ limit then .ok (f.plug e) else .error (.tooDeep limit) := rfl

theorem reduce_of_fits (limit strength : Nat) (stack : List Frame) (e : Expr)
    (h : ∀ f ∈ stack.head?, f.strength < strength) :
    reduce limit strength stack e = .ok (stack, e) := by
  cases stack with
  | nil => rfl
  | cons f stack =>
    have hf : f.strength < strength := by simpa using h
    simp [reduce, Nat.not_le.2 hf]

theorem reduce_cons (limit : Nat) {strength : Nat} (f : Frame) (stack : List Frame) (e : Expr)
    (h : strength ≤ f.strength) :
    reduce limit strength (f :: stack) e = f.close limit e >>= reduce limit strength stack := by
  rw [reduce, if_pos h]
  cases f.close limit e <;> rfl

theorem Level.rank_pos (level : Level) : 1 ≤ level.rank := by
  cases level <;> simp [Level.rank]

/-- A token that ends the operand of an operator is read as if the operator's tree had stood
there. -/
theorem afterOperand_cons (limit : Nat) (level : Level) (f : Frame) (stack : List Frame) (e : Expr)
    (t : Token) (hf : f.strength = level.rank) (hl : level.rank < Level.primary.rank)
    (ht : level.Ends t.kind) :
    afterOperand limit (f :: stack) e t =
      f.close limit e >>= fun whole => afterOperand limit stack whole t := by
  obtain ⟨-, -, hcompare, hand⟩ := ht
  have hpos := level.rank_pos
  cases hk : t.kind with
  | compare op => exact absurd hk (hcompare hl op)
  | and =>
    have h2 : 2 ≤ f.strength := by
      by_contra h
      exact hand (by rw [show Level.and.rank = 2 from rfl]; omega) hk
    simp only [afterOperand, hk, reduce_cons limit f stack e h2]
    cases f.close limit e <;> rfl
  | _ =>
    have h1 : 1 ≤ f.strength := by omega
    simp only [afterOperand, hk, reduce_cons limit f stack e h1]
    cases f.close limit e <;> rfl

theorem afterOperand_or (limit : Nat) (stack : List Frame) (e : Expr) (t : Token)
    (ht : t.kind = .or) (h : Level.or.Fits stack) :
    afterOperand limit stack e t = .ok (.operand (.or e :: stack)) := by
  have hred := reduce_of_fits limit 1 stack e fun f hf => by
    have := h f hf
    cases f <;> simp_all [waitsFor, Level.rank, Frame.strength]
  simp only [afterOperand, ht, hred]
  rfl

theorem afterOperand_and (limit : Nat) (stack : List Frame) (e : Expr) (t : Token)
    (ht : t.kind = .and) (h : Level.and.Fits stack) :
    afterOperand limit stack e t = .ok (.operand (.and e :: stack)) := by
  have hred := reduce_of_fits limit 2 stack e fun f hf => by
    have := h f hf
    cases f <;> simp_all [waitsFor, Level.rank, Frame.strength]
  simp only [afterOperand, ht, hred]
  rfl

theorem afterOperand_compare (limit : Nat) (stack : List Frame) (e : Expr) (t : Token)
    (op : Comparator) (ht : t.kind = .compare op) (h : Level.comparison.Fits stack) :
    afterOperand limit stack e t = .ok (.operand (.compare op e :: stack)) := by
  cases stack with
  | nil => simp only [afterOperand, ht]
  | cons f stack =>
    rw [Level.fits_cons] at h
    cases f <;> simp_all [afterOperand, waitsFor, Level.rank]

theorem afterOperand_group (limit : Nat) (stack : List Frame) (e : Expr) (t : Token)
    (ht : t.kind = .rightParen) :
    afterOperand limit (.group :: stack) e t =
      if e.depth ≤ limit then .ok (.complete stack e) else .error (.tooDeep limit) := by
  have hred := reduce_of_fits limit 1 (.group :: stack) e (by simp [Frame.strength])
  by_cases hd : e.depth ≤ limit
  · have hclose : Frame.group.close limit e = .ok e := if_pos hd
    rw [if_pos hd]
    simp [afterOperand, endOperators, bind, Except.bind, ht, hred, hclose]
  · have hclose : Frame.group.close limit e = .error (.tooDeep limit) := if_neg hd
    rw [if_neg hd]
    simp [afterOperand, endOperators, bind, Except.bind, ht, hred, hclose]

theorem afterOperand_call (limit : Nat) (stack : List Frame) (name : String) (args : List Expr)
    (e : Expr) (t : Token) (ht : t.kind = .comma ∨ t.kind = .rightParen) :
    afterOperand limit (.call name args :: stack) e t =
      if (Expr.call name (args ++ [e])).depth ≤ limit then
        .ok (if t.kind = .comma then .operand (.call name (args ++ [e]) :: stack)
          else .complete stack (.call name (args ++ [e])))
      else .error (.tooDeep limit) := by
  have hred := reduce_of_fits limit 1 (.call name args :: stack) e (by simp [Frame.strength])
  by_cases hd : (Expr.call name (args ++ [e])).depth ≤ limit
  · have hclose : (Frame.call name args).close limit e = .ok (.call name (args ++ [e])) := if_pos hd
    rw [if_pos hd]
    rcases ht with ht | ht <;> simp [afterOperand, endOperators, bind, Except.bind, ht, hred, hclose]
  · have hclose : (Frame.call name args).close limit e = .error (.tooDeep limit) := if_neg hd
    rw [if_neg hd]
    rcases ht with ht | ht <;> simp [afterOperand, endOperators, bind, Except.bind, ht, hred, hclose]

/-! ## Phrases -/

/-- What reading a phrase comes to, with `n` constructs open at once. -/
def Phrase.Reads (limit : Nat) (p : List Kind) (n : Nat) : Phrase → Prop
  | .expr level e => ∀ stack ts t, ts.map Token.kind = p → opened stack ≤ limit →
      level.Fits stack → level.Ends t.kind →
      run limit (.operand stack) (ts ++ [t]) =
        if opened stack + n ≤ limit ∧ e.depth ≤ max 1 limit then afterOperand limit stack e t
        else .error (.tooDeep limit)
  | .arguments args => ∀ stack name ts t, ts.map Token.kind = p → opened stack + 1 ≤ limit →
      t.kind = .comma ∨ t.kind = .rightParen →
      run limit (.operand (.call name [] :: stack)) (ts ++ [t]) =
        if opened stack + 1 + n ≤ limit ∧ (Expr.call name args).depth ≤ limit then
          .ok (if t.kind = .comma then .operand (.call name args :: stack)
            else .complete stack (.call name args))
        else .error (.tooDeep limit)

variable {limit : Nat}

theorem reads_loosen {l l' : Level} {e : Expr} {p : List Kind} {n : Nat}
    (h : (Phrase.expr l e).Reads limit p n) (hl : l'.rank ≤ l.rank) :
    (Phrase.expr l' e).Reads limit p n := by
  intro stack ts t hts hopen hfits hends
  exact h stack ts t hts hopen (hfits.mono hl) (hends.mono hl)

theorem reads_leaf (k : Kind) (e : Expr) (hd : e.depth = 1)
    (h : ∀ stack t, t.kind = k → startOperand limit stack t = .ok (.complete stack e)) :
    (Phrase.expr .primary e).Reads limit [k] 0 := by
  intro stack ts t hts hopen hfits hends
  obtain ⟨x, rfl, hx⟩ := List.map_eq_singleton_iff.1 hts
  have hstep : step limit (.operand stack) x = .ok (.complete stack e) := h stack x hx
  rw [if_pos ⟨hopen, by omega⟩, List.singleton_append, run_cons, hstep, ok_bind, run_singleton]
  rfl

theorem reads_not {e : Expr} {p : List Kind} {n : Nat}
    (h : (Phrase.expr .not e).Reads limit p n) :
    (Phrase.expr .not (.not e)).Reads limit (.not :: p) (n + 1) := by
  intro stack ts t hts hopen hfits hends
  obtain ⟨o, us, rfl, ho, hus⟩ := List.map_eq_cons_iff.1 hts
  have hd := depth_pos e
  have hdepth : (Expr.not e).depth = 1 + e.depth := by simp [Expr.depth]
  have hstep : step limit (.operand stack) o = enter limit (.not :: stack) := by
    cases stack with
    | nil => simp [step, startOperand, ho]
    | cons f stack =>
      rw [Level.fits_cons] at hfits
      cases f <;> simp_all [step, startOperand, waitsFor, Level.rank]
  rw [List.cons_append, run_cons, hstep, enter_eq, opened_push _ _ rfl]
  by_cases hA : opened stack + 1 ≤ limit
  · have hfits : Level.not.Fits (.not :: stack) := by
      rw [Level.fits_cons]
      exact Nat.le_refl _
    rw [if_pos hA, ok_bind, h (.not :: stack) us t hus (by rw [opened_push _ _ rfl]; exact hA)
      hfits hends, opened_push _ _ rfl,
      afterOperand_cons limit .not .not stack e t rfl (by decide) hends, close_eq, ite_ok_bind,
      ← ite_and]
    simp only [Frame.plug]
    exact if_congr (by omega) rfl rfl
  · rw [if_neg hA, error_bind, if_neg (by omega)]

theorem reads_binary {l la lb : Level} {a b : Expr} {p q : List Kind} {m n : Nat} (k : Kind)
    (f : Frame) (ha : (Phrase.expr la a).Reads limit p m) (hb : (Phrase.expr lb b).Reads limit q n)
    (hla : l.rank ≤ la.rank) (hlb : l.rank ≤ lb.rank) (hl : l.rank < Level.primary.rank)
    (hk : la.Ends k) (hf : f.strength = l.rank) (hwait : waitsFor f = lb)
    (hopening : f.isOpening = false) (hdepth : (f.plug b).depth = 1 + max a.depth b.depth)
    (hop : ∀ stack t, t.kind = k → l.Fits stack →
      afterOperand limit stack a t = .ok (.operand (f :: stack))) :
    (Phrase.expr l (f.plug b)).Reads limit (p ++ k :: q) (max m n) := by
  intro stack ts t hts hopen hfits hends
  obtain ⟨as, rest, rfl, has, hrest⟩ := List.map_eq_append_iff.1 hts
  obtain ⟨o, bs, rfl, ho, hbs⟩ := List.map_eq_cons_iff.1 hrest
  have hda := depth_pos a
  have hdb := depth_pos b
  have hopened : opened (f :: stack) = opened stack := by simp [opened_cons, hopening]
  have hfitsb : lb.Fits (f :: stack) := by
    rw [Level.fits_cons]
    exact Nat.le_of_eq (congrArg Level.rank hwait)
  have hsplit : as ++ o :: bs ++ [t] = (as ++ [o]) ++ (bs ++ [t]) := by simp
  rw [hsplit, run_append, ha stack as o has hopen (hfits.mono hla) (ho ▸ hk), hop stack o ho hfits,
    ite_ok_bind, hb (f :: stack) bs t hbs (by omega) hfitsb (hends.mono hlb), hopened,
    afterOperand_cons limit l f stack b t hf hl hends, close_eq, ite_ok_bind, ← ite_and, ← ite_and]
  exact if_congr (by omega) rfl rfl

theorem reads_group {e : Expr} {p : List Kind} {n : Nat} (h : (Phrase.expr .or e).Reads limit p n) :
    (Phrase.expr .primary e).Reads limit (.leftParen :: (p ++ [.rightParen])) (n + 1) := by
  intro stack ts t hts hopen hfits hends
  obtain ⟨o, rest, rfl, ho, hrest⟩ := List.map_eq_cons_iff.1 hts
  obtain ⟨us, cs, rfl, hus, hcs⟩ := List.map_eq_append_iff.1 hrest
  obtain ⟨c, rfl, hc⟩ := List.map_eq_singleton_iff.1 hcs
  have hstep : step limit (.operand stack) o = enter limit (.group :: stack) := by
    simp [step, startOperand, ho]
  rw [List.cons_append, run_cons, hstep, enter_eq, opened_push _ _ rfl]
  by_cases hA : opened stack + 1 ≤ limit
  · have hfits : Level.or.Fits (.group :: stack) := by
      rw [Level.fits_cons]
      exact Nat.le_refl _
    rw [if_pos hA, ok_bind, run_append, h (.group :: stack) us c hus
      (by rw [opened_push _ _ rfl]; exact hA) hfits (by simp [Level.Ends, hc]),
      opened_push _ _ rfl, afterOperand_group limit stack e c hc, ← ite_and, ite_ok_bind,
      run_singleton]
    exact if_congr (by omega) rfl rfl
  · rw [if_neg hA, error_bind, if_neg (by omega)]

/-! ## Paths and calls -/

theorem run_dotted (stack : List Frame) (segments : List String) (ts : List Token)
    (h : segments ≠ []) (hts : ts.map Token.kind = dotted segments) :
    run limit (.operand stack) ts = .ok (.name stack segments) := by
  induction segments using List.reverseRecOn generalizing ts with
  | nil => exact absurd rfl h
  | append_singleton segments s ih =>
    by_cases hs : segments = []
    · subst hs
      obtain ⟨x, rfl, hx⟩ := List.map_eq_singleton_iff.1 hts
      rw [run_singleton]
      simp [step, startOperand, hx]
    · rw [dotted_append _ _ hs] at hts
      obtain ⟨us, rest, rfl, hus, hrest⟩ := List.map_eq_append_iff.1 hts
      obtain ⟨x, ys, rfl, hx, hys⟩ := List.map_eq_cons_iff.1 hrest
      obtain ⟨y, rfl, hy⟩ := List.map_eq_singleton_iff.1 hys
      rw [run_append, ih us hs hus, ok_bind, run_cons]
      simp [step, hx, hy, run_singleton, ok_bind]

theorem reads_var (segments : List String) (h : segments ≠ []) :
    (Phrase.expr .primary (.var (.ofSegments segments))).Reads limit (dotted segments) 0 := by
  intro stack ts t hts hopen hfits hends
  obtain ⟨hdot, hparen, -, -⟩ := hends
  have hdepth : (Expr.var (.ofSegments segments)).depth = 1 := by simp [Expr.depth]
  rw [if_pos ⟨hopen, by omega⟩, run_append, run_dotted stack segments ts h hts, ok_bind,
    run_singleton]
  cases hk : t.kind <;> simp_all [step]

theorem run_call (stack : List Frame) (segments : List String) (ts : List Token) (o : Token)
    (h : segments ≠ []) (hts : ts.map Token.kind = dotted segments) (ho : o.kind = .leftParen) :
    run limit (.operand stack) (ts ++ [o]) =
      enter limit (.call (Path.ofSegments segments).text [] :: stack) := by
  rw [run_append, run_dotted stack segments ts h hts, ok_bind, run_singleton]
  simp [step, ho]

theorem reads_call_nil (segments : List String) (h : segments ≠ []) :
    (Phrase.expr .primary (.call (Path.ofSegments segments).text [])).Reads limit
      (dotted segments ++ [.leftParen, .rightParen]) 1 := by
  intro stack ts t hts hopen hfits hends
  obtain ⟨us, rest, rfl, hus, hrest⟩ := List.map_eq_append_iff.1 hts
  obtain ⟨o, cs, rfl, ho, hcs⟩ := List.map_eq_cons_iff.1 hrest
  obtain ⟨c, rfl, hc⟩ := List.map_eq_singleton_iff.1 hcs
  have hdepth : (Expr.call (Path.ofSegments segments).text []).depth = 1 := by
    simp [Expr.depth, Expr.maxDepth]
  have hsplit : us ++ [o, c] ++ [t] = (us ++ [o]) ++ [c, t] := by simp
  rw [hsplit, run_append, run_call stack segments us o h hus ho, enter_eq, opened_push _ _ rfl]
  by_cases hA : opened stack + 1 ≤ limit
  · rw [if_pos hA, if_pos ⟨hA, by omega⟩, ok_bind, run_cons]
    simp [step, startOperand, hc, ok_bind, run_singleton]
  · rw [if_neg hA, error_bind, if_neg (by omega)]

theorem reads_call (segments : List String) (args : List Expr) {p : List Kind} {n : Nat}
    (h : segments ≠ []) (hargs : (Phrase.arguments args).Reads limit p n) :
    (Phrase.expr .primary (.call (Path.ofSegments segments).text args)).Reads limit
      (dotted segments ++ .leftParen :: (p ++ [.rightParen])) (n + 1) := by
  intro stack ts t hts hopen hfits hends
  obtain ⟨us, rest, rfl, hus, hrest⟩ := List.map_eq_append_iff.1 hts
  obtain ⟨o, ws, rfl, ho, hws⟩ := List.map_eq_cons_iff.1 hrest
  obtain ⟨vs, cs, rfl, hvs, hcs⟩ := List.map_eq_append_iff.1 hws
  obtain ⟨c, rfl, hc⟩ := List.map_eq_singleton_iff.1 hcs
  have hsplit : us ++ o :: (vs ++ [c]) ++ [t] = (us ++ [o]) ++ ((vs ++ [c]) ++ [t]) := by simp
  rw [hsplit, run_append, run_call stack segments us o h hus ho, enter_eq, opened_push _ _ rfl]
  by_cases hA : opened stack + 1 ≤ limit
  · rw [if_pos hA, ok_bind, run_append, hargs stack _ vs c hvs hA (Or.inr hc),
      if_neg (show c.kind ≠ .comma by simp [hc]), ite_ok_bind, run_singleton]
    exact if_congr (by omega) rfl rfl
  · rw [if_neg hA, error_bind, if_neg (by omega)]

theorem reads_argument {e : Expr} {p : List Kind} {n : Nat}
    (h : (Phrase.expr .or e).Reads limit p n) : (Phrase.arguments [e]).Reads limit p n := by
  intro stack name ts t hts hopen ht
  have hends : Level.or.Ends t.kind := by rcases ht with ht | ht <;> simp [Level.Ends, ht]
  have hdepth : (Expr.call name [e]).depth = 1 + e.depth := by simp [Expr.depth, Expr.maxDepth]
  rw [h (.call name [] :: stack) ts t hts (by rw [opened_push _ _ rfl]; exact hopen)
    (by rw [Level.fits_cons]; exact Nat.le_refl _) hends, opened_push _ _ rfl,
    afterOperand_call limit stack name [] e t ht, List.nil_append, ← ite_and]
  exact if_congr (by omega) rfl rfl

theorem reads_comma {args : List Expr} {e : Expr} {p q : List Kind} {m n : Nat}
    (hargs : (Phrase.arguments args).Reads limit p m)
    (he : (Phrase.expr .or e).Reads limit q n) :
    (Phrase.arguments (args ++ [e])).Reads limit (p ++ .comma :: q) (max m n) := by
  intro stack name ts t hts hopen ht
  obtain ⟨us, rest, rfl, hus, hrest⟩ := List.map_eq_append_iff.1 hts
  obtain ⟨o, vs, rfl, ho, hvs⟩ := List.map_eq_cons_iff.1 hrest
  have hends : Level.or.Ends t.kind := by rcases ht with ht | ht <;> simp [Level.Ends, ht]
  have hdepth : (Expr.call name (args ++ [e])).depth =
      max (Expr.call name args).depth (1 + e.depth) := by
    simp only [Expr.depth, maxDepth_append]
    omega
  have hsplit : us ++ o :: vs ++ [t] = (us ++ [o]) ++ (vs ++ [t]) := by simp
  rw [hsplit, run_append, hargs stack name us o hus hopen (Or.inl ho)]
  rw [if_pos ho, ite_ok_bind, he (.call name args :: stack) vs t hvs
    (by rw [opened_push _ _ rfl]; exact hopen) (by rw [Level.fits_cons]; exact Nat.le_refl _)
    hends, opened_push _ _ rfl, afterOperand_call limit stack name args e t ht, ← ite_and, ← ite_and]
  exact if_congr (by omega) rfl rfl

/-! ## All phrases -/

theorem Derives.reads {phrase : Phrase} {p : List Kind} {n : Nat} (h : Derives phrase p n)
    (limit : Nat) : phrase.Reads limit p n := by
  induction h with
  | or_and _ ih => exact reads_loosen ih (by decide)
  | and_not _ ih => exact reads_loosen ih (by decide)
  | not_comparison _ ih => exact reads_loosen ih (by decide)
  | comparison_primary _ ih => exact reads_loosen ih (by decide)
  | @or a b p q m n _ _ iha ihb =>
    refine reads_binary .or (.or a) iha ihb (by decide) (by decide) (by decide)
      (by simp [Level.Ends]) rfl rfl rfl (by simp [Frame.plug, Expr.depth]) ?_
    intro stack t ht hfits
    exact afterOperand_or limit stack a t ht hfits
  | @and a b p q m n _ _ iha ihb =>
    refine reads_binary .and (.and a) iha ihb (by decide) (by decide) (by decide)
      (by simp [Level.Ends, Level.rank]) rfl rfl rfl (by simp [Frame.plug, Expr.depth]) ?_
    intro stack t ht hfits
    exact afterOperand_and limit stack a t ht hfits
  | @compare op a b p q m n _ _ iha ihb =>
    refine reads_binary (.compare op) (.compare op a) iha ihb (by decide) (by decide) (by decide)
      (by simp [Level.Ends, Level.rank]) rfl rfl rfl (by simp [Frame.plug, Expr.depth]) ?_
    intro stack t ht hfits
    exact afterOperand_compare limit stack a t op ht hfits
  | not _ ih => exact reads_not ih
  | true => exact reads_leaf _ _ (by simp [Expr.depth]) fun _ _ h => by simp [startOperand, h]
  | false => exact reads_leaf _ _ (by simp [Expr.depth]) fun _ _ h => by simp [startOperand, h]
  | number => exact reads_leaf _ _ (by simp [Expr.depth]) fun _ _ h => by simp [startOperand, h]
  | string => exact reads_leaf _ _ (by simp [Expr.depth]) fun _ _ h => by simp [startOperand, h]
  | group _ ih => exact reads_group ih
  | var h => exact reads_var _ h
  | call_nil h => exact reads_call_nil _ h
  | call h _ ih => exact reads_call _ _ h ih
  | argument _ ih => exact reads_argument ih
  | comma _ _ ihargs ihe => exact reads_comma ihargs ihe

end Promotions.Grammar
