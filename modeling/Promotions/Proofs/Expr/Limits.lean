import Promotions.Proofs.Expr.Acceptance

/-!
# Reading under two limits

A token is judged alike under a small and under a large limit, unless it goes too deep under the
small one. Every other error is about the token itself. `Judged` says both of a single step, and
so a run comes as far under the large limit (`run_of_le`).
-/

namespace Promotions.Grammar

open Token (Kind)
open Parse

/-! ## Errors -/

/-- The error names the token. -/
inductive About (t : Token) : ParseError → Prop where
  | unexpectedToken (expected : ParseError.Expected) : About t (.unexpectedToken expected t)
  | expectedIdentifier : About t (.expectedIdentifier t)
  | chainedComparison (op : Comparator) : t.kind = .compare op →
      About t (.chainedComparison op t.offset)

/-- What becomes of a token under a limit `m`, beside the same under a larger limit. -/
inductive Judged {α : Type} (m : Nat) (t : Token) :
    Except ParseError α → Except ParseError α → Prop where
  | ok (a : α) : Judged m t (.ok a) (.ok a)
  | misfit {err : ParseError} : About t err → Judged m t (.error err) (.error err)
  | tooDeep (y : Except ParseError α) : Judged m t (.error (.tooDeep m)) y

variable {m M : Nat} {t : Token}

theorem Judged.bind {α β : Type} {x y : Except ParseError α} {f g : α → Except ParseError β}
    (h : Judged m t x y) (hfg : ∀ a, Judged m t (f a) (g a)) : Judged m t (x >>= f) (y >>= g) := by
  cases h with
  | ok a => exact hfg a
  | misfit habout => exact .misfit habout
  | tooDeep y => exact .tooDeep _

theorem Judged.eq_error {α : Type} {x y : Except ParseError α} {err : ParseError}
    (h : Judged m t x y) (hx : x = .error err) (hdeep : err ≠ .tooDeep m) :
    y = .error err ∧ About t err := by
  cases h with
  | ok a' => cases hx
  | misfit habout =>
    obtain rfl := Except.error.inj hx
    exact ⟨rfl, habout⟩
  | tooDeep _ => exact absurd (Except.error.inj hx).symm hdeep

theorem judged_ite {α : Type} (a : α) {n : Nat} (hM : m ≤ M) :
    Judged m t (if n ≤ m then .ok a else .error (.tooDeep m))
      (if n ≤ M then .ok a else .error (.tooDeep M)) := by
  by_cases hn : n ≤ m
  · rw [if_pos hn, if_pos (Nat.le_trans hn hM)]
    exact .ok a
  · rw [if_neg hn]
    exact .tooDeep _

/-! ## One step -/

theorem judged_close (hM : m ≤ M) (f : Frame) (e : Expr) :
    Judged m t (f.close m e) (f.close M e) := by
  rw [close_eq, close_eq]
  exact judged_ite (f.plug e) hM

theorem judged_enter (hM : m ≤ M) (stack : List Frame) :
    Judged m t (enter m stack) (enter M stack) := by
  rw [enter_eq, enter_eq]
  exact judged_ite (State.operand stack) hM

theorem judged_reduce (hM : m ≤ M) (strength : Nat) (stack : List Frame) (e : Expr) :
    Judged m t (reduce m strength stack e) (reduce M strength stack e) := by
  induction stack generalizing e with
  | nil => exact .ok _
  | cons f stack ih =>
    by_cases hs : strength ≤ f.strength
    · rw [reduce_cons m f stack e hs, reduce_cons M f stack e hs]
      exact (judged_close hM f e).bind ih
    · rw [reduce, reduce, if_neg hs, if_neg hs]
      exact .ok _

theorem judged_startOperand (hM : m ≤ M) (stack : List Frame) (t : Token) :
    Judged m t (startOperand m stack t) (startOperand M stack t) := by
  unfold startOperand
  split
  case h_6 => exact judged_enter hM _
  case h_8 => exact judged_enter hM _
  case h_7 => exact .misfit (.unexpectedToken _)
  case h_10 => exact .misfit (.unexpectedToken _)
  all_goals exact .ok _

theorem judged_endOperators (hM : m ≤ M) (stack : List Frame) (e : Expr) (t : Token) :
    Judged m t (endOperators stack m e t) (endOperators stack M e t) := by
  cases stack with
  | nil =>
    by_cases ht : t.kind = .endOfInput
    · simp only [endOperators, if_pos ht]
      exact .ok _
    · simp only [endOperators, if_neg ht]
      exact .misfit (.unexpectedToken _)
  | cons f outer =>
    apply (judged_close hM f e).bind
    intro whole
    split
    case h_1 => exact .ok _
    case h_2 => exact .ok _
    case h_3 => exact .misfit (.unexpectedToken _)
    case h_4 => exact .misfit (.unexpectedToken _)

theorem judged_afterOperand (hM : m ≤ M) (stack : List Frame) (e : Expr) (t : Token) :
    Judged m t (afterOperand m stack e t) (afterOperand M stack e t) := by
  unfold afterOperand
  split
  case h_1 op hop =>
    split
    · exact .misfit (.chainedComparison op hop)
    · exact .ok _
  case h_2 => exact (judged_reduce hM 2 stack e).bind fun _ => .ok _
  case h_3 => exact (judged_reduce hM 1 stack e).bind fun _ => .ok _
  case h_4 => exact (judged_reduce hM 1 stack e).bind fun r => judged_endOperators hM r.1 r.2 t

theorem judged_step (hM : m ≤ M) (s : State) (t : Token) :
    Judged m t (step m s t) (step M s t) := by
  cases s with
  | operand stack => exact judged_startOperand hM stack t
  | complete stack e => exact judged_afterOperand hM stack e t
  | accepted e => exact .ok _
  | name stack segments =>
    unfold step
    dsimp only
    split
    · exact .ok _
    · exact judged_enter hM _
    · exact judged_afterOperand hM stack _ t
  | dot stack segments =>
    unfold step
    dsimp only
    split
    · exact .ok _
    · exact .misfit .expectedIdentifier

/-! ## Runs -/

/-- A run that does not go too deep comes to the same under a larger limit, and fails on one of its
tokens only. -/
theorem run_judged (hM : m ≤ M) (s : State) (ts : List Token) :
    run m s ts = .error (.tooDeep m) ∨
      run M s ts = run m s ts ∧ ∀ err, run m s ts = .error err → ∃ t ∈ ts, About t err := by
  induction ts generalizing s with
  | nil =>
    refine .inr ⟨rfl, ?_⟩
    intro err h
    cases h
  | cons t ts ih =>
    rw [run_cons, run_cons]
    have hjudged := judged_step hM s t
    generalize step m s t = x at hjudged ⊢
    generalize step M s t = y at hjudged ⊢
    cases hjudged with
    | ok next =>
      rcases ih next with hdeep | ⟨hsame, habout⟩
      · exact .inl hdeep
      · refine .inr ⟨hsame, fun err h => ?_⟩
        obtain ⟨u, hu, hmisfit⟩ := habout err h
        exact ⟨u, List.mem_cons_of_mem t hu, hmisfit⟩
    | misfit hmisfit =>
      refine .inr ⟨rfl, fun err h => ?_⟩
      rw [← Except.error.inj h]
      exact ⟨t, List.mem_cons_self, hmisfit⟩
    | tooDeep y => exact .inl rfl

theorem run_of_le (hM : m ≤ M) {s s' : State} {ts : List Token} (h : run m s ts = .ok s') :
    run M s ts = .ok s' := by
  rcases run_judged hM s ts with hdeep | ⟨hsame, -⟩
  · rw [hdeep] at h
    cases h
  · rw [hsame, h]

theorem exists_of_run_error {s : State} {ts : List Token} {err : ParseError}
    (h : run m s ts = .error err) :
    ∃ before t after s', ts = before ++ t :: after ∧ run m s before = .ok s' ∧
      step m s' t = .error err := by
  induction ts generalizing s with
  | nil => cases h
  | cons t ts ih =>
    rw [run_cons] at h
    rcases (bind_eq_error_iff _ _ _).1 h with hstep | ⟨next, hstep, hrest⟩
    · exact ⟨[], t, ts, s, rfl, rfl, hstep⟩
    · obtain ⟨before, u, after, s', rfl, hrun, hfail⟩ := ih hrest
      refine ⟨t :: before, u, after, s', rfl, ?_, hfail⟩
      rw [run_cons, hstep, ok_bind, hrun]

/-! ## The whole token list -/

/-- Under a larger limit the answer is the same, be it a tree or an error, unless the tokens go too
deep under the smaller one. Tokens that go too deep are refused with the limit that was set. -/
theorem ofTokens_of_larger_limit (m M : Nat) (hM : m ≤ M) (tokens : List Token) :
    ((∀ k, Expr.ofTokens m tokens ≠ .error (.tooDeep k)) →
      Expr.ofTokens M tokens = Expr.ofTokens m tokens) ∧
    ∀ k, Expr.ofTokens m tokens = .error (.tooDeep k) → k = m := by
  unfold Expr.ofTokens
  dsimp only
  -- What is read in the end does not matter, only that it is the same under both limits.
  generalize tokens ++ _ = all
  rcases run_judged hM (.operand []) all with hdeep | ⟨hsame, habout⟩
  · rw [hdeep]
    refine ⟨fun h => absurd rfl (h m), fun k h => ?_⟩
    exact (ParseError.tooDeep.inj (Except.error.inj h)).symm
  rw [hsame]
  cases hrun : run m (.operand []) all with
  | error err =>
    refine ⟨fun _ => rfl, fun k h => ?_⟩
    obtain ⟨t, -, hmisfit⟩ := habout err hrun
    rw [Except.error.inj h] at hmisfit
    cases hmisfit
  | ok s =>
    cases s with
    | accepted e =>
      refine ⟨fun _ => rfl, fun k h => ?_⟩
      cases h
    | _ =>
      -- Nothing but opening tokens is left, so this goes too deep under every limit.
      refine ⟨fun h => absurd rfl (h m), fun k h => ?_⟩
      exact (ParseError.tooDeep.inj (Except.error.inj h)).symm

/-- A bracket that is not closed, without an end of input. The name is read again and again. -/
def unclosed : List Token := [⟨.leftParen, 0⟩, ⟨.not, 1⟩, ⟨.ident "a", 5⟩]

theorem ofTokens_of_larger_limit_unclosed :
    Expr.ofTokens 2 unclosed = .error (.unexpectedToken .rightParen ⟨.ident "a", 5⟩) ∧
      Expr.ofTokens 64 unclosed = Expr.ofTokens 2 unclosed ∧
      Expr.ofTokens 1 unclosed = .error (.tooDeep 1) ∧
      ∀ k, Expr.ofTokens 1 unclosed = .error (.tooDeep k) → k = 1 := by
  have hsmall : Expr.ofTokens 2 unclosed =
      .error (.unexpectedToken .rightParen ⟨.ident "a", 5⟩) := rfl
  have hshallow : ∀ k, Expr.ofTokens 2 unclosed ≠ .error (.tooDeep k) := by
    intro k h
    rw [hsmall] at h
    cases h
  exact ⟨hsmall, (ofTokens_of_larger_limit 2 64 (by decide) unclosed).1 hshallow, rfl,
    (ofTokens_of_larger_limit 1 64 (by decide) unclosed).2⟩

end Promotions.Grammar
