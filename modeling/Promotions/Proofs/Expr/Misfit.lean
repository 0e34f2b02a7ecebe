import Promotions.Proofs.Expr.Limits
import Promotions.Proofs.Token.Tiling

/-!
# The first token that does not fit

What the reader has taken can always be completed to a sentence: the open constructs are closed one
after the other (`Spells.viable`). What it refuses cannot, since a sentence is read under a limit
that is large enough, and the refused token is refused under that limit as well.
-/

namespace Promotions

/-- Where the error stands. Nesting that is too deep has no place of its own. -/
def ParseError.offset? : ParseError → Option Nat
  | unexpectedToken _ found => some found.offset
  | expectedIdentifier found => some found.offset
  | chainedComparison _ offset => some offset
  | tooDeep _ => none

namespace Grammar

open Token (Kind)
open Parse

/-- A whole condition, whatever its depth. -/
def Sentence (p : List Kind) : Prop := ∃ e n, Derives (.expr .or e) p n

/-- Some sentence starts like that. -/
def Viable (p : List Kind) : Prop := ∃ q, Sentence (p ++ q)

theorem Viable.of_append {p q : List Kind} (h : Viable (p ++ q)) : Viable p := by
  obtain ⟨r, hr⟩ := h
  rw [List.append_assoc] at hr
  exact ⟨q ++ r, hr⟩

variable {limit : Nat} {stack : List Frame} {p q : List Kind} {e : Expr}

/-! ## What has been read -/

theorem Begun.arguments {args : List Expr} {n : Nat} (h : Begun limit stack p args)
    (he : Derives (.expr .or e) q n) : ∃ m, Derives (.arguments (args ++ [e])) (p ++ q) m := by
  cases h with
  | nil => exact ⟨n, .argument he⟩
  | @comma p args m hargs _ =>
    refine ⟨max m n, ?_⟩
    simpa using Derives.comma hargs he

theorem Spells.viable {level : Level} {n : Nat} (h : Spells limit stack p)
    (he : Derives (.expr level e) q n) (hfits : level.Fits stack) : Viable (p ++ q) := by
  induction h generalizing q e n level with
  | nil =>
    have hor : Derives (.expr .or e) q n := he.loosen level.rank_pos
    exact ⟨[], e, n, by simpa using hor⟩
  | or hstack hl ha ih =>
    obtain ⟨m, ha, -⟩ := ha
    rw [Level.fits_cons] at hfits
    simpa using ih (.or ha (he.loosen hfits)) hl
  | and hstack hl ha ih =>
    obtain ⟨m, ha, -⟩ := ha
    rw [Level.fits_cons] at hfits
    simpa using ih (.and ha (he.loosen hfits)) hl
  | compare hstack hl ha ih =>
    obtain ⟨m, ha, -⟩ := ha
    rw [Level.fits_cons] at hfits
    simpa using ih (.compare ha (he.loosen hfits)) hl
  | not hstack hl _ ih =>
    rw [Level.fits_cons] at hfits
    simpa using ih (.not (he.loosen hfits)) hl
  | group hstack _ ih =>
    have hclosed := ih (.group (he.loosen level.rank_pos)) (fits_primary _)
    exact Viable.of_append (q := [.rightParen]) (by simpa using hclosed)
  | call hstack _ hsegments hargs ih =>
    obtain ⟨m, hargs⟩ := hargs.arguments (he.loosen level.rank_pos)
    have hclosed := ih (.call hsegments hargs) (fits_primary _)
    exact Viable.of_append (q := [.rightParen]) (by simpa using hclosed)

theorem Reached.viable {s : State} (h : Reached limit s p) (hs : ∀ e, s ≠ .accepted e) :
    Viable p := by
  cases h with
  | operand hstack => exact (hstack.viable .true (fits_primary _)).of_append
  | name hstack hsegments => exact hstack.viable (.var hsegments) (fits_primary _)
  | complete hstack he =>
    obtain ⟨n, he, -⟩ := he
    exact hstack.viable he (fits_primary _)
  | @dot stack p segments hstack hsegments =>
    have hpath := hstack.viable (.var (by simp : segments ++ ["x"] ≠ [])) (fits_primary _)
    rw [dotted_append _ _ hsegments] at hpath
    exact Viable.of_append (q := [.ident "x"]) (by simpa using hpath)
  | accepted _ => exact absurd rfl (hs _)

/-! ## What is refused -/

theorem ofTokens_of_step_error {s : State} {before : List Token} {t : Token} {err : ParseError}
    (hrun : run limit (.operand []) before = .ok s) (hstep : step limit s t = .error err)
    (after : List Token) : Expr.ofTokens limit (before ++ t :: after) = .error err := by
  unfold Expr.ofTokens
  dsimp only
  rw [List.append_assoc, run_append, hrun, ok_bind, List.cons_append, run_cons, hstep, error_bind]

/-- No sentence stands before an end of input that is refused, and none goes on with any other
token that is. -/
theorem not_derives_of_step_error {s : State} {before : List Token} {t : Token} {err : ParseError}
    (hrun : run limit (.operand []) before = .ok s) (hstep : step limit s t = .error err)
    (hdeep : err ≠ .tooDeep limit) :
    (t.kind = .endOfInput → ¬Sentence (before.map Token.kind)) ∧
      (t.kind ≠ .endOfInput → ¬Viable (before.map Token.kind ++ [t.kind])) := by
  have hfails : ∀ M after, limit ≤ M → Expr.ofTokens M (before ++ t :: after) = .error err := by
    intro M after hM
    have hstepM := ((judged_step hM s t).eq_error hstep hdeep).1
    exact ofTokens_of_step_error (run_of_le hM hrun) hstepM after
  constructor
  · rintro ht ⟨e, n, hd⟩
    have hread : Expr.ofTokens (limit + n + e.depth) (before ++ [t]) = _ :=
      ofTokens_of_derives hd ht
    rw [if_pos (by omega), hfails _ _ (by omega)] at hread
    cases hread
  · rintro - ⟨q, e, n, hd⟩
    -- The rest of the sentence, as tokens.
    let rest : List Token := q.map fun k => ⟨k, 0⟩
    let last : Token := ⟨.endOfInput, 0⟩
    have hkinds : (before ++ t :: rest).map Token.kind =
        before.map Token.kind ++ [t.kind] ++ q := by
      simp [rest, Function.comp_def]
    rw [← hkinds] at hd
    have hread : Expr.ofTokens (limit + n + e.depth) (before ++ t :: rest ++ [last]) = _ :=
      ofTokens_of_derives hd rfl
    rw [if_pos (by omega), List.append_assoc, List.cons_append, hfails _ _ (by omega)] at hread
    cases hread

/-! ## The place of an error -/

theorem accepted_of_afterOperand {s : State} {t : Token} (ht : t.kind = .endOfInput)
    (h : afterOperand limit stack e t = .ok s) : ∃ e', s = .accepted e' := by
  simp only [afterOperand, ht] at h
  obtain ⟨⟨stack', e'⟩, -, hend⟩ := (bind_eq_ok_iff _ _ _).1 h
  cases stack' with
  | nil =>
    rw [endOperators, if_pos ht] at hend
    exact ⟨e', (Except.ok.inj hend).symm⟩
  | cons f outer =>
    -- An open bracket is not closed by the end of input.
    obtain ⟨whole, -, hclosed⟩ := (bind_eq_ok_iff _ _ _).1 hend
    cases f <;> simp [ht] at hclosed

theorem accepted_of_step {s s' : State} {t : Token} (ht : t.kind = .endOfInput)
    (h : step limit s t = .ok s') : ∃ e, s' = .accepted e := by
  cases s with
  | operand stack => simp [step, startOperand, ht] at h
  | dot stack segments => simp [step, ht] at h
  | accepted e => exact ⟨e, (Except.ok.inj h).symm⟩
  | complete stack e => exact accepted_of_afterOperand ht h
  | name stack segments =>
    simp only [step, ht] at h
    exact accepted_of_afterOperand ht h

theorem exists_of_ofTokens_error {us : List Token} {last : Token} {err : ParseError}
    (hlast : last.kind = .endOfInput) (h : Expr.ofTokens limit (us ++ [last]) = .error err)
    (hdeep : err ≠ .tooDeep limit) :
    ∃ before t after s, us ++ [last] = before ++ t :: after ∧
      run limit (.operand []) before = .ok s ∧ step limit s t = .error err := by
  unfold Expr.ofTokens at h
  dsimp only at h
  cases hrun : run limit (.operand []) (us ++ [last]) with
  | error err' =>
    obtain ⟨before, t, after, s, htokens, hbefore, hstep⟩ := exists_of_run_error hrun
    rw [run_append, hrun, error_bind] at h
    obtain rfl := Except.error.inj h
    exact ⟨before, t, after, s, htokens, hbefore, hstep⟩
  | ok s =>
    -- All tokens are read, so the last one was accepted and the rest changes nothing.
    have hall := hrun
    rw [run_append] at hall
    obtain ⟨s', -, hend⟩ := (bind_eq_ok_iff _ _ _).1 hall
    rw [run_singleton] at hend
    obtain ⟨e, rfl⟩ := accepted_of_step hlast hend
    rw [run_append, hrun, ok_bind, run_accepted] at h
    cases h

theorem offset?_of_about {t : Token} {err : ParseError} (h : About t err) :
    err.offset? = some t.offset := by
  cases h <;> rfl

/-- An error with a place stands at the first token that does not fit: the tokens before it start a
sentence. With the token they start none, or, where it is the end of input, they are none. -/
theorem error_at_first_misfit (limit : Nat) (text : String) (ts : List Token) (err : ParseError)
    (offset : Nat) (hscan : Token.scan text = .ok ts) (hread : Expr.ofTokens limit ts = .error err)
    (hoffset : err.offset? = some offset) :
    ∃ k t, ts[k]? = some t ∧ t.offset = offset ∧ About t err ∧
      (∀ (i : Nat) u, ts[i]? = some u → u.offset = offset → i = k) ∧
      Viable ((ts.take k).map Token.kind) ∧
      (t.kind ≠ .endOfInput → ¬Viable ((ts.take (k + 1)).map Token.kind)) ∧
      (t.kind = .endOfInput → ¬Sentence ((ts.take k).map Token.kind)) := by
  have htiles := Token.tiles_scanFrom 0 text.toList ts hscan
  have hincrease := htiles.offsets_increase
  have hdeep : err ≠ .tooDeep limit := by
    rintro rfl
    cases hoffset
  obtain ⟨us, rfl, -⟩ := htiles.ends
  obtain ⟨before, t, after, s, htokens, hrun, hstep⟩ := exists_of_ofTokens_error rfl hread hdeep
  rw [htokens] at hincrease ⊢
  have habout := ((judged_step (Nat.le_refl limit) s t).eq_error hstep hdeep).2
  have ht : t.offset = offset := by
    rw [offset?_of_about habout, Option.some.injEq] at hoffset
    exact hoffset
  obtain ⟨hend, hmiddle⟩ := not_derives_of_step_error hrun hstep hdeep
  have hget : (before ++ t :: after)[before.length]? = some t := by simp
  refine ⟨before.length, t, hget, ht, habout, ?_, ?_, ?_, ?_⟩
  · intro i u hu huoffset
    exact Token.index_eq_of_offset_eq hincrease hu hget (huoffset.trans ht.symm)
  · have hreached := (Reached.operand .nil).run hrun
    rw [List.take_left]
    refine hreached.viable ?_
    rintro e rfl
    cases hstep
  · intro hkind
    rw [List.take_length_add_append, List.map_append]
    exact hmiddle hkind
  · intro hkind
    rw [List.take_left]
    exact hend hkind

/-- A `not` without an operand, in a call that is still open. -/
def unfinished : List Token :=
  [⟨.ident "f", 0⟩, ⟨.leftParen, 1⟩, ⟨.ident "a", 2⟩, ⟨.comma, 3⟩, ⟨.not, 5⟩, ⟨.rightParen, 8⟩,
   ⟨.endOfInput, 9⟩]

theorem error_at_first_misfit_unfinished :
    Token.scan "f(a, not)" = .ok unfinished ∧
      Expr.ofTokens 64 unfinished = .error (.unexpectedToken .expression ⟨.rightParen, 8⟩) ∧
      Viable [.ident "f", .leftParen, .ident "a", .comma, .not] ∧
      ¬Viable [.ident "f", .leftParen, .ident "a", .comma, .not, .rightParen] := by
  have hscan : Token.scan "f(a, not)" = .ok unfinished := by decide +kernel
  have hread : Expr.ofTokens 64 unfinished =
      .error (.unexpectedToken .expression ⟨.rightParen, 8⟩) := rfl
  obtain ⟨k, t, hk, -, -, hunique, hviable, hmisfit, -⟩ :=
    error_at_first_misfit 64 "f(a, not)" unfinished _ 8 hscan hread rfl
  obtain rfl : 5 = k := hunique 5 ⟨.rightParen, 8⟩ rfl rfl
  obtain rfl : (⟨.rightParen, 8⟩ : Token) = t := Option.some.inj hk
  exact ⟨hscan, hread, hviable, hmisfit (by decide)⟩

end Grammar

end Promotions
