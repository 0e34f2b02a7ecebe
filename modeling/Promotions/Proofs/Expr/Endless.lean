import Promotions.Proofs.Expr.Misfit

/-!
# The last token, read for ever

The tokens never run out: past the end the last one is read again. The reader comes to a tree or an
error all the same. An opening token opens one construct more each time until too many are open, a
closing bracket ends one each time until none is left, and any other token cannot stand after
itself.
-/

namespace Promotions

/-- The text by which the error names a token. A second comparator is named by its sign. -/
def ParseError.found? : ParseError → Option String
  | unexpectedToken _ found => some found.kind.describe
  | expectedIdentifier found => some found.kind.describe
  | chainedComparison op _ => some op.sign
  | tooDeep _ => none

namespace Grammar

open Token (Kind)
open Parse

variable {limit : Nat} {stack : List Frame} {e : Expr} {t : Token} {s : State}

/-! ## Ends -/

/-- There is a tree or an error, whatever is read next. -/
inductive Ended : Except ParseError State → Prop where
  | error (err : ParseError) : Ended (.error err)
  | accepted (e : Expr) : Ended (.ok (.accepted e))

theorem Ended.run_append {ts : List Token} (h : Ended (run limit s ts)) (us : List Token) :
    run limit s (ts ++ us) = run limit s ts := by
  rw [Grammar.run_append]
  generalize run limit s ts = outcome at h ⊢
  cases h with
  | error err => rfl
  | accepted e => rw [ok_bind, run_accepted]

theorem Ended.run_replicate {ts : List Token} {m n : Nat}
    (h : Ended (run limit s (ts ++ List.replicate m t))) (hn : m ≤ n) :
    run limit s (ts ++ List.replicate n t) = run limit s (ts ++ List.replicate m t) := by
  obtain ⟨k, rfl⟩ := Nat.exists_eq_add_of_le hn
  rw [List.replicate_add, ← List.append_assoc, h.run_append]

/-! ## What a token leaves -/

/-- The token is an operand by itself. -/
def IsLiteral : Kind → Prop
  | .true | .false | .number _ | .string _ => True
  | _ => False

/-- An operand must follow the token, and the token opens nothing. -/
def Joins : Kind → Prop
  | .and | .or | .compare _ | .comma => True
  | _ => False

/-- An operand must follow the token, in a new construct. -/
def Opens : Kind → Prop
  | .not | .leftParen => True
  | _ => False

/-- The state after a token of the kind. -/
inductive Left (limit : Nat) : Kind → State → Prop where
  | joined {k : Kind} {stack : List Frame} (hk : Joins k) : Left limit k (.operand stack)
  | opened {k : Kind} {f : Frame} {stack : List Frame} (hk : Opens k) (hf : f.isOpening = true)
      (hopen : opened (f :: stack) ≤ limit) : Left limit k (.operand (f :: stack))
  | name {segment : String} {stack : List Frame} {segments : List String} :
      Left limit (.ident segment) (.name stack segments)
  | dot {stack : List Frame} {segments : List String} : Left limit .dot (.dot stack segments)
  | literal {k : Kind} {stack : List Frame} {e : Expr} (hk : IsLiteral k) :
      Left limit k (.complete stack e)
  | closed {stack : List Frame} {e : Expr} : Left limit .rightParen (.complete stack e)
  | accepted {k : Kind} {e : Expr} : Left limit k (.accepted e)

theorem length_of_reduce {strength : Nat} {r : List Frame × Expr}
    (h : reduce limit strength stack e = .ok r) : r.1.length ≤ stack.length := by
  induction stack generalizing e with
  | nil =>
    obtain rfl := Except.ok.inj h
    exact Nat.le_refl _
  | cons f stack ih =>
    by_cases hf : strength ≤ f.strength
    · rw [reduce_cons limit f stack e hf] at h
      obtain ⟨whole, -, h⟩ := (bind_eq_ok_iff _ _ _).1 h
      exact Nat.le_succ_of_le (ih h)
    · rw [reduce, if_neg hf] at h
      obtain rfl := Except.ok.inj h
      exact Nat.le_refl _

/-- What may follow an operand: a token that joins it to another one, a bracket that closes a
construct around it, or the end. -/
theorem afterOperand_cases (h : afterOperand limit stack e t = .ok s) :
    (Joins t.kind ∧ ∃ outer, s = .operand outer) ∨
    (t.kind = .rightParen ∧ ∃ outer whole, s = .complete outer whole ∧
      outer.length < stack.length) ∨
    (t.kind = .endOfInput ∧ ∃ whole, s = .accepted whole) := by
  unfold afterOperand at h
  split at h
  case h_1 op hk =>
    split at h
    · cases h
    · obtain rfl := Except.ok.inj h
      exact .inl ⟨by rw [hk]; trivial, _, rfl⟩
  case h_2 hk =>
    obtain ⟨r, -, hs⟩ := (bind_eq_ok_iff _ _ _).1 h
    exact .inl ⟨by rw [hk]; trivial, _, (Except.ok.inj hs).symm⟩
  case h_3 hk =>
    obtain ⟨r, -, hs⟩ := (bind_eq_ok_iff _ _ _).1 h
    exact .inl ⟨by rw [hk]; trivial, _, (Except.ok.inj hs).symm⟩
  case h_4 =>
    obtain ⟨⟨inner, e'⟩, hreduce, hend⟩ := (bind_eq_ok_iff _ _ _).1 h
    have hlength := length_of_reduce hreduce
    cases inner with
    | nil =>
      unfold endOperators at hend
      dsimp only at hend
      split at hend
      case isTrue hk => exact .inr (.inr ⟨hk, _, (Except.ok.inj hend).symm⟩)
      case isFalse => cases hend
    | cons f outer =>
      obtain ⟨whole, -, hclosed⟩ := (bind_eq_ok_iff _ _ _).1 hend
      split at hclosed
      case h_1 hk =>
        exact .inr (.inl ⟨hk, _, _, (Except.ok.inj hclosed).symm, hlength⟩)
      case h_2 hk => exact .inl ⟨by rw [hk]; trivial, _, (Except.ok.inj hclosed).symm⟩
      case h_3 => cases hclosed
      case h_4 => cases hclosed

theorem left_of_afterOperand (h : afterOperand limit stack e t = .ok s) : Left limit t.kind s := by
  rcases afterOperand_cases h with ⟨hk, _, rfl⟩ | ⟨hk, _, _, rfl, -⟩ | ⟨-, _, rfl⟩
  · exact .joined hk
  · rw [hk]
    exact .closed
  · exact .accepted

theorem left_of_enter {k : Kind} {f : Frame} (hk : Opens k) (hf : f.isOpening = true)
    (h : enter limit (f :: stack) = .ok s) : Left limit k s := by
  rw [enter_eq] at h
  split at h
  case isTrue hopen =>
    obtain rfl := Except.ok.inj h
    exact .opened hk hf hopen
  case isFalse => cases h

theorem left_of_startOperand (h : startOperand limit stack t = .ok s) : Left limit t.kind s := by
  unfold startOperand at h
  split at h
  case h_6 hk => exact left_of_enter (by rw [hk]; trivial) rfl h
  case h_8 hk _ => exact left_of_enter (by rw [hk]; trivial) rfl h
  case h_7 => cases h
  case h_10 => cases h
  all_goals
    rename_i hk
    obtain rfl := Except.ok.inj h
    rw [hk]
  case h_5 => exact .name
  case h_9 => exact .closed
  all_goals exact .literal trivial

theorem left_of_step {s' : State} (h : step limit s t = .ok s') : Left limit t.kind s' := by
  cases s with
  | operand stack => exact left_of_startOperand h
  | complete stack e => exact left_of_afterOperand h
  | accepted e =>
    obtain rfl := Except.ok.inj h
    exact .accepted
  | name stack segments =>
    unfold step at h
    dsimp only at h
    split at h
    case h_1 hk =>
      obtain rfl := Except.ok.inj h
      rw [hk]
      exact .dot
    case h_2 hk => exact left_of_enter (by rw [hk]; trivial) rfl h
    case h_3 => exact left_of_afterOperand h
  | dot stack segments =>
    unfold step at h
    dsimp only at h
    split at h
    case h_1 hk =>
      obtain rfl := Except.ok.inj h
      rw [hk]
      exact .name
    case h_2 => cases h

/-! ## One more reading -/

theorem ended_of_afterOperand (hjoins : ¬Joins t.kind) (hparen : t.kind ≠ .rightParen)
    (stack : List Frame) (e : Expr) : Ended (afterOperand limit stack e t) := by
  cases h : afterOperand limit stack e t with
  | error err => exact .error err
  | ok s =>
    rcases afterOperand_cases h with ⟨hk, -⟩ | ⟨hk, -⟩ | ⟨-, whole, rfl⟩
    · exact absurd hk hjoins
    · exact absurd hk hparen
    · exact .accepted whole

theorem ended_of_operand (hk : Joins t.kind ∨ t.kind = .endOfInput) (stack : List Frame) :
    Ended (step limit (.operand stack) t) := by
  unfold step startOperand
  dsimp only
  split
  case h_7 => exact .error _
  case h_10 => exact .error _
  case h_8 hnot _ => simp [hnot, Joins] at hk
  all_goals
    rename_i hkind
    simp [hkind, Joins] at hk

theorem ended_of_step (h : Ended (step limit s t)) (n : Nat) :
    Ended (run limit s (List.replicate (n + 1) t)) := by
  rw [← run_singleton] at h
  rwa [List.replicate_succ, ← List.singleton_append, h.run_append]

/-! ## Closing brackets -/

theorem step_rightParen (ht : t.kind = .rightParen) (stack : List Frame) (e : Expr) :
    (∃ err, step limit (.complete stack e) t = .error err) ∨
    ∃ outer whole, step limit (.complete stack e) t = .ok (.complete outer whole) ∧
      outer.length < stack.length := by
  cases h : step limit (.complete stack e) t with
  | error err => exact .inl ⟨err, rfl⟩
  | ok s =>
    rcases afterOperand_cases h with ⟨hk, -⟩ | ⟨-, outer, whole, rfl, hlength⟩ | ⟨hk, -⟩
    · rw [ht] at hk
      exact hk.elim
    · exact .inr ⟨outer, whole, rfl, hlength⟩
    · rw [ht] at hk
      cases hk

theorem ended_of_rightParens (ht : t.kind = .rightParen) {n : Nat} (hn : stack.length ≤ n) :
    Ended (run limit (.complete stack e) (List.replicate (n + 1) t)) := by
  induction n generalizing stack e with
  | zero =>
    rw [List.replicate_succ, run_cons]
    rcases step_rightParen ht stack e with ⟨err, hstep⟩ | ⟨outer, whole, -, hlength⟩
    · rw [hstep]
      exact .error err
    · omega
  | succ n ih =>
    rw [List.replicate_succ, run_cons]
    rcases step_rightParen ht stack e with ⟨err, hstep⟩ | ⟨outer, whole, hstep, hlength⟩
    · rw [hstep]
      exact .error err
    · rw [hstep]
      exact ih (by omega)

/-! ## Opening tokens -/

theorem exists_frame_of_opens (limit : Nat) (ht : Opens t.kind) :
    ∃ g : Frame, g.isOpening = true ∧ ∀ f stack, f.isOpening = true →
      step limit (.operand (f :: stack)) t = enter limit (g :: f :: stack) := by
  cases hk : t.kind with
  | not =>
    refine ⟨.not, rfl, fun f stack hf => ?_⟩
    cases f <;> simp_all [step, startOperand, Frame.isOpening]
  | leftParen =>
    refine ⟨.group, rfl, fun f stack hf => ?_⟩
    simp [step, startOperand, hk]
  | _ => simp [hk, Opens] at ht

theorem run_opening (ht : Opens t.kind) {f : Frame} (hf : f.isOpening = true)
    (hopen : opened (f :: stack) ≤ limit) (n : Nat) :
    run limit (.operand (f :: stack)) (List.replicate n t) = .error (.tooDeep limit) ∨
      ∃ inner, run limit (.operand (f :: stack)) (List.replicate n t) = .ok (.operand inner) ∧
        opened inner = opened (f :: stack) + n ∧ opened inner ≤ limit := by
  obtain ⟨g, hg, hstep⟩ := exists_frame_of_opens limit ht
  induction n generalizing f stack with
  | zero => exact .inr ⟨f :: stack, rfl, rfl, hopen⟩
  | succ n ih =>
    rw [List.replicate_succ, run_cons, hstep f stack hf, enter_eq]
    by_cases hroom : opened (g :: f :: stack) ≤ limit
    · rw [if_pos hroom, ok_bind]
      rcases ih hg hroom with hdeep | ⟨inner, hrun, hinner, hle⟩
      · exact .inl hdeep
      · rw [opened_push g _ hg] at hinner
        exact .inr ⟨inner, hrun, by omega, hle⟩
    · rw [if_neg hroom]
      exact .inl rfl

theorem tooDeep_of_opening (ht : Opens t.kind) {f : Frame} (hf : f.isOpening = true)
    (hopen : opened (f :: stack) ≤ limit) {n : Nat} (hn : limit < n) :
    run limit (.operand (f :: stack)) (List.replicate n t) = .error (.tooDeep limit) := by
  rcases run_opening ht hf hopen n with hdeep | ⟨inner, -, hinner, hle⟩
  · exact hdeep
  · omega

/-! ## The whole token list -/

theorem length_le_of_spells {p : List Kind} (h : Spells limit stack p) :
    stack.length ≤ p.length := by
  induction h with
  | nil => exact Nat.le_refl 0
  | _ => simp_all <;> omega

theorem ended_of_left {n : Nat} (h : Left limit t.kind s)
    (hn : ∀ stack e, s = .complete stack e → stack.length ≤ n) :
    Ended (run limit s (List.replicate (n + 1) t)) ∨
      run limit s (List.replicate (limit + 1) t) = .error (.tooDeep limit) := by
  generalize hk : t.kind = k at h
  cases h with
  | joined hjoins =>
    exact .inl (ended_of_step (ended_of_operand (.inl (hk ▸ hjoins)) _) n)
  | opened hopens hf hopen => exact .inr (tooDeep_of_opening (hk ▸ hopens) hf hopen (by omega))
  | name =>
    refine .inl (ended_of_step ?_ n)
    simp only [step, hk]
    exact ended_of_afterOperand (by simp [hk, Joins]) (by simp [hk]) _ _
  | dot =>
    refine .inl (ended_of_step ?_ n)
    simp only [step, hk]
    exact .error _
  | literal hliteral =>
    refine .inl (ended_of_step ?_ n)
    apply ended_of_afterOperand <;> rw [hk] <;> cases k <;> simp_all [IsLiteral, Joins]
  | closed => exact .inl (ended_of_rightParens hk (hn _ _ rfl))
  | accepted =>
    rw [run_accepted]
    exact .inl (.accepted _)

theorem ended_or_tooDeep (limit : Nat) (tokens : List Token) :
    let last := tokens.getLastD ⟨.endOfInput, 0⟩
    Ended (run limit (.operand []) (tokens ++ List.replicate (tokens.length + 1) last)) ∨
      run limit (.operand []) (tokens ++ List.replicate (limit + 1) last) =
        .error (.tooDeep limit) := by
  intro last
  rcases tokens.eq_nil_or_concat' with rfl | ⟨before, t, rfl⟩
  · exact .inl (ended_of_step (ended_of_operand (.inr rfl) []) 0)
  have hlast : last = t := by simp [last]
  rw [hlast, run_append limit _ (before ++ [t]), run_append limit _ (before ++ [t])]
  cases hrun : run limit (.operand []) (before ++ [t]) with
  | error err => exact .inl (.error err)
  | ok s =>
    have hreached := (Reached.operand .nil).run hrun
    rw [run_append] at hrun
    obtain ⟨s₀, -, hstep⟩ := (bind_eq_ok_iff _ _ _).1 hrun
    rw [run_singleton] at hstep
    refine ended_of_left (left_of_step hstep) ?_
    rintro stack e rfl
    generalize hp : ([] : List Kind) ++ List.map Token.kind (before ++ [t]) = p at hreached
    cases hreached with
    | complete hstack _ =>
      have hlength := length_le_of_spells hstack
      have := congrArg List.length hp
      simp at this ⊢
      omega

theorem ofTokens_of_ended {tokens : List Token} {last : Token}
    (hlast : last = tokens.getLastD ⟨.endOfInput, 0⟩)
    (h : Ended (run limit (.operand []) (tokens ++ List.replicate (tokens.length + 1) last))) :
    (Expr.ofTokens limit tokens).map State.accepted =
      run limit (.operand []) (tokens ++ List.replicate (tokens.length + 1) last) := by
  unfold Expr.ofTokens
  dsimp only
  rw [← hlast]
  generalize run limit _ _ = outcome at h ⊢
  cases h <;> rfl

theorem ofTokens_of_not_ended {tokens : List Token} {last : Token}
    (hlast : last = tokens.getLastD ⟨.endOfInput, 0⟩)
    (h : ¬Ended (run limit (.operand []) (tokens ++ List.replicate (tokens.length + 1) last))) :
    Expr.ofTokens limit tokens = .error (.tooDeep limit) := by
  unfold Expr.ofTokens
  dsimp only
  rw [← hlast]
  generalize run limit _ _ = outcome at h ⊢
  cases outcome with
  | error err => exact absurd (.error err) h
  | ok s =>
    cases s with
    | accepted e => exact absurd (.accepted e) h
    | _ => rfl

theorem about_of_ofTokens {tokens : List Token} {err : ParseError}
    (h : Expr.ofTokens limit tokens = .error err) :
    err = .tooDeep limit ∨
      ∃ t, (t ∈ tokens ∨ tokens = [] ∧ t = ⟨.endOfInput, 0⟩) ∧ About t err := by
  unfold Expr.ofTokens at h
  dsimp only at h
  split at h
  case h_1 => cases h
  case h_2 => exact .inl (Except.error.inj h).symm
  case h_3 err' hrun =>
    obtain rfl := Except.error.inj h
    rcases run_judged (Nat.le_refl limit) (.operand []) _ with hdeep | ⟨-, habout⟩
    · exact .inl (Except.error.inj (hrun.symm.trans hdeep))
    · obtain ⟨t, ht, hmisfit⟩ := habout err' hrun
      refine .inr ⟨t, ?_, hmisfit⟩
      rcases List.mem_append.1 ht with ht | ht
      · exact .inl ht
      · obtain rfl := List.eq_of_mem_replicate ht
        cases tokens with
        | nil => exact .inr ⟨rfl, rfl⟩
        | cons t ts =>
          rw [List.getLastD_cons]
          exact .inl List.getLastD_mem_cons

/-- However often the last token is read again, from some number on the reader has come to the tree
or the error that it answers. An error other than of depth names the place and the text of a token
of the list, or of the end of input where the list is empty. -/
theorem ofTokens_ends (limit : Nat) (tokens : List Token) :
    let last := tokens.getLastD ⟨.endOfInput, 0⟩
    (∀ n, tokens.length + limit < n →
      run limit (.operand []) (tokens ++ List.replicate n last) =
        (Expr.ofTokens limit tokens).map State.accepted) ∧
    ∀ err, Expr.ofTokens limit tokens = .error err →
      err = .tooDeep limit ∨
      ∃ t, (t ∈ tokens ∨ tokens = [] ∧ t = ⟨.endOfInput, 0⟩) ∧ About t err ∧
        err.offset? = some t.offset ∧
        (err.found? = some t.kind.describe ∨
          ∃ op, t.kind = .compare op ∧ err = .chainedComparison op t.offset) := by
  intro last
  refine ⟨fun n hn => ?_, fun err herr => ?_⟩
  · by_cases hended :
        Ended (run limit (.operand []) (tokens ++ List.replicate (tokens.length + 1) last))
    · rw [ofTokens_of_ended rfl hended, hended.run_replicate (by omega)]
    · have hdeep := (ended_or_tooDeep limit tokens).resolve_left hended
      have hstays :
          Ended (run limit (.operand []) (tokens ++ List.replicate (limit + 1) last)) := by
        rw [hdeep]
        exact .error _
      rw [ofTokens_of_not_ended rfl hended, hstays.run_replicate (by omega), hdeep]
      rfl
  · refine (about_of_ofTokens herr).imp_right ?_
    rintro ⟨t, ht, hmisfit⟩
    refine ⟨t, ht, hmisfit, offset?_of_about hmisfit, ?_⟩
    cases hmisfit with
    | unexpectedToken _ => exact .inl rfl
    | expectedIdentifier => exact .inl rfl
    | chainedComparison op hop => exact .inr ⟨op, hop, rfl⟩

/-- A path that breaks off after a dot, without an end of input. -/
def brokenPath : List Token := [⟨.not, 0⟩, ⟨.ident "cart", 4⟩, ⟨.dot, 8⟩]

theorem ofTokens_ends_brokenPath :
    Expr.ofTokens 3 brokenPath = .error (.expectedIdentifier ⟨.dot, 8⟩) ∧
      (∀ n, 6 < n →
        run 3 (.operand []) (brokenPath ++ List.replicate n ⟨.dot, 8⟩) =
          .error (.expectedIdentifier ⟨.dot, 8⟩)) ∧
      ∃ t ∈ brokenPath, About t (.expectedIdentifier ⟨.dot, 8⟩) := by
  have hread : Expr.ofTokens 3 brokenPath = .error (.expectedIdentifier ⟨.dot, 8⟩) := rfl
  obtain ⟨hends, hplace⟩ := ofTokens_ends 3 brokenPath
  refine ⟨hread, hends, ?_⟩
  rcases hplace _ hread with hdeep | ⟨t, ht | ⟨hnil, -⟩, habout, -⟩
  · cases hdeep
  · exact ⟨t, ht, habout⟩
  · cases hnil

end Grammar

end Promotions
