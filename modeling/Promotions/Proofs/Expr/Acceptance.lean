import Promotions.Proofs.Expr.Reading

/-!
# What the reader accepts

A stack of frames stands for tokens that have been read: `Spells` says which ones. Each step of
the reader keeps this up (`Reached.step`), so an expression that is accepted at the end has been
derived from the tokens before the end of input. Together with `Derives.reads` this gives the
accepted token lists and trees exactly.
-/

namespace Promotions.Grammar

open Token (Kind)
open Parse

variable {limit : Nat} {stack : List Frame} {p q : List Kind} {e : Expr}

/-! ## Expressions within the limit -/

/-- The tokens are an expression of the level that is not too deep on top of the stack. -/
def Within (limit : Nat) (stack : List Frame) (level : Level) (p : List Kind) (e : Expr) : Prop :=
  ∃ n, Derives (.expr level e) p n ∧ opened stack + n ≤ limit ∧ e.depth ≤ max 1 limit

theorem Within.loosen {l l' : Level} (h : Within limit stack l p e) (hl : l'.rank ≤ l.rank) :
    Within limit stack l' p e := by
  obtain ⟨n, hd, hn, hdepth⟩ := h
  exact ⟨n, hd.loosen hl, hn, hdepth⟩

theorem Within.opened_le {l : Level} (h : Within limit stack l p e) : opened stack ≤ limit := by
  obtain ⟨n, -, hn, -⟩ := h
  omega

theorem Within.leaf (h : Derives (.expr .primary e) p 0) (hopen : opened stack ≤ limit)
    (hd : e.depth = 1) : Within limit stack .primary p e :=
  ⟨0, h, hopen, by omega⟩

theorem Within.or {a b : Expr} (ha : Within limit stack .or p a)
    (hb : Within limit (.or a :: stack) .and q b) (hd : (Expr.or a b).depth ≤ limit) :
    Within limit stack .or (p ++ .or :: q) (.or a b) := by
  obtain ⟨m, ha, hm, -⟩ := ha
  obtain ⟨n, hb, hn, -⟩ := hb
  rw [opened_cons] at hn
  exact ⟨max m n, .or ha hb, by simp [Frame.isOpening] at hn; omega, by omega⟩

theorem Within.and {a b : Expr} (ha : Within limit stack .and p a)
    (hb : Within limit (.and a :: stack) .not q b) (hd : (Expr.and a b).depth ≤ limit) :
    Within limit stack .and (p ++ .and :: q) (.and a b) := by
  obtain ⟨m, ha, hm, -⟩ := ha
  obtain ⟨n, hb, hn, -⟩ := hb
  rw [opened_cons] at hn
  exact ⟨max m n, .and ha hb, by simp [Frame.isOpening] at hn; omega, by omega⟩

theorem Within.compare {op : Comparator} {a b : Expr} (ha : Within limit stack .primary p a)
    (hb : Within limit (.compare op a :: stack) .primary q b)
    (hd : (Expr.compare op a b).depth ≤ limit) :
    Within limit stack .comparison (p ++ .compare op :: q) (.compare op a b) := by
  obtain ⟨m, ha, hm, -⟩ := ha
  obtain ⟨n, hb, hn, -⟩ := hb
  rw [opened_cons] at hn
  exact ⟨max m n, .compare ha hb, by simp [Frame.isOpening] at hn; omega, by omega⟩

theorem Within.not {a : Expr} (ha : Within limit (.not :: stack) .not p a)
    (hd : (Expr.not a).depth ≤ limit) : Within limit stack .not (.not :: p) (.not a) := by
  obtain ⟨n, ha, hn, -⟩ := ha
  rw [opened_push _ _ rfl] at hn
  exact ⟨n + 1, .not ha, by omega, by omega⟩

theorem Within.group (h : Within limit (.group :: stack) .or p e) :
    Within limit stack .primary (.leftParen :: (p ++ [.rightParen])) e := by
  obtain ⟨n, he, hn, hd⟩ := h
  rw [opened_push _ _ rfl] at hn
  exact ⟨n + 1, .group he, by omega, hd⟩

/-! ## Arguments -/

theorem Derives.arguments_ne_nil {args : List Expr} {n : Nat} (h : Derives (.arguments args) p n) :
    args ≠ [] := by
  cases h <;> simp

/-- The arguments of a call that have been read, with a comma after the last one. -/
inductive Begun (limit : Nat) (stack : List Frame) : List Kind → List Expr → Prop where
  | nil : Begun limit stack [] []
  | comma {p : List Kind} {args : List Expr} {n : Nat} : Derives (.arguments args) p n → opened stack + 1 + n ≤ limit →
      Begun limit stack (p ++ [.comma]) args

theorem Begun.snoc {name : String} {args : List Expr} (h : Begun limit stack p args)
    (he : Within limit (.call name args :: stack) .or q e) :
    ∃ n, Derives (.arguments (args ++ [e])) (p ++ q) n ∧ opened stack + 1 + n ≤ limit := by
  obtain ⟨n, he, hn, -⟩ := he
  rw [opened_push _ _ rfl] at hn
  cases h with
  | nil => exact ⟨n, .argument he, hn⟩
  | @comma p args m hargs hm =>
    refine ⟨max m n, ?_, by omega⟩
    simpa using Derives.comma hargs he

/-! ## The tokens of a stack -/

/-- The tokens that the open constructs have taken, from the outermost construct on. -/
inductive Spells (limit : Nat) : List Frame → List Kind → Prop where
  | nil : Spells limit [] []
  | or {stack : List Frame} {p q : List Kind} {a : Expr} : Spells limit stack p →
      Level.or.Fits stack → Within limit stack .or q a →
      Spells limit (.or a :: stack) (p ++ q ++ [.or])
  | and {stack : List Frame} {p q : List Kind} {a : Expr} : Spells limit stack p →
      Level.and.Fits stack → Within limit stack .and q a →
      Spells limit (.and a :: stack) (p ++ q ++ [.and])
  | not {stack : List Frame} {p : List Kind} : Spells limit stack p → Level.not.Fits stack →
      opened stack + 1 ≤ limit → Spells limit (.not :: stack) (p ++ [.not])
  | compare {op : Comparator} {stack : List Frame} {p q : List Kind} {a : Expr} :
      Spells limit stack p → Level.comparison.Fits stack → Within limit stack .primary q a →
      Spells limit (.compare op a :: stack) (p ++ q ++ [.compare op])
  | group {stack : List Frame} {p : List Kind} : Spells limit stack p →
      opened stack + 1 ≤ limit → Spells limit (.group :: stack) (p ++ [.leftParen])
  | call {stack : List Frame} {p q : List Kind} {segments : List String} {args : List Expr} :
      Spells limit stack p → opened stack + 1 ≤ limit → segments ≠ [] →
      Begun limit stack q args →
      Spells limit (.call (Path.ofSegments segments).text args :: stack)
        (p ++ dotted segments ++ .leftParen :: q)

theorem Spells.opened_le (h : Spells limit stack p) : opened stack ≤ limit := by
  cases h with
  | nil => simp [opened]
  | or _ _ ha => simpa [opened_cons, Frame.isOpening] using ha.opened_le
  | and _ _ ha => simpa [opened_cons, Frame.isOpening] using ha.opened_le
  | compare _ _ ha => simpa [opened_cons, Frame.isOpening] using ha.opened_le
  | not _ _ h => rwa [opened_push _ _ rfl]
  | group _ h => rwa [opened_push _ _ rfl]
  | call _ h _ _ => rwa [opened_push _ _ rfl]

theorem Spells.pop {f : Frame} {level : Level} (h : Spells limit (f :: stack) p)
    (hf : 1 ≤ f.strength) (he : Within limit (f :: stack) level q e)
    (hfits : level.Fits (f :: stack)) (hd : (f.plug e).depth ≤ limit) :
    ∃ l p' q', l.rank = f.strength ∧ p ++ q = p' ++ q' ∧ Spells limit stack p' ∧ l.Fits stack ∧
      Within limit stack l q' (f.plug e) := by
  rw [Level.fits_cons] at hfits
  cases h with
  | or hs hl ha => exact ⟨.or, _, _, rfl, by simp, hs, hl, ha.or (he.loosen hfits) hd⟩
  | and hs hl ha => exact ⟨.and, _, _, rfl, by simp, hs, hl, ha.and (he.loosen hfits) hd⟩
  | not hs hl _ => exact ⟨.not, _, _, rfl, by simp, hs, hl, (he.loosen hfits).not hd⟩
  | compare hs hl ha =>
    exact ⟨.comparison, _, _, rfl, by simp, hs, hl, ha.compare (he.loosen hfits) hd⟩
  | group => simp [Frame.strength] at hf
  | call => simp [Frame.strength] at hf

theorem Spells.reduce {stack' : List Frame} {e' : Expr} {level : Level} (target : Level)
    (ht : target.rank ≤ Level.and.rank) (h : Spells limit stack p)
    (he : Within limit stack level q e) (hfits : level.Fits stack) (hl : target.rank ≤ level.rank)
    (hred : reduce limit target.rank stack e = .ok (stack', e')) :
    ∃ p' q', p ++ q = p' ++ q' ∧ Spells limit stack' p' ∧ target.Fits stack' ∧
      Within limit stack' target q' e' := by
  induction stack generalizing p q e level with
  | nil =>
    cases hred
    exact ⟨p, q, rfl, h, target.fits_nil, he.loosen hl⟩
  | cons f stack ih =>
    by_cases hs : target.rank ≤ f.strength
    · rw [Parse.reduce, if_pos hs, close_eq] at hred
      by_cases hd : (f.plug e).depth ≤ limit
      · rw [if_pos hd] at hred
        obtain ⟨l, p', q', hrank, hpq, hspells, hl', hwithin⟩ :=
          h.pop (Nat.le_trans target.rank_pos hs) he hfits hd
        obtain ⟨p'', q'', hpq', hresult⟩ := ih hspells hwithin hl' (by omega) hred
        exact ⟨p'', q'', hpq.trans hpq', hresult⟩
      · rw [if_neg hd] at hred
        cases hred
    · rw [Parse.reduce, if_neg hs] at hred
      cases hred
      refine ⟨p, q, rfl, h, ?_, he.loosen hl⟩
      rw [Level.fits_cons]
      cases f <;> simp_all [waitsFor, Level.rank, Frame.strength] <;> omega

/-! ## The tokens of a state -/

/-- The tokens that lead to a state. -/
inductive Reached (limit : Nat) : State → List Kind → Prop where
  | operand {stack : List Frame} {p : List Kind} : Spells limit stack p →
      Reached limit (.operand stack) p
  | name {stack : List Frame} {p : List Kind} {segments : List String} : Spells limit stack p →
      segments ≠ [] → Reached limit (.name stack segments) (p ++ dotted segments)
  | dot {stack : List Frame} {p : List Kind} {segments : List String} : Spells limit stack p →
      segments ≠ [] → Reached limit (.dot stack segments) (p ++ dotted segments ++ [.dot])
  | complete {stack : List Frame} {p q : List Kind} {e : Expr} : Spells limit stack p →
      Within limit stack .primary q e → Reached limit (.complete stack e) (p ++ q)
  | accepted {p q : List Kind} {e : Expr} : Within limit [] .or p e →
      Reached limit (.accepted e) (p ++ .endOfInput :: q)

theorem reached_enter {f : Frame} {s : State} (h : Spells limit (f :: stack) p)
    (hs : enter limit (f :: stack) = .ok s) : Reached limit s p := by
  rw [enter_eq, if_pos h.opened_le] at hs
  cases hs
  exact .operand h

theorem fits_not (h : ∀ op left tail, stack = .compare op left :: tail → False) :
    Level.not.Fits stack := by
  intro f hf
  cases stack with
  | nil => simp at hf
  | cons g stack =>
    obtain rfl : g = f := by simpa using hf
    cases g <;> simp_all [waitsFor, Level.rank]

theorem reached_startOperand {t : Token} {s : State} (h : Spells limit stack p)
    (hs : startOperand limit stack t = .ok s) : Reached limit s (p ++ [t.kind]) := by
  have hopen := h.opened_le
  have hpush : ∀ f s, f.isOpening = true → enter limit (f :: stack) = .ok s →
      opened stack + 1 ≤ limit := by
    intro f s hf hs
    by_contra hn
    rw [enter_eq, opened_push f stack hf, if_neg hn] at hs
    cases hs
  have hleaf : ∀ leaf : Expr, Derives (.expr .primary leaf) [t.kind] 0 → leaf.depth = 1 →
      Reached limit (.complete stack leaf) (p ++ [t.kind]) := by
    intro leaf hd hdepth
    exact .complete h (.leaf hd hopen hdepth)
  unfold startOperand at hs
  split at hs
  case h_1 ht =>
    cases hs
    exact hleaf _ (ht ▸ .true) (by simp [Expr.depth])
  case h_2 ht =>
    cases hs
    exact hleaf _ (ht ▸ .false) (by simp [Expr.depth])
  case h_3 ht =>
    cases hs
    exact hleaf _ (ht ▸ .number) (by simp [Expr.depth])
  case h_4 ht =>
    cases hs
    exact hleaf _ (ht ▸ .string) (by simp [Expr.depth])
  case h_5 segment ht =>
    cases hs
    rw [ht]
    exact .name h (by simp)
  case h_6 ht =>
    rw [ht]
    exact reached_enter (.group h (hpush _ _ rfl hs)) hs
  case h_7 => cases hs
  case h_8 ht hne =>
    rw [ht]
    exact reached_enter (.not h (fits_not hne) (hpush _ _ rfl hs)) hs
  case h_9 name outer ht =>
    cases hs
    rw [ht]
    cases h with
    | @call _ p _ segments _ hstack hcall hsegments hargs =>
      cases hargs with
      | comma hargs => exact absurd rfl hargs.arguments_ne_nil
      | nil =>
        have hdepth : (Expr.call (Path.ofSegments segments).text []).depth = 1 := by
          simp [Expr.depth, Expr.maxDepth]
        have hs := Reached.complete hstack ⟨1, .call_nil hsegments, hcall, by omega⟩
        simpa using hs
  case h_10 => cases hs

theorem close_ok {f : Frame} {whole : Expr} (h : f.close limit e = .ok whole) :
    whole = f.plug e ∧ (f.plug e).depth ≤ limit := by
  rw [close_eq] at h
  split at h
  case isTrue hd =>
    cases h
    exact ⟨rfl, hd⟩
  case isFalse => cases h

theorem reached_endGroup (h : Spells limit (.group :: stack) p)
    (he : Within limit (.group :: stack) .or q e) :
    Reached limit (.complete stack e) (p ++ q ++ [.rightParen]) := by
  cases h with
  | group hstack => simpa using Reached.complete hstack he.group

theorem reached_endArgument {name : String} {args : List Expr}
    (h : Spells limit (.call name args :: stack) p)
    (he : Within limit (.call name args :: stack) .or q e)
    (hd : (Expr.call name (args ++ [e])).depth ≤ limit) :
    Reached limit (.complete stack (.call name (args ++ [e]))) (p ++ q ++ [.rightParen]) ∧
      Reached limit (.operand (.call name (args ++ [e]) :: stack)) (p ++ q ++ [.comma]) := by
  cases h with
  | @call _ p a segments _ hstack hcall hsegments hargs =>
    obtain ⟨n, hargs, hn⟩ := hargs.snoc he
    constructor
    · have hs := Reached.complete hstack
        ⟨n + 1, .call hsegments hargs, by omega, Nat.le_trans hd (by omega)⟩
      simpa using hs
    · simpa using Reached.operand (.call hstack hcall hsegments (.comma hargs hn))

theorem reached_endOperators {t : Token} {s : State} (h : Spells limit stack p)
    (hfits : Level.or.Fits stack) (he : Within limit stack .or q e)
    (hs : endOperators stack limit e t = .ok s) : Reached limit s (p ++ q ++ [t.kind]) := by
  cases stack with
  | nil =>
    cases h
    simp only [endOperators] at hs
    split at hs
    case isTrue ht =>
      cases hs
      rw [ht]
      exact .accepted he
    case isFalse => cases hs
  | cons f outer =>
    rw [Level.fits_cons] at hfits
    cases hclose : f.close limit e with
    | error err => simp [endOperators, hclose, bind, Except.bind] at hs
    | ok whole =>
      obtain ⟨rfl, hd⟩ := close_ok hclose
      simp only [endOperators, hclose, bind, Except.bind] at hs
      cases f with
      | group =>
        cases hk : t.kind <;> simp only [hk] at hs <;> cases hs
        exact reached_endGroup h he
      | call name args =>
        cases hk : t.kind <;> simp only [hk] at hs <;> cases hs
        · exact (reached_endArgument h he hd).1
        · exact (reached_endArgument h he hd).2
      | _ => simp [waitsFor, Level.rank] at hfits

theorem fits_primary (stack : List Frame) : Level.primary.Fits stack := by
  intro f _
  cases f <;> simp [waitsFor, Level.rank]

theorem Spells.reduce_bind {s : State} {next : List Frame × Expr → Except ParseError State}
    (target : Level) (ht : target.rank ≤ Level.and.rank) (h : Spells limit stack p)
    (he : Within limit stack .primary q e)
    (hs : (Parse.reduce limit target.rank stack e >>= next) = .ok s) :
    ∃ stack' e' p' q', next (stack', e') = .ok s ∧ p ++ q = p' ++ q' ∧ Spells limit stack' p' ∧
      target.Fits stack' ∧ Within limit stack' target q' e' := by
  cases hred : Parse.reduce limit target.rank stack e with
  | error err => simp [hred, bind, Except.bind] at hs
  | ok r =>
    obtain ⟨stack', e'⟩ := r
    have hrank : target.rank ≤ Level.primary.rank := by
      simp only [Level.rank] at *
      omega
    obtain ⟨p', q', hread⟩ := h.reduce target ht he (fits_primary stack) hrank hred
    rw [hred] at hs
    exact ⟨stack', e', p', q', hs, hread⟩

theorem reached_afterOperand {t : Token} {s : State} (h : Spells limit stack p)
    (he : Within limit stack .primary q e) (hs : afterOperand limit stack e t = .ok s) :
    Reached limit s (p ++ q ++ [t.kind]) := by
  unfold afterOperand at hs
  split at hs
  case h_1 op ht =>
    rw [ht]
    split at hs
    case h_1 => cases hs
    case h_2 hne =>
      cases hs
      exact .operand (.compare h ((fits_not hne).mono (by decide)) he)
  case h_2 ht =>
    obtain ⟨stack', e', p', q', hnext, hpq, hstack, hfits, he'⟩ :=
      h.reduce_bind .and (Nat.le_refl _) he hs
    cases hnext
    rw [ht, hpq]
    exact .operand (.and hstack hfits he')
  case h_3 ht =>
    obtain ⟨stack', e', p', q', hnext, hpq, hstack, hfits, he'⟩ :=
      h.reduce_bind .or (by decide) he hs
    cases hnext
    rw [ht, hpq]
    exact .operand (.or hstack hfits he')
  case h_4 =>
    obtain ⟨stack', e', p', q', hnext, hpq, hstack, hfits, he'⟩ :=
      h.reduce_bind .or (by decide) he hs
    rw [hpq]
    exact reached_endOperators hstack hfits he' hnext

/-! ## Steps and runs -/

theorem Reached.step {s s' : State} {t : Token} (h : Reached limit s p)
    (hs : step limit s t = .ok s') : Reached limit s' (p ++ [t.kind]) := by
  cases h with
  | operand hstack => exact reached_startOperand hstack hs
  | complete hstack he => exact reached_afterOperand hstack he hs
  | @name stack p segments hstack hsegments =>
    simp only [Parse.step] at hs
    split at hs
    case h_1 ht =>
      cases hs
      rw [ht]
      exact .dot hstack hsegments
    case h_2 ht =>
      rw [ht]
      by_cases hopen : opened stack + 1 ≤ limit
      · exact reached_enter (.call hstack hopen hsegments .nil) hs
      · rw [enter_eq, opened_push _ _ rfl, if_neg hopen] at hs
        cases hs
    case h_3 =>
      have hvar := Within.leaf (.var hsegments) hstack.opened_le (by simp [Expr.depth])
      exact reached_afterOperand hstack hvar hs
  | @dot stack p segments hstack hsegments =>
    simp only [Parse.step] at hs
    split at hs
    case h_1 segment ht =>
      cases hs
      have hname : Reached limit (.name stack (segments ++ [segment]))
          (p ++ dotted (segments ++ [segment])) := .name hstack (by simp)
      rw [dotted_append _ _ hsegments] at hname
      simpa [ht] using hname
    case h_2 => cases hs
  | accepted he =>
    cases hs
    simpa using Reached.accepted he

theorem Reached.run {s s' : State} {ts : List Token} (h : Reached limit s p)
    (hs : run limit s ts = .ok s') : Reached limit s' (p ++ ts.map Token.kind) := by
  induction ts generalizing s p with
  | nil =>
    cases hs
    simpa using h
  | cons t ts ih =>
    rw [run_cons] at hs
    cases hstep : Parse.step limit s t with
    | error err => simp [hstep, bind, Except.bind] at hs
    | ok next =>
      rw [hstep, ok_bind] at hs
      simpa using ih (h.step hstep) hs

/-! ## The whole token list -/

theorem run_accepted (limit : Nat) (e : Expr) (ts : List Token) :
    run limit (.accepted e) ts = .ok (.accepted e) := by
  induction ts with
  | nil => rfl
  | cons t ts ih =>
    have hstep : step limit (.accepted e) t = .ok (.accepted e) := rfl
    rw [run_cons, hstep, ok_bind, ih]

/-- A sentence of the grammar is read as its tree, or goes too deep. -/
theorem ofTokens_of_derives {n : Nat} {ts us : List Token} {t : Token}
    (h : Derives (.expr .or e) (ts.map Token.kind) n) (ht : t.kind = .endOfInput) :
    Expr.ofTokens limit (ts ++ t :: us) =
      if n ≤ limit ∧ e.depth ≤ max 1 limit then .ok e else .error (.tooDeep limit) := by
  have hread := h.reads limit [] ts t rfl (Nat.zero_le _) (Level.fits_nil _) (by simp [Level.Ends, ht])
  have hafter : afterOperand limit [] e t = .ok (.accepted e) := by
    simp [afterOperand, reduce, endOperators, ht, bind, Except.bind]
  rw [hafter, show opened [] = 0 from rfl, Nat.zero_add] at hread
  have hsplit : ∀ vs, ts ++ t :: us ++ vs = (ts ++ [t]) ++ (us ++ vs) := by simp
  simp only [Expr.ofTokens, hsplit, run_append, hread]
  by_cases hn : n ≤ limit ∧ e.depth ≤ max 1 limit
  · rw [if_pos hn, if_pos hn, ok_bind, ← run_append, run_accepted]
  · rw [if_neg hn, if_neg hn, error_bind]

theorem eq_of_append_endOfInput {p p' q q' : List Kind} (hp : .endOfInput ∉ p)
    (hp' : .endOfInput ∉ p') (h : p ++ .endOfInput :: q = p' ++ .endOfInput :: q') : p = p' := by
  have hbefore : ∀ r s : List Kind, .endOfInput ∉ r →
      (r ++ .endOfInput :: s).takeWhile (· != .endOfInput) = r := by
    intro r s hr
    rw [List.takeWhile_append_of_pos, List.takeWhile_cons_of_neg, List.append_nil]
    · simp
    · intro k hk
      simpa using fun (hend : k = .endOfInput) => hr (hend ▸ hk)
  rw [← hbefore p q hp, h, hbefore p' q' hp']

theorem endOfInput_mem {tokens : List Token} {p q : List Kind} (hne : p ≠ [])
    (h : (tokens ++ List.replicate (tokens.length + 1)
      (tokens.getLastD ⟨.endOfInput, 0⟩)).map Token.kind = p ++ .endOfInput :: q) :
    .endOfInput ∈ tokens.map Token.kind := by
  cases tokens with
  | nil =>
    obtain ⟨x, xs, rfl⟩ := List.exists_cons_of_ne_nil hne
    simp at h
  | cons t ts =>
    have hlast : (t :: ts).getLastD ⟨.endOfInput, 0⟩ ∈ t :: ts := by
      rw [List.getLastD_cons]
      exact List.getLastD_mem_cons
    have hmem : Kind.endOfInput ∈ p ++ .endOfInput :: q := by simp
    rw [← h, List.map_append, List.mem_append, List.map_replicate, List.mem_replicate] at hmem
    rcases hmem with hmem | ⟨-, hmem⟩
    · exact hmem
    · rw [hmem]
      exact List.mem_map_of_mem hlast

theorem exists_derives_of_ofTokens {tokens : List Token}
    (h : Expr.ofTokens limit tokens = .ok e) :
    ∃ ts t us, tokens = ts ++ t :: us ∧ t.kind = .endOfInput ∧
      Within limit [] .or (ts.map Token.kind) e := by
  simp only [Expr.ofTokens] at h
  split at h
  case h_1 e' hrun =>
    cases h
    have hreached := (Reached.operand .nil).run hrun
    generalize hall : [] ++ List.map Token.kind _ = ks at hreached
    rw [List.nil_append] at hall
    cases hreached with
    | @accepted p q _ hwithin =>
      obtain ⟨n, hd, -⟩ := id hwithin
      obtain ⟨ks, ks', hks, hnot⟩ := List.eq_append_cons_of_mem (endOfInput_mem hd.ne_nil hall)
      obtain ⟨ts, rest, rfl, rfl, hrest⟩ := List.map_eq_append_iff.1 hks
      obtain ⟨t, us, rfl, ht, -⟩ := List.map_eq_cons_iff.1 hrest
      refine ⟨ts, t, us, rfl, ht, ?_⟩
      rw [List.map_append, hks, List.append_assoc, List.cons_append] at hall
      rwa [eq_of_append_endOfInput hnot hd.not_mem_endOfInput hall]
  case h_2 => cases h
  case h_3 => cases h

/-- The reader accepts exactly the sentences of the grammar that keep to the limit. -/
theorem ofTokens_eq_ok_iff (limit : Nat) (tokens : List Token) (e : Expr) :
    Expr.ofTokens limit tokens = .ok e ↔
      ∃ ts t us n, tokens = ts ++ t :: us ∧ t.kind = .endOfInput ∧
        (∀ x ∈ ts, x.kind ≠ .endOfInput) ∧ Derives (.expr .or e) (ts.map Token.kind) n ∧
        e.depth ≤ max 1 limit ∧ n ≤ limit := by
  constructor
  · intro h
    obtain ⟨ts, t, us, rfl, ht, n, hd, hn, hdepth⟩ := exists_derives_of_ofTokens h
    refine ⟨ts, t, us, n, rfl, ht, ?_, hd, hdepth, by simpa [opened] using hn⟩
    intro x hx hend
    exact hd.not_mem_endOfInput (hend ▸ List.mem_map_of_mem hx)
  · rintro ⟨ts, t, us, n, rfl, ht, -, hd, hdepth, hn⟩
    rw [ofTokens_of_derives hd ht, if_pos ⟨hn, hdepth⟩]

end Promotions.Grammar
