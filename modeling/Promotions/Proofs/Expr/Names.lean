import Promotions.Proofs.Expr.RoundTrip

/-!
# Names in a text

Segments without dots are joined to a path and cut from it again, and any path is its segments
joined. The identifiers and the dots of a condition spell its names and nothing else: the variables
and the callables of the tree, one after the other, each as the segments of its path with a dot
between neighbours.
-/

namespace Promotions

open Token (Kind)

/-! ## Joining and cutting -/

namespace Path

theorem toList_ofSegments (segments : List String) :
    (ofSegments segments).text.toList = ['.'].intercalate (segments.map String.toList) :=
  String.toList_intercalate

theorem segments_ofSegments {segments : List String} (hne : segments ≠ [])
    (h : ∀ s ∈ segments, '.' ∉ s.toList) : (ofSegments segments).segments = segments := by
  have hcut := List.splitOn_intercalate '.' (List.forall_mem_map.2 h) (by simpa using hne)
  rw [Path.segments, toList_ofSegments, hcut, List.map_map]
  simp [Function.comp_def]

theorem ofSegments_segments (p : Path) : ofSegments p.segments = p := by
  have htext : (ofSegments p.segments).text = p.text := by
    have hid : String.toList ∘ String.ofList = id := funext fun _ => String.toList_ofList
    rw [← String.toList_inj, toList_ofSegments, Path.segments, List.map_map, hid, List.map_id,
      List.intercalate_splitOn]
  cases p
  rw [Path.mk.injEq]
  exact htext

end Path

/-! ## The names of a tree -/

namespace Expr

mutual

/-- The paths of the variables and of the callables in the tree, in the order of its text. -/
def names : Expr → List Path
  | bool _ | number _ | string _ => []
  | var path => [path]
  | compare _ a b | and a b | or a b => a.names ++ b.names
  | not a => a.names
  | call name args => ⟨name⟩ :: namesAll args

def namesAll : List Expr → List Path
  | [] => []
  | e :: es => e.names ++ namesAll es

end

theorem namesAll_append (es : List Expr) (e : Expr) :
    namesAll (es ++ [e]) = namesAll es ++ e.names := by
  induction es with
  | nil => simp [namesAll]
  | cons x xs ih => rw [List.cons_append, namesAll, namesAll, ih, List.append_assoc]

end Expr

/-! ## The names among tokens -/

/-- Names are made of identifiers and dots. -/
def Token.Kind.isNamePart : Kind → Bool
  | ident _ | dot => Bool.true
  | _ => Bool.false

def Token.Kind.identifier? : Kind → Option String
  | ident name => some name
  | _ => none

namespace Grammar

/-- The tokens spell the names one after the other, and no part of a name stands elsewhere. -/
inductive Names : List Path → List Kind → Prop where
  | nil {ks : List Kind} : (∀ k ∈ ks, ¬k.isNamePart) → Names [] ks
  | cons {before ks : List Kind} {p : Path} {ps : List Path} : (∀ k ∈ before, ¬k.isNamePart) →
      Names ps ks → Names (p :: ps) (before ++ (dotted p.segments ++ ks))

namespace Names

variable {ps qs : List Path} {ks js : List Kind} {k : Kind}

theorem prepend {before : List Kind} (hbefore : ∀ k ∈ before, ¬k.isNamePart) (h : Names ps ks) :
    Names ps (before ++ ks) := by
  cases h with
  | nil hks => exact .nil (List.forall_mem_append.2 ⟨hbefore, hks⟩)
  | cons hfirst hrest =>
    rw [← List.append_assoc]
    exact .cons (List.forall_mem_append.2 ⟨hbefore, hfirst⟩) hrest

theorem append (h : Names ps ks) (h' : Names qs js) : Names (ps ++ qs) (ks ++ js) := by
  induction h with
  | nil hks => exact h'.prepend hks
  | cons hbefore _ ih =>
    rw [List.append_assoc, List.append_assoc]
    exact .cons hbefore ih

theorem token (hk : ¬k.isNamePart) : Names [] [k] := .nil (List.forall_mem_singleton.2 hk)

theorem join (h : Names ps ks) (hk : ¬k.isNamePart) (h' : Names qs js) :
    Names (ps ++ qs) (ks ++ k :: js) :=
  h.append ((token hk).append h')

theorem bracket (h : Names ps ks) : Names ps (.leftParen :: (ks ++ [.rightParen])) := by
  have hopen : Names [] [.leftParen] := token (by decide)
  have hclose : Names [] [.rightParen] := token (by decide)
  simpa using hopen.append (h.append hclose)

theorem ofSegments {segments : List String} (hne : segments ≠ [])
    (h : ∀ s ∈ segments, '.' ∉ s.toList) : Names [.ofSegments segments] (dotted segments) := by
  have hname : Names [.ofSegments segments]
      ([] ++ (dotted (Path.ofSegments segments).segments ++ [])) :=
    .cons (by simp) (.nil (by simp))
  rwa [Path.segments_ofSegments hne h, List.append_nil, List.nil_append] at hname

theorem dotted_infix (h : Names ps ks) {p : Path} (hp : p ∈ ps) : dotted p.segments <:+: ks := by
  induction h with
  | nil => simp at hp
  | @cons before ks q qs _ _ ih =>
    rcases List.mem_cons.1 hp with rfl | hp
    · exact ⟨before, ks, by simp⟩
    · obtain ⟨front, rest, rfl⟩ := ih hp
      exact ⟨before ++ (dotted q.segments ++ front), rest, by simp⟩

end Names

/-! ## The identifiers among tokens -/

theorem filterMap_identifier?_dotted (segments : List String) :
    (dotted segments).filterMap Kind.identifier? = segments := by
  induction segments with
  | nil => rfl
  | cons s rest ih =>
    by_cases hrest : rest = []
    · subst hrest
      rfl
    · have hname : (Kind.ident s).identifier? = some s := rfl
      have hdot : Kind.dot.identifier? = none := rfl
      rw [dotted_cons _ _ hrest, List.filterMap_cons_some hname, List.filterMap_cons_none hdot, ih]

theorem filterMap_identifier?_eq_nil {ks : List Kind} (h : ∀ k ∈ ks, ¬k.isNamePart) :
    ks.filterMap Kind.identifier? = [] := by
  rw [List.filterMap_eq_nil_iff]
  intro k hk
  have hpart := h k hk
  cases k <;> simp [Kind.isNamePart, Kind.identifier?] at hpart ⊢

theorem Names.filterMap_identifier? {ps : List Path} {ks : List Kind} (h : Names ps ks) :
    ks.filterMap Kind.identifier? = ps.flatMap Path.segments := by
  induction h with
  | nil hks => exact filterMap_identifier?_eq_nil hks
  | cons hbefore _ ih =>
    rw [List.filterMap_append, List.filterMap_append, filterMap_identifier?_eq_nil hbefore,
      filterMap_identifier?_dotted, ih, List.flatMap_cons, List.nil_append]

/-! ## Derived trees -/

theorem dot_not_mem_of_isIdentifier {s : String} (h : Token.IsIdentifier s) : '.' ∉ s.toList := by
  intro hdot
  have hword : Lexeme.inWord '.' := List.all_eq_true.1 h.word '.' hdot
  have hnot : Lexeme.inWord '.' = false := by decide +kernel
  rw [hnot] at hword
  cases hword

theorem names_dotted {segments : List String} (hne : segments ≠ [])
    (h : ∀ k ∈ dotted segments, k.Readable) : Names [.ofSegments segments] (dotted segments) := by
  apply Names.ofSegments hne
  intro s hs
  have hidentifier : Token.IsIdentifier s := h (.ident s) (ident_mem_dotted segments s hs)
  exact dot_not_mem_of_isIdentifier hidentifier

def Phrase.names : Phrase → List Path
  | expr _ e => e.names
  | arguments args => Expr.namesAll args

theorem Derives.names {phrase : Phrase} {p : List Kind} {n : Nat} (h : Derives phrase p n)
    (hp : ∀ k ∈ p, k.Readable) : Names phrase.names p := by
  -- Each rule puts its phrases one after the other, with tokens between them that name nothing.
  induction h with
  | or_and _ ih | and_not _ ih | not_comparison _ ih | comparison_primary _ ih => exact ih hp
  | or _ _ iha ihb | and _ _ iha ihb | compare _ _ iha ihb =>
    rw [List.forall_mem_append, List.forall_mem_cons] at hp
    exact (iha hp.1).join (by simp [Kind.isNamePart]) (ihb hp.2.2)
  | not _ ih =>
    rw [List.forall_mem_cons] at hp
    exact (Names.token (by decide)).append (ih hp.2)
  | true | false | number | string => exact Names.token (by simp [Kind.isNamePart])
  | group _ ih => exact (ih fun k hk => hp k (by simp [hk])).bracket
  | var hne => exact names_dotted hne hp
  | call_nil hne =>
    rw [List.forall_mem_append] at hp
    have hnone : Names [] [] := .nil (by simp)
    exact (names_dotted hne hp.1).append hnone.bracket
  | call hne _ ih =>
    rw [List.forall_mem_append] at hp
    exact (names_dotted hne hp.1).append (ih fun k hk => hp.2 k (by simp [hk])).bracket
  | argument _ ih => simpa [Phrase.names, Expr.namesAll] using ih hp
  | comma _ _ iha ihe =>
    rw [List.forall_mem_append, List.forall_mem_cons] at hp
    rw [Phrase.names, Expr.namesAll_append]
    exact (iha hp.1).join (by decide) (ihe hp.2.2)

end Grammar

/-! ## Every text -/

namespace Token

theorem eq_of_leads_ident {name : String} {chars rest : List Char}
    (h : Lexeme.Leads (.ident name) chars rest) : chars = name.toList := by
  obtain ⟨stop, hspells, -⟩ := h
  cases hspells with
  | keyword hword => simp [Lexeme.keywords] at hword
  | ident => rfl
  | sign hsign => simp [Lexeme.signs] at hsign

theorem exists_append_of_ident {text : String} {tokens : List Token} {t : Token} {name : String}
    (h : scan text = .ok tokens) (ht : t ∈ tokens) (hname : t.kind = .ident name) :
    ∃ before after, text = before ++ name ++ after ∧ t.offset = before.utf8ByteSize := by
  have htiles := tiles_scanFrom 0 _ _ h
  obtain ⟨us, rfl, -⟩ := htiles.ends
  rcases List.mem_append.1 ht with ht | ht
  · obtain ⟨next, before, chars, blanks, rest, htext, hoffset, -, hleads, -⟩ :=
      exists_next_of_isChain htiles.adjoins t ht
    rw [hname] at hleads
    obtain rfl := eq_of_leads_ident hleads
    refine ⟨String.ofList before, String.ofList (blanks ++ rest), ?_, ?_⟩
    · rw [← String.toList_inj, htext]
      simp
    · rw [hoffset, Nat.zero_add, ← byteLength_toList, String.toList_ofList]
  · obtain rfl := List.mem_singleton.1 ht
    cases hname

end Token

theorem Expr.exists_names_of_ofText {limit : Nat} {text : String} {e : Expr}
    (h : ofText limit text = .ok e) :
    ∃ tokens, Token.scan text = .ok tokens ∧ Grammar.Names e.names (tokens.map Token.kind) := by
  obtain ⟨ts, t, n, hscan, ht, hd, -, hreadable⟩ := exists_derives_of_ofText h
  refine ⟨ts ++ [t], hscan, ?_⟩
  have hend : Grammar.Names [] [t.kind] := .token (by rw [ht]; decide)
  simpa [Grammar.Phrase.names] using (hd.names hreadable).append hend

namespace Path

/-- Joining and cutting undo each other, for segments without dots and for all paths. In a text that
is read, each name of the tree stands as its segments, with a dot between neighbours. The segments
of all names in their order are the identifiers of the text, and each of these stands where its
token says. -/
theorem names_keep_segments :
    (∀ segments : List String, segments ≠ [] → (∀ s ∈ segments, '.' ∉ s.toList) →
      (ofSegments segments).segments = segments) ∧
    (∀ p : Path, ofSegments p.segments = p) ∧
    ∀ (limit : Nat) (text : String) (e : Expr), Expr.ofText limit text = .ok e →
      ∃ tokens, Token.scan text = .ok tokens ∧
        (tokens.Pairwise fun t next => t.offset < next.offset) ∧
        (∀ t ∈ tokens, ∀ name, t.kind = .ident name →
          ∃ before after, text = before ++ name ++ after ∧ t.offset = before.utf8ByteSize) ∧
        (∀ p ∈ e.names, ∃ run, run <:+: tokens ∧
          run.map Token.kind = (p.segments.map Kind.ident).intersperse .dot) ∧
        tokens.filterMap (·.kind.identifier?) = e.names.flatMap segments := by
  refine ⟨fun _ hne h => segments_ofSegments hne h, ofSegments_segments, fun limit text e h => ?_⟩
  obtain ⟨tokens, hscan, hnames⟩ := Expr.exists_names_of_ofText h
  refine ⟨tokens, hscan, (Token.tiles_scanFrom 0 _ _ hscan).offsets_increase,
    fun t ht name hname => Token.exists_append_of_ident hscan ht hname, ?_, ?_⟩
  · intro p hp
    obtain ⟨run, hrun, hkinds⟩ := List.infix_map_iff.1 (hnames.dotted_infix hp)
    exact ⟨run, hrun, hkinds.symm⟩
  · rw [← hnames.filterMap_identifier?, List.filterMap_map]
    rfl

end Path

/-- The tree of `user.profile.tier = promo.code and length(user)`. -/
def Expr.tierCode : Expr :=
  .and (.compare .eq (.var ⟨"user.profile.tier"⟩) (.var ⟨"promo.code"⟩))
    (.call "length" [.var ⟨"user"⟩])

/-- Segments of which some are empty, and a condition with four names. -/
theorem Path.names_keep_segments_tierCode :
    (Path.mk ".total.").segments = ["", "total", ""] ∧
    (∀ s ∈ ["", "total", ""], '.' ∉ s.toList) ∧
    ∃ tokens, Token.scan "((user.profile.tier = promo.code) and length(user))" = .ok tokens ∧
      (∃ run, run <:+: tokens ∧ run.map Token.kind =
        [.ident "user", .dot, .ident "profile", .dot, .ident "tier"]) ∧
      tokens.filterMap (·.kind.identifier?) =
        ["user", "profile", "tier", "promo", "code", "length", "user"] := by
  obtain ⟨hcut, -, hread⟩ := names_keep_segments
  have hdots : ∀ s ∈ ["", "total", ""], '.' ∉ s.toList := by decide
  have hprintable : Expr.tierCode.Printable := by
    refine ⟨⟨⟨["user", "profile", "tier"], ?_, ?_, rfl⟩, ⟨["promo", "code"], ?_, ?_, rfl⟩⟩,
      ⟨["length"], ?_, ?_, rfl⟩, ⟨["user"], ?_, ?_, rfl⟩, trivial⟩ <;> decide +kernel
  have htext : Expr.ofText 4 "((user.profile.tier = promo.code) and length(user))" =
      .ok Expr.tierCode :=
    Expr.ofText_render Expr.tierCode hprintable 4
  obtain ⟨tokens, hscan, -, -, hruns, hidentifiers⟩ := hread 4 _ _ htext
  have htier : (Path.mk "user.profile.tier").segments = ["user", "profile", "tier"] :=
    hcut ["user", "profile", "tier"] (by simp) (by decide)
  obtain ⟨run, hrun, hkinds⟩ := hruns ⟨"user.profile.tier"⟩ (by simp [Expr.tierCode, Expr.names])
  rw [htier] at hkinds
  have hnames : Expr.tierCode.names.flatMap segments =
      ["user", "profile", "tier", "promo", "code", "length", "user"] := by decide +kernel
  exact ⟨hcut _ (by simp) hdots, hdots, tokens, hscan, ⟨run, hrun, hkinds⟩,
    hidentifiers.trans hnames⟩

end Promotions
