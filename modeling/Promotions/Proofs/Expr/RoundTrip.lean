import Promotions.Expr.Text
import Promotions.Proofs.Expr.Acceptance
import Promotions.Proofs.Expr.Printing
import Promotions.Proofs.Token.Tiling

/-!
# Printed trees read back

The text of a printable tree is cut into tokens that derive the tree again, with `brackets`
constructs open at once. So the text is read back exactly if the limit has room for the depth of
the tree and for these brackets.
-/

namespace Promotions

open Token (Kind Scans anywhere)
open Lexeme (inWord inNumber wordKind)
open Grammar

namespace Expr

/-! ## Texts of trees -/

/-- The text of the tree stands for its plain form. -/
def ReadsBack (e : Expr) : Prop :=
  ∃ ks, Scans inNumber e.render.toList ks ∧ Derives (.expr .primary e.plain) ks e.brackets

theorem scans_keyword (word : String) (k : Kind) (hk : wordKind word.toList = k)
    (hword : word.toList.head?.any Lexeme.startsWord && word.toList.all inWord) :
    Scans inWord word.toList [k] := by
  rw [Bool.and_eq_true] at hword
  rw [← hk]
  exact Token.scans_word _ hword.1 hword.2

theorem scans_name (segments : List String) (hne : segments ≠ [])
    (h : ∀ s ∈ segments, Token.IsIdentifier s) :
    Scans inWord (Path.ofSegments segments).text.toList (dotted segments) := by
  induction segments with
  | nil => exact absurd rfl hne
  | cons s rest ih =>
    have hs := (h s (by simp)).scans
    by_cases hrest : rest = []
    · subst hrest
      rw [dotted_singleton]
      simpa [Path.ofSegments] using hs
    · have htail := ih hrest fun x hx => h x (by simp [hx])
      have htext : (Path.ofSegments (s :: rest)).text.toList =
          s.toList ++ '.' :: (Path.ofSegments rest).text.toList := by
        simp [Path.ofSegments, String.intercalate_cons_of_ne_nil hrest]
      rw [htext, dotted_cons _ _ hrest]
      exact hs.append_cons (Lexeme.scans_dot.append_of_anywhere htail) (by decide +kernel)

theorem IsName.scans {text : String} (h : IsName text) :
    ∃ segments, segments ≠ [] ∧ text = (Path.ofSegments segments).text ∧
      Scans inWord text.toList (dotted segments) := by
  obtain ⟨segments, hne, hall, rfl⟩ := h
  exact ⟨segments, hne, rfl, scans_name segments hne hall⟩

/-! ## One node -/

theorem readsBack_bool (b : Bool) : (bool b).ReadsBack := by
  cases b with
  | false =>
    refine ⟨[.false], ?_, Derives.false⟩
    have h := scans_keyword "false" .false (by decide) (by decide +kernel)
    exact h.mono Lexeme.inNumber_of_inWord
  | true =>
    refine ⟨[.true], ?_, Derives.true⟩
    have h := scans_keyword "true" .true (by decide) (by decide +kernel)
    exact h.mono Lexeme.inNumber_of_inWord

theorem readsBack_number (n : Decimal) : (number n).ReadsBack := by
  refine ⟨[.number n.plain], ?_, Derives.number⟩
  rw [render, Decimal.render, String.toList_ofList]
  exact Token.scans_number n

theorem readsBack_string (s : String) (h : '"' ∉ s.toList) : (string s).ReadsBack := by
  refine ⟨[.string s], ?_, Derives.string⟩
  have hscans := Token.scans_string s.toList h
  rw [String.ofList_toList] at hscans
  have htext : (string s).render.toList = '"' :: (s.toList ++ ['"']) := by
    simp [render]
  rw [htext]
  exact hscans.of_anywhere inNumber

theorem readsBack_var (p : Path) (h : IsName p.text) : (var p).ReadsBack := by
  obtain ⟨segments, hne, htext, hscans⟩ := IsName.scans h
  have hp : p = Path.ofSegments segments := by
    cases p
    rw [Path.mk.injEq]
    exact htext
  refine ⟨dotted segments, hscans.mono Lexeme.inNumber_of_inWord, ?_⟩
  rw [plain, hp]
  exact Derives.var hne

theorem scans_binary {stop : Char → Bool} {as bs sign : List Char} {p q : List Kind} {k : Kind}
    (ha : Scans inNumber as p) (hsign : Scans stop sign [k]) (hstop : stop ' ' = false)
    (hb : Scans inNumber bs q) :
    Scans inNumber ('(' :: (as ++ ' ' :: (sign ++ ' ' :: (bs ++ [')']))))
      (.leftParen :: (p ++ k :: q ++ [.rightParen])) := by
  have hright := Token.scans_blank.append_of_anywhere
    (hb.append_cons Lexeme.scans_rightParen (by decide +kernel))
  have hmiddle := Token.scans_blank.append_of_anywhere (hsign.append_cons hright hstop)
  have hleft := Lexeme.scans_leftParen.append_of_anywhere
    (ha.append_cons hmiddle (by decide +kernel))
  simpa using hleft.of_anywhere inNumber

theorem readsBack_compare (op : Comparator) (a b : Expr) (ha : a.ReadsBack) (hb : b.ReadsBack) :
    (compare op a b).ReadsBack := by
  obtain ⟨p, ha, hda⟩ := ha
  obtain ⟨q, hb, hdb⟩ := hb
  refine ⟨.leftParen :: (p ++ .compare op :: q ++ [.rightParen]), ?_, ?_⟩
  · simpa [render] using scans_binary ha (Lexeme.scans_compare op) (by decide) hb
  · rw [plain, brackets, Nat.add_comm]
    exact ((Derives.compare hda hdb).loosen (by decide)).group

theorem readsBack_and (a b : Expr) (ha : a.ReadsBack) (hb : b.ReadsBack) :
    (and a b).ReadsBack := by
  obtain ⟨p, ha, hda⟩ := ha
  obtain ⟨q, hb, hdb⟩ := hb
  refine ⟨.leftParen :: (p ++ .and :: q ++ [.rightParen]), ?_, ?_⟩
  · have hsign := scans_keyword "and" .and (by decide) (by decide +kernel)
    simpa [render] using scans_binary ha hsign (by decide +kernel) hb
  · rw [plain, brackets, Nat.add_comm]
    have hleft := hda.of_primary .and
    have hright := hdb.of_primary .not
    exact ((Derives.and hleft hright).loosen (by decide)).group

theorem readsBack_or (a b : Expr) (ha : a.ReadsBack) (hb : b.ReadsBack) : (or a b).ReadsBack := by
  obtain ⟨p, ha, hda⟩ := ha
  obtain ⟨q, hb, hdb⟩ := hb
  refine ⟨.leftParen :: (p ++ .or :: q ++ [.rightParen]), ?_, ?_⟩
  · have hsign := scans_keyword "or" .or (by decide) (by decide +kernel)
    simpa [render] using scans_binary ha hsign (by decide +kernel) hb
  · rw [plain, brackets, Nat.add_comm]
    have hleft := hda.of_primary .or
    have hright := hdb.of_primary .and
    exact (Derives.or hleft hright).group

theorem readsBack_not (a : Expr) (ha : a.ReadsBack) : (not a).ReadsBack := by
  obtain ⟨p, ha, hda⟩ := ha
  refine ⟨.leftParen :: (.not :: p ++ [.rightParen]), ?_, ?_⟩
  · have hnot := scans_keyword "not" .not (by decide) (by decide +kernel)
    have hoperand := Token.scans_blank.append_of_anywhere
      (ha.append_cons Lexeme.scans_rightParen (by decide +kernel))
    have hall := Lexeme.scans_leftParen.append_of_anywhere
      (hnot.append_cons hoperand (by decide +kernel))
    simpa [render] using hall.of_anywhere inNumber
  · rw [plain, brackets, show 2 + a.brackets = a.brackets + 1 + 1 by omega]
    exact ((Derives.not (hda.of_primary .not)).loosen (by decide)).group

/-! ## Calls -/

theorem scans_arguments (args : List Expr) (hne : args ≠ []) (h : ∀ e ∈ args, e.ReadsBack) :
    ∃ ks, Scans inNumber (String.intercalate ", " (renderAll args)).toList ks ∧
      Derives (.arguments (plainAll args)) ks (maxBrackets args) := by
  -- The list is taken apart at its end, as the grammar builds it.
  induction args using List.reverseRecOn with
  | nil => exact absurd rfl hne
  | append_singleton es e ih =>
    obtain ⟨q, he, hde⟩ := h e (by simp)
    have hde := hde.of_primary .or
    rw [plainAll_eq_map, renderAll_eq_map, maxBrackets_append]
    by_cases hes : es = []
    · subst hes
      refine ⟨q, by simpa using he, ?_⟩
      simpa [maxBrackets] using hde.argument
    · obtain ⟨p, hs, hds⟩ := ih hes fun x hx => h x (by simp [hx])
      rw [renderAll_eq_map] at hs
      rw [plainAll_eq_map] at hds
      refine ⟨p ++ .comma :: q, ?_, ?_⟩
      · have hlast := Lexeme.scans_comma.append_of_anywhere
          (Token.scans_blank.append_of_anywhere he)
        have hmap : es.map render ≠ [] := by simpa using hes
        rw [List.map_append, List.map_singleton,
          String.intercalate_append_of_ne_nil hmap (by simp)]
        simpa using hs.append_cons hlast (by decide +kernel)
      · rw [List.map_append, List.map_singleton]
        exact hds.comma hde

theorem readsBack_call (name : String) (args : List Expr) (hname : IsName name)
    (h : ∀ e ∈ args, e.ReadsBack) : (call name args).ReadsBack := by
  obtain ⟨segments, hne, htext, hscans⟩ := IsName.scans hname
  by_cases hargs : args = []
  · subst hargs
    have hclose := Lexeme.scans_leftParen.append_of_anywhere Lexeme.scans_rightParen
    refine ⟨dotted segments ++ [.leftParen, .rightParen], ?_, ?_⟩
    · have hall := hscans.append_cons hclose (by decide +kernel)
      simpa [render, renderAll] using hall.of_anywhere inNumber
    · rw [plain, htext]
      exact Derives.call_nil hne
  · obtain ⟨p, hs, hd⟩ := scans_arguments args hargs h
    have hclose := Lexeme.scans_leftParen.append_of_anywhere
      (hs.append_cons Lexeme.scans_rightParen (by decide +kernel))
    refine ⟨dotted segments ++ .leftParen :: (p ++ [.rightParen]), ?_, ?_⟩
    · have hall := hscans.append_cons hclose (by decide +kernel)
      simpa [render] using hall.of_anywhere inNumber
    · rw [plain, htext, brackets, Nat.add_comm]
      exact Derives.call hne hd

theorem readsBack_of_printable (e : Expr) (h : e.Printable) : e.ReadsBack := by
  induction e with
  | bool b => exact readsBack_bool b
  | number n => exact readsBack_number n
  | string s => exact readsBack_string s h
  | var p => exact readsBack_var p h
  | compare op a b iha ihb => exact readsBack_compare op a b (iha h.1) (ihb h.2)
  | and a b iha ihb => exact readsBack_and a b (iha h.1) (ihb h.2)
  | or a b iha ihb => exact readsBack_or a b (iha h.1) (ihb h.2)
  | not a ih => exact readsBack_not a (ih h)
  | call name args ih =>
    obtain ⟨hname, hargs⟩ := h
    rw [allPrintable_iff] at hargs
    exact readsBack_call name args hname fun e he => ih e he (hargs e he)

/-! ## Printing and reading -/

theorem exists_scan_of_scans {stop : Char → Bool} {text : String} {ks : List Kind}
    (h : Scans stop text.toList ks) :
    ∃ ts t, Token.scan text = .ok (ts ++ [t]) ∧ ts.map Token.kind = ks ∧ t.kind = .endOfInput := by
  obtain ⟨ts, hts, hscan⟩ := h 0 [] (Token.Bounded.nil stop)
  rw [List.append_nil, Token.scanFrom] at hscan
  exact ⟨ts, ⟨.endOfInput, 0 + byteLength text.toList⟩, hscan, hts, rfl⟩

/-- The text of a printable tree is read exactly if the limit has room for it. -/
theorem ofText_render (e : Expr) (h : e.Printable) (limit : Nat) :
    ofText limit e.render =
      if e.depth ≤ max 1 limit ∧ e.brackets ≤ limit then .ok e.plain
      else .error (.parse (.tooDeep limit)) := by
  obtain ⟨ks, hscans, hd⟩ := readsBack_of_printable e h
  obtain ⟨ts, t, hscan, rfl, ht⟩ := exists_scan_of_scans hscans
  have hread : ofTokens limit (ts ++ [t]) = _ := ofTokens_of_derives (hd.of_primary .or) ht
  rw [depth_plain] at hread
  unfold ofText
  rw [hscan]
  simp only [hread, And.comm]
  split <;> rfl

theorem exists_derives_of_ofText {limit : Nat} {text : String} {e : Expr}
    (h : ofText limit text = .ok e) :
    ∃ ts t n, Token.scan text = .ok (ts ++ [t]) ∧ t.kind = .endOfInput ∧
      Derives (.expr .or e) (ts.map Token.kind) n ∧ e.depth ≤ max 1 limit ∧
      ∀ k ∈ ts.map Token.kind, k.Readable := by
  unfold ofText at h
  split at h
  · simp at h
  · rename_i tokens hscan
    have hread : ofTokens limit tokens = .ok e := by
      cases htokens : ofTokens limit tokens with
      | error err => simp [htokens, Except.mapError] at h
      | ok e' => simpa [htokens, Except.mapError] using h
    obtain ⟨ts, t, us, rfl, ht, n, hd, -, hdepth⟩ := exists_derives_of_ofTokens hread
    have htiles := Token.tiles_scanFrom 0 _ _ hscan
    -- Only the last token of a text is its end.
    obtain rfl : us = [] := by
      obtain ⟨vs, hvs, hkinds⟩ := htiles.ends
      rcases List.eq_nil_or_concat us with rfl | ⟨us, u, rfl⟩
      · rfl
      · rw [List.concat_eq_append, ← List.cons_append, ← List.append_assoc] at hvs
        obtain ⟨rfl, -⟩ := List.append_inj' hvs rfl
        exact absurd ht (hkinds t (by simp))
    refine ⟨ts, t, n, hscan, ht, hd, hdepth, ?_⟩
    intro k hk
    obtain ⟨x, hx, rfl⟩ := List.mem_map.1 hk
    exact htiles.readable x (by simp [hx])

theorem of_ofText (limit : Nat) (text : String) (e : Expr) (h : ofText limit text = .ok e) :
    e.Printable ∧ e.plain = e ∧ e.depth ≤ max 1 limit := by
  obtain ⟨ts, t, n, -, -, hd, hdepth, hreadable⟩ := exists_derives_of_ofText h
  obtain ⟨hprintable, hplain⟩ := hd.printable hreadable
  exact ⟨hprintable, hplain, hdepth⟩

/-- Printing and reading undo each other on the printable trees, and `brackets` is the exact limit
that the text needs beside the depth. -/
theorem printing_reads_back :
    (∀ (limit : Nat) (text : String) (e : Expr), ofText limit text = .ok e →
      e.Printable ∧ e.plain = e) ∧
    ∀ e : Expr, e.Printable → e.plain.same e ∧ ∀ limit : Nat,
      ofText limit e.render =
        if e.depth ≤ max 1 limit ∧ e.brackets ≤ limit then .ok e.plain
        else .error (.parse (.tooDeep limit)) := by
  constructor
  · intro limit text e h
    obtain ⟨hprintable, hplain, -⟩ := of_ofText limit text e h
    exact ⟨hprintable, hplain⟩
  · intro e h
    exact ⟨plain_same e, ofText_render e h⟩

/-- A negated comparison with a negative number, at the limit that it needs and just below. -/
theorem printing_reads_back_negation :
    let e : Expr :=
      .not (.compare .lt (.var ⟨"order.total"⟩)
        (.number (.ofCoeff (-5) 1 (by decide) (by decide))))
    e.Printable ∧ e.plain = e ∧ ofText 3 "(not (order.total < -0.5))" = .ok e ∧
      ofText 2 "(not (order.total < -0.5))" = .error (.parse (.tooDeep 2)) := by
  intro e
  have hname : IsName "order.total" := ⟨["order", "total"], by simp, by decide +kernel, rfl⟩
  have hprintable : e.Printable := ⟨hname, trivial⟩
  have hread := (printing_reads_back.2 e hprintable).2
  have hplain := printing_reads_back.1 3 _ e (hread 3)
  exact ⟨hprintable, hplain.2, hread 3, hread 2⟩

/-! ## Printing again under the same limit -/

/-- A tree read from a text can be printed and read again under the same limit exactly if the
brackets that printing adds fit in it too. -/
theorem reprinting_iff (limit : Nat) (text : String) (e : Expr) (h : ofText limit text = .ok e) :
    (ofText limit e.render = .ok e ↔ e.brackets ≤ limit) ∧
      (limit < e.brackets → ofText limit e.render = .error (.parse (.tooDeep limit))) := by
  obtain ⟨hprintable, hplain, hdepth⟩ := of_ofText limit text e h
  rw [ofText_render e hprintable, hplain]
  by_cases hfits : e.brackets ≤ limit
  · rw [if_pos ⟨hdepth, hfits⟩]
    exact ⟨by simp [hfits], by omega⟩
  · rw [if_neg (by simp [hfits])]
    exact ⟨by simp [hfits], fun _ => rfl⟩

theorem scan_not_not : Token.scan "not not a" =
    .ok ([⟨.not, 0⟩, ⟨.not, 4⟩, ⟨.ident "a", 8⟩] ++ [⟨.endOfInput, 9⟩]) := by
  decide +kernel

theorem ofText_not_not (limit : Nat) (h : 3 ≤ limit) :
    ofText limit "not not a" = .ok (.not (.not (.var ⟨"a"⟩))) := by
  have hvar : Derives (.expr .not (.var ⟨"a"⟩)) [.ident "a"] 0 :=
    (Derives.var (List.cons_ne_nil "a" [])).of_primary .not
  have hread :
      ofTokens limit ([⟨.not, 0⟩, ⟨.not, 4⟩, ⟨.ident "a", 8⟩] ++ [⟨.endOfInput, 9⟩]) = _ :=
    ofTokens_of_derives hvar.not.not.and_not.or_and rfl
  unfold ofText
  rw [scan_not_not]
  simp only [hread]
  rw [if_pos ⟨by omega, by simp [depth]; omega⟩]
  rfl

theorem reprinting_iff_not_not :
    ofText 4 "not not a" = .ok (.not (.not (.var ⟨"a"⟩))) ∧
      ofText 4 "(not (not a))" = .ok (.not (.not (.var ⟨"a"⟩))) := by
  have hread := ofText_not_not 4 (by decide)
  have hreprint := (reprinting_iff 4 _ _ hread).1.2 (by decide)
  exact ⟨hread, hreprint⟩

/-- `not not a` is read under the limit 3, and its text `(not (not a))` is not. -/
theorem not_reprinting_always : ¬ ∀ (limit : Nat) (text : String) (e : Expr),
    ofText limit text = .ok e → ofText limit e.render = .ok e := by
  intro h
  have hreprint := h 3 _ _ (ofText_not_not 3 (by decide))
  have hprintable : (Expr.not (.not (.var ⟨"a"⟩))).Printable :=
    ⟨["a"], by simp, by decide +kernel, rfl⟩
  rw [ofText_render _ hprintable, if_neg (by decide)] at hreprint
  simp at hreprint

end Expr

end Promotions
