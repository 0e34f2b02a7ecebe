import Promotions.Proofs.RuleBook.Session

/-!
# The history of a book

The rules of a book are the stable sort of a plain log in which rules stand in the order of their
arrival. A book sorts after every edit what is sorted already, and the log is never sorted. The two
stay together because an edit treats lists alike that agree on every priority.
-/

namespace Promotions

namespace Edit

/-- The log after an edit. A refused edit leaves it as it was. -/
def amend (s : Settings) (log : List Rule) (edit : Edit) : List Rule :=
  (edit.amend? s log).getD log

/-- The log of a session that starts with no rules. -/
def log (s : Settings) (edits : List Edit) : List Rule := edits.foldl (amend s) []

theorem Amends.eq_of_isVoid {s : Settings} {xs ys : List Rule} {edit : Edit}
    (h : Amends s xs edit ys) (hvoid : edit.isVoid) : ys = xs := by
  cases h with
  | addAll hds hnodup =>
    cases hds with
    | nil => exact List.append_nil xs
    | cons hrule hrest => simp [isVoid] at hvoid
  | _ => simp [isVoid] at hvoid

/-! ## What the edits keep -/

/-- Rules that come from their own definitions, no two with one id. -/
structure Consistent (s : Settings) (rules : List Rule) : Prop where
  compiled : ∀ rule ∈ rules, rule.Compiled s
  nodup : (rules.map (·.id)).Nodup

namespace Consistent

variable {s : Settings} {xs ys : List Rule}

theorem nil (s : Settings) : Consistent s [] := ⟨by simp, by simp⟩

theorem perm (h : Consistent s xs) (hperm : xs.Perm ys) : Consistent s ys where
  compiled rule hrule := h.compiled rule (hperm.mem_iff.2 hrule)
  nodup := (hperm.map _).nodup_iff.1 h.nodup

theorem filter (h : Consistent s xs) (keep : Rule → Bool) : Consistent s (xs.filter keep) where
  compiled rule hrule := h.compiled rule (List.mem_filter.1 hrule).1
  nodup := h.nodup.sublist (List.filter_sublist.map _)

theorem append (h : Consistent s xs) (hys : ∀ rule ∈ ys, rule.Compiled s)
    (hnodup : ((xs ++ ys).map (·.id)).Nodup) : Consistent s (xs ++ ys) where
  compiled := List.forall_mem_append.2 ⟨h.compiled, hys⟩
  nodup := hnodup

theorem concat (h : Consistent s xs) {rule : Rule} (hrule : rule.Compiled s)
    (hnew : rule.id ∉ xs.map (·.id)) : Consistent s (xs ++ [rule]) := by
  refine h.append (by simpa using hrule) ?_
  rw [List.map_append, List.nodup_append]
  refine ⟨h.nodup, by simp, ?_⟩
  rintro _ hid _ hmem rfl
  rw [List.map_singleton, List.mem_singleton] at hmem
  exact hnew (hmem ▸ hid)

theorem setEnabled (h : Consistent s xs) (id : String) (enabled : Bool) :
    Consistent s
      (xs.map fun rule => if rule.id = id then { rule with enabled := enabled } else rule) := by
  constructor
  · intro rule hrule
    obtain ⟨old, hold, rfl⟩ := List.mem_map.1 hrule
    split
    · exact (h.compiled old hold).withEnabled enabled
    · exact h.compiled old hold
  · rw [List.map_map]
    convert h.nodup using 2
    funext rule
    simp only [Function.comp_apply]
    split <;> rfl

theorem amends (h : Consistent s xs) {edit : Edit} (hedit : Amends s xs edit ys) :
    Consistent s ys := by
  cases hedit with
  | add hd hnew => exact h.concat (Rule.compiled_of_compile hd) hnew
  | addAll hds hnodup => exact h.append (compiled_of_forall₂ hds) hnodup
  | replace hd hold =>
    refine (h.filter _).concat (Rule.compiled_of_compile hd) ?_
    simp
  | remove hold => exact h.filter _
  | setEnabled enabled hold => exact h.setEnabled _ enabled

end Consistent

/-! ## Edits and the order of the list -/

theorem Amends.sameRanks {s : Settings} {xs ys us : List Rule} {edit : Edit}
    (hedit : Amends s xs edit us) (h : RuleBook.SameRanks xs ys) :
    ∃ vs, Amends s ys edit vs ∧ RuleBook.SameRanks us vs := by
  have hids : ∀ id, id ∈ xs.map (·.id) ↔ id ∈ ys.map (·.id) := fun id => (h.perm.map _).mem_iff
  cases hedit with
  | add hd hnew => exact ⟨_, .add hd (mt (hids _).2 hnew), h.append (.refl _)⟩
  | @addAll ds batch hds hnodup =>
    have hperm := (h.perm.append_right batch).map (·.id)
    exact ⟨_, .addAll hds (hperm.nodup_iff.1 hnodup), h.append (.refl _)⟩
  | replace hd hold => exact ⟨_, .replace hd ((hids _).1 hold), (h.filter _).append (.refl _)⟩
  | remove hold => exact ⟨_, .remove ((hids _).1 hold), h.filter _⟩
  | setEnabled enabled hold =>
    refine ⟨_, .setEnabled enabled ((hids _).1 hold), h.map _ fun rule => ?_⟩
    split <;> rfl

end Edit

namespace RuleBook

/-- The book holds the rules of `log` by priority. -/
structure Represents (book : RuleBook) (s : Settings) (log : List Rule) : Prop where
  settings : book.settings = s
  consistent : Edit.Consistent s log
  sorted : book.rules = byPriority log

theorem represents_empty (s : Settings) : (empty s).Represents s [] :=
  ⟨rfl, .nil s, by simp [byPriority, empty]⟩

namespace Represents

variable {book : RuleBook} {s : Settings} {log : List Rule}

theorem sameRanks (h : book.Represents s log) : SameRanks book.rules log := by
  rw [h.sorted]
  exact sameRanks_byPriority log

theorem nodup (h : book.Represents s log) : book.ids.Nodup :=
  (h.consistent.perm h.sameRanks.perm.symm).nodup

/-- One edit of the book is one edit of the log, refused by both or by neither. -/
theorem perform (h : book.Represents s log) (edit : Edit) :
    (book.perform edit).1.Represents s (edit.amend s log) ∧
      (book.perform edit).2.isSuccess = (edit.amend? s log).isSome := by
  unfold Edit.amend
  have hcases := perform_cases book h.nodup edit
  rw [h.settings] at hcases
  rcases hcases with ⟨hnone, hbook, hfailed⟩ | ⟨rules, hsome, hbook, hdone⟩
  · have hlog : edit.amend? s log = none := by
      -- What the log takes, the book takes too.
      rw [Option.eq_none_iff_forall_ne_some]
      intro log' hlog'
      obtain ⟨rules, hrules, -⟩ :=
        ((Edit.amend?_eq_some_iff s log edit log').1 hlog').sameRanks h.sameRanks.symm
      rw [(Edit.amend?_eq_some_iff s book.rules edit rules).2 hrules] at hnone
      simp at hnone
    rw [hlog, hbook, hfailed]
    exact ⟨h, rfl⟩
  · have hrules := (Edit.amend?_eq_some_iff s book.rules edit rules).1 hsome
    obtain ⟨log', hlog', hranks⟩ := hrules.sameRanks h.sameRanks
    rw [(Edit.amend?_eq_some_iff s log edit log').2 hlog', hdone, hbook]
    refine ⟨?_, rfl⟩
    by_cases hvoid : edit.isVoid
    · rw [if_pos hvoid, Option.getD_some, hlog'.eq_of_isVoid hvoid]
      exact h
    · rw [if_neg hvoid, Option.getD_some]
      exact ⟨h.settings, h.consistent.amends hlog', byPriority_congr hranks⟩

theorem run (h : book.Represents s log) (edits : List Edit) :
    (book.run edits).Represents s (edits.foldl (Edit.amend s) log) := by
  induction edits generalizing book log with
  | nil => exact h
  | cons edit edits ih => exact ih (h.perform edit).1

end Represents

theorem represents_log (s : Settings) (edits : List Edit) :
    ((empty s).run edits).Represents s (Edit.log s edits) :=
  (represents_empty s).run edits

/-! ## The order of a book -/

/-- After every session the rules of the book are the stable sort of the log: they fall in
priority, and those of one priority stand as in the log. The book and the log refuse the same
edits. -/
theorem rules_eq_byPriority_log (s : Settings) (edits : List Edit) :
    let book := (empty s).run edits
    let log := Edit.log s edits
    book.rules = byPriority log ∧ Falling book.rules ∧ SameRanks book.rules log ∧
      ∀ edit : Edit, (book.perform edit).2.isSuccess = (edit.amend? s log).isSome := by
  intro book log
  have h : book.Represents s log := represents_log s edits
  obtain ⟨hfalling, hranks⟩ := (eq_byPriority_iff book.rules log).1 h.sorted
  exact ⟨h.sorted, hfalling, hranks, fun edit => (h.perform edit).2⟩

end RuleBook

end Promotions
