import Promotions.Proofs.RuleBook.Batch

/-!
# Edits that fail and edits that are taken

A refused edit leaves the book as it was, wherever its fault lies. Any other edit raises the version
by one, except that a batch of no rules changes nothing. Putting a rule in the place of an old one
leaves the rules that taking out the old one and adding the new one leave, in one step of the
version in place of two: both ways stand for the same log.
-/

namespace Promotions

theorem Rule.id_of_compile {s : Settings} {d : RuleDefinition} {rule : Rule}
    (h : d.compile s = .ok rule) : rule.id = d.id :=
  congrArg (·.id) (toRuleDefinition_of_compile h)

namespace RuleBook

variable {book : RuleBook}

/-! ## The book after one edit -/

theorem perform_of_refused (hids : book.ids.Nodup) (edit : Edit)
    (h : (book.perform edit).2.isSuccess = false) : (book.perform edit).1 = book := by
  rcases perform_cases book hids edit with ⟨-, hbook, -⟩ | ⟨rules, -, -, hdone⟩
  · exact hbook
  · simp [hdone] at h

theorem version_of_taken (hids : book.ids.Nodup) (edit : Edit)
    (h : (book.perform edit).2.isSuccess = true) (hedit : edit ≠ .addAll []) :
    (book.perform edit).1.version = book.version + 1 := by
  rcases perform_cases book hids edit with ⟨-, -, hfailed⟩ | ⟨rules, -, hbook, -⟩
  · simp [hfailed] at h
  · have hvoid : edit.isVoid = false := by
      cases edit with
      | addAll ds => cases ds <;> simp [Edit.isVoid] at hedit ⊢
      | _ => rfl
    rw [hbook, hvoid]
    rfl

/-! ## Replacing a rule -/

namespace Represents

variable {s : Settings} {log : List Rule} {d : RuleDefinition}

theorem mem_ids_iff (h : book.Represents s log) (id : String) :
    id ∈ book.ids ↔ id ∈ log.map (·.id) :=
  (h.sameRanks.perm.map _).mem_iff

theorem replace_eq_ok_iff (h : book.Represents s log) (d : RuleDefinition) :
    (book.replace d).2 = .ok () ↔ (∃ rule, d.compile s = .ok rule) ∧ d.id ∈ book.ids := by
  rw [← Edit.Answer.isSuccess_checked_iff, h.mem_ids_iff]
  refine (h.isSuccess_iff (.replace d)).trans ⟨?_, ?_⟩
  · rintro ⟨rules, hrules⟩
    cases hrules with
    | @replace _ rule hd hold => exact ⟨⟨rule, hd⟩, Rule.id_of_compile hd ▸ hold⟩
  · rintro ⟨⟨rule, hd⟩, hold⟩
    rw [← Rule.id_of_compile hd] at hold
    exact ⟨_, .replace hd hold⟩

theorem remove_add (h : book.Represents s log) (hok : (book.replace d).2 = .ok ()) :
    (book.remove d.id).2 = true ∧ ((book.remove d.id).1.add d).2 = .ok () ∧
      ((book.remove d.id).1.add d).1.rules = (book.replace d).1.rules := by
  obtain ⟨⟨rule, hd⟩, hmem⟩ := (h.replace_eq_ok_iff d).1 hok
  have hid : rule.id = d.id := Rule.id_of_compile hd
  have hold : d.id ∈ log.map (·.id) := (h.mem_ids_iff d.id).1 hmem
  have hnew : rule.id ∉ (log.filter (·.id ≠ d.id)).map (·.id) := by simp [hid]
  have hremove := Edit.Amends.remove (s := s) hold
  have hadd := Edit.Amends.add hd hnew
  have hreplace : Edit.Amends s log (.replace d) (log.filter (·.id ≠ d.id) ++ [rule]) := by
    rw [← hid]
    exact .replace hd (hid ▸ hold)
  have hgone : (book.remove d.id).1.Represents s _ := h.perform_of_amends hremove
  refine ⟨(h.isSuccess_iff (.remove d.id)).2 ⟨_, hremove⟩, ?_, ?_⟩
  · exact (Edit.Answer.isSuccess_checked_iff _).1 ((hgone.isSuccess_iff (.add d)).2 ⟨_, hadd⟩)
  · exact (hgone.perform_of_amends hadd).sorted.trans (h.perform_of_amends hreplace).sorted.symm

end Represents

/-! ## All or nothing -/

/-- A refused edit changes nothing, and one that is taken counts once. A replacement is taken exactly
if its definition compiles and the id is there. It leaves the rules that removing and adding
leave. -/
theorem perform_all_or_nothing (s : Settings) (edits : List Edit) :
    let book := (empty s).run edits
    (∀ edit : Edit, (book.perform edit).2.isSuccess = false → (book.perform edit).1 = book) ∧
    (∀ edit : Edit, (book.perform edit).2.isSuccess = true → edit ≠ .addAll [] →
      (book.perform edit).1.version = book.version + 1) ∧
    book.addAll [] = (book, .ok ()) ∧
    ∀ d : RuleDefinition,
      ((book.replace d).2 = .ok () ↔ (∃ rule, d.compile s = .ok rule) ∧ d.id ∈ book.ids) ∧
      ((book.replace d).2 = .ok () →
        let gone := book.remove d.id
        let anew := gone.1.add d
        gone.2 = true ∧ anew.2 = .ok () ∧ anew.1.rules = (book.replace d).1.rules ∧
          (book.replace d).1.version = book.version + 1 ∧ anew.1.version = book.version + 2) := by
  intro book
  have h : book.Represents s (Edit.log s edits) := represents_log s edits
  refine ⟨perform_of_refused h.nodup, version_of_taken h.nodup, rfl, fun d => ?_⟩
  refine ⟨h.replace_eq_ok_iff d, fun hok => ?_⟩
  intro gone anew
  obtain ⟨hgone, hanew, hrules⟩ := h.remove_add hok
  have hreplace : (book.replace d).1.version = book.version + 1 :=
    version_of_taken h.nodup (.replace d) ((Edit.Answer.isSuccess_checked_iff _).2 hok) (by simp)
  have hremove : gone.1.version = book.version + 1 :=
    version_of_taken h.nodup (.remove d.id) hgone (by simp)
  refine ⟨hgone, hanew, hrules, hreplace, ?_⟩
  rw [version_add hanew, hremove]

/-- A batch whose second condition breaks off. -/
def halfWritten : Edit :=
  .addAll
    [RuleDefinition.ofCondition "student" "age < 26" (.points 2),
     RuleDefinition.ofCondition "member" "guest or not" (.points 1)]

/-- A new rule for an id of `sale`, of higher priority than the old one. -/
def lateNight : RuleDefinition :=
  (RuleDefinition.ofCondition "late" "hour >= 22" (.points 4)).withPriority 7

theorem perform_all_or_nothing_sale :
    let book := (empty .standard).run sale
    (book.perform halfWritten).2.isSuccess = false ∧ (book.perform halfWritten).1 = book ∧
    (book.replace lateNight).2 = .ok () ∧
      ((book.remove "late").1.add lateNight).1.rules = (book.replace lateNight).1.rules ∧
      (book.replace lateNight).1.version = book.version + 1 ∧
      ((book.remove "late").1.add lateNight).1.version = book.version + 2 := by
  intro book
  have h := represents_log .standard sale
  have hrefused : (book.perform halfWritten).2.isSuccess = false := by
    rw [(h.perform halfWritten).2]
    decide +kernel
  have htaken : (book.perform (.replace lateNight)).2.isSuccess = true := by
    rw [(h.perform (.replace lateNight)).2]
    decide +kernel
  have hok := (Edit.Answer.isSuccess_checked_iff (book.replace lateNight).2).1 htaken
  obtain ⟨hsame, -, -, hreplace⟩ := perform_all_or_nothing .standard sale
  obtain ⟨-, -, hrules, hversion, hversions⟩ := (hreplace lateNight).2 hok
  exact ⟨hrefused, hsame halfWritten hrefused, hok, hrules, hversion, hversions⟩

end RuleBook

end Promotions
