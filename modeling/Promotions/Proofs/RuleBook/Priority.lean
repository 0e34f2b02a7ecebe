import Promotions.RuleBook.Edit

/-!
# Order by priority

`byPriority` is the stable sort of the rules. It is the only list that falls in priority and keeps
the rules of every single priority as they were. So two lists are put in the same order as soon as
they agree on every priority, which is how changes made before and after sorting are compared.
-/

namespace Promotions.RuleBook

/-- No rule stands behind one of lower priority. -/
def Falling (rules : List Rule) : Prop := rules.Pairwise fun a b => b.priority ≤ a.priority

/-- The rules of one priority, as they stand. -/
def ofPriority (p : Int32) (rules : List Rule) : List Rule := rules.filter (·.priority = p)

/-- Both lists hold the same rules of every priority in the same order. -/
def SameRanks (xs ys : List Rule) : Prop := ∀ p, ofPriority p xs = ofPriority p ys

/-! ## Lists that agree on every priority -/

theorem mem_ofPriority (p : Int32) (rule : Rule) (rules : List Rule) :
    rule ∈ ofPriority p rules ↔ rule ∈ rules ∧ rule.priority = p := by
  simp [ofPriority]

theorem ofPriority_cons_self (rule : Rule) (rules : List Rule) :
    ofPriority rule.priority (rule :: rules) = rule :: ofPriority rule.priority rules := by
  simp [ofPriority]

namespace SameRanks

variable {xs ys zs us vs : List Rule}

theorem refl (xs : List Rule) : SameRanks xs xs := fun _ => rfl

theorem symm (h : SameRanks xs ys) : SameRanks ys xs := fun p => (h p).symm

theorem trans (h : SameRanks xs ys) (h' : SameRanks ys zs) : SameRanks xs zs :=
  fun p => (h p).trans (h' p)

theorem append (h : SameRanks xs ys) (h' : SameRanks us vs) : SameRanks (xs ++ us) (ys ++ vs) := by
  intro p
  unfold ofPriority
  rw [List.filter_append, List.filter_append]
  exact congr (congrArg _ (h p)) (h' p)

theorem filter (h : SameRanks xs ys) (keep : Rule → Bool) :
    SameRanks (xs.filter keep) (ys.filter keep) := by
  intro p
  have hcomm : ∀ rules : List Rule,
      ofPriority p (rules.filter keep) = (ofPriority p rules).filter keep := by
    intro rules
    unfold ofPriority
    rw [List.filter_filter, List.filter_filter]
    simp only [Bool.and_comm]
  rw [hcomm, hcomm, h p]

theorem map (h : SameRanks xs ys) (f : Rule → Rule) (hf : ∀ rule, (f rule).priority = rule.priority) :
    SameRanks (xs.map f) (ys.map f) := by
  intro p
  have hcomm : ∀ rules : List Rule, ofPriority p (rules.map f) = (ofPriority p rules).map f := by
    intro rules
    unfold ofPriority
    rw [List.filter_map]
    simp only [Function.comp_def, hf]
  rw [hcomm, hcomm, h p]

theorem mem_iff (h : SameRanks xs ys) (rule : Rule) : rule ∈ xs ↔ rule ∈ ys := by
  have hmem : rule ∈ ofPriority rule.priority xs ↔ rule ∈ ofPriority rule.priority ys := by
    rw [h rule.priority]
  simpa [mem_ofPriority] using hmem

open Classical in
theorem perm (h : SameRanks xs ys) : xs.Perm ys := by
  rw [List.perm_iff_count]
  intro rule
  have hcount : ∀ rules : List Rule,
      rules.count rule = (ofPriority rule.priority rules).count rule := by
    intro rules
    exact (List.count_filter (by simp)).symm
  rw [hcount xs, hcount ys, h rule.priority]

theorem tail {rule : Rule} (h : SameRanks (rule :: xs) (rule :: ys)) : SameRanks xs ys := by
  intro p
  have hp := h p
  unfold ofPriority at hp ⊢
  rw [List.filter_cons, List.filter_cons] at hp
  split at hp
  · exact (List.cons.inj hp).2
  · exact hp

end SameRanks

theorem Falling.le_head {rule : Rule} {rules : List Rule} (h : Falling (rule :: rules)) :
    ∀ x ∈ rule :: rules, x.priority ≤ rule.priority := by
  intro x hx
  rcases List.mem_cons.1 hx with rfl | hx
  · exact Int32.le_refl _
  · exact (List.pairwise_cons.1 h).1 x hx

theorem Falling.eq_of_sameRanks {xs ys : List Rule} (hx : Falling xs) (hy : Falling ys)
    (h : SameRanks xs ys) : xs = ys := by
  induction xs generalizing ys with
  | nil => exact (List.nil_perm.1 h.perm).symm
  | cons x xs ih =>
    cases ys with
    | nil => exact absurd (List.perm_nil.1 h.perm) (List.cons_ne_nil x xs)
    | cons y ys =>
      -- Both heads have the highest priority, and each is the first rule of it.
      have hxy : x.priority ≤ y.priority := hy.le_head x ((h.mem_iff x).1 List.mem_cons_self)
      have hyx : y.priority ≤ x.priority := hx.le_head y ((h.mem_iff y).2 List.mem_cons_self)
      have hp : y.priority = x.priority := Int32.le_antisymm hyx hxy
      have hheads := h x.priority
      rw [ofPriority_cons_self, ← hp, ofPriority_cons_self] at hheads
      obtain rfl : x = y := (List.cons.inj hheads).1
      rw [ih (List.pairwise_cons.1 hx).2 (List.pairwise_cons.1 hy).2 h.tail]

/-! ## Sorting -/

theorem precedes_trans (a b c : Rule) (hab : decide (b.priority ≤ a.priority) = true)
    (hbc : decide (c.priority ≤ b.priority) = true) : decide (c.priority ≤ a.priority) = true := by
  rw [decide_eq_true_eq] at hab hbc ⊢
  exact Int32.le_trans hbc hab

theorem precedes_total (a b : Rule) :
    (decide (b.priority ≤ a.priority) || decide (a.priority ≤ b.priority)) = true := by
  simpa using Int32.le_total b.priority a.priority

theorem falling_byPriority (rules : List Rule) : Falling (byPriority rules) := by
  have hsorted := List.pairwise_mergeSort precedes_trans precedes_total rules
  exact hsorted.imp of_decide_eq_true

theorem sameRanks_byPriority (rules : List Rule) : SameRanks (byPriority rules) rules := by
  intro p
  have htied : (ofPriority p rules).Pairwise
      (fun a b => decide (b.priority ≤ a.priority) = true) := by
    apply List.pairwise_of_forall_mem_list
    intro a ha b hb
    rw [mem_ofPriority] at ha hb
    simp [ha.2, hb.2]
  have hsub : (ofPriority p rules).Sublist (byPriority rules) :=
    List.sublist_mergeSort precedes_trans precedes_total htied List.filter_sublist
  have hsub' : (ofPriority p rules).Sublist (ofPriority p (byPriority rules)) := by
    simpa [ofPriority, List.filter_filter] using hsub.filter (·.priority = p)
  refine (hsub'.eq_of_length ?_).symm
  exact (((List.mergeSort_perm rules _).filter _).length_eq).symm

/-- The stable sort is the falling list that agrees on every priority. -/
theorem eq_byPriority_iff (sorted rules : List Rule) :
    sorted = byPriority rules ↔ Falling sorted ∧ SameRanks sorted rules := by
  constructor
  · rintro rfl
    exact ⟨falling_byPriority rules, sameRanks_byPriority rules⟩
  · rintro ⟨hfalling, hranks⟩
    exact hfalling.eq_of_sameRanks (falling_byPriority rules)
      (hranks.trans (sameRanks_byPriority rules).symm)

theorem byPriority_of_falling {rules : List Rule} (h : Falling rules) : byPriority rules = rules :=
  ((eq_byPriority_iff rules rules).2 ⟨h, .refl rules⟩).symm

theorem byPriority_congr {xs ys : List Rule} (h : SameRanks xs ys) : byPriority xs = byPriority ys :=
  (eq_byPriority_iff _ _).2 ⟨falling_byPriority xs, (sameRanks_byPriority xs).trans h⟩

end Promotions.RuleBook
