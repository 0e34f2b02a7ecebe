import Mathlib.Data.List.Induction
import Promotions.Proofs.Reward.Worth

/-!
# The best of several rewards

The search goes through the rewards once and ends with the first of those that are worth the most. A
search that notes the worth beside its best reward ends with the same one, and a search for the
greatest worth alone ends with the worth of that reward.
-/

namespace Promotions.Reward

/-! ## The first of the best -/

/-- `top` stands at place `i`, no reward is worth more, and those before it are worth less. -/
structure FirstBest (rewards : List Reward) (i : Nat) (top : Reward) : Prop where
  place : rewards[i]? = some top
  before : ∀ j < i, ∀ reward, rewards[j]? = some reward → reward.worth.toRat < top.worth.toRat
  greatest : ∀ reward ∈ rewards, reward.worth.toRat ≤ top.worth.toRat

namespace FirstBest

variable {rewards : List Reward} {i j : Nat} {top top' : Reward}

theorem mem (h : FirstBest rewards i top) : top ∈ rewards := List.mem_of_getElem? h.place

theorem not_lt_place (h : FirstBest rewards i top) (h' : FirstBest rewards j top') : ¬i < j := by
  intro hlt
  exact absurd (h'.before i hlt top h.place) (not_lt.2 (h.greatest top' h'.mem))

theorem unique (h : FirstBest rewards i top) (h' : FirstBest rewards j top') : top = top' := by
  obtain rfl : i = j := le_antisymm (not_lt.1 (h'.not_lt_place h)) (not_lt.1 (h.not_lt_place h'))
  exact Option.some.inj (h.place.symm.trans h'.place)

theorem singleton (top : Reward) : FirstBest [top] 0 top := by
  refine ⟨rfl, fun j hj => absurd hj j.not_lt_zero, ?_⟩
  simp

theorem concat (h : FirstBest rewards i top) (next : Reward) :
    ∃ j, FirstBest (rewards ++ [next]) j (better (some top) next) := by
  rcases lt_or_ge top.worth.toRat next.worth.toRat with hmore | hless
  · rw [better_of_lt hmore]
    have hall : ∀ reward ∈ rewards, reward.worth.toRat < next.worth.toRat :=
      fun reward hmem => (h.greatest reward hmem).trans_lt hmore
    refine ⟨rewards.length, List.getElem?_concat_length, ?_, ?_⟩
    · intro j hj reward hreward
      rw [List.getElem?_append_left hj] at hreward
      exact hall reward (List.mem_of_getElem? hreward)
    · rw [List.forall_mem_append, List.forall_mem_singleton]
      exact ⟨fun reward hmem => (hall reward hmem).le, le_rfl⟩
  · rw [better_of_le hless]
    obtain ⟨hi, -⟩ := List.getElem?_eq_some_iff.1 h.place
    refine ⟨i, ?_, ?_, ?_⟩
    · rw [List.getElem?_append_left hi]
      exact h.place
    · intro j hj reward hreward
      rw [List.getElem?_append_left (hj.trans hi)] at hreward
      exact h.before j hj reward hreward
    · rw [List.forall_mem_append, List.forall_mem_singleton]
      exact ⟨h.greatest, hless⟩

end FirstBest

/-! ## The search -/

theorem best?_concat (rewards : List Reward) (next : Reward) :
    best? (rewards ++ [next]) = some (better (best? rewards) next) := by
  unfold best?
  rw [List.foldl_append]
  rfl

theorem best?_eq_none_iff (rewards : List Reward) : best? rewards = .none ↔ rewards = [] := by
  rcases rewards.eq_nil_or_concat' with rfl | ⟨rewards, next, rfl⟩
  · simp [best?]
  · simp [best?_concat]

theorem exists_firstBest (rewards : List Reward) (top : Reward) (h : best? rewards = some top) :
    ∃ i, FirstBest rewards i top := by
  -- The list is taken apart at its end, where the search goes on.
  induction rewards using List.reverseRecOn generalizing top with
  | nil => simp [best?] at h
  | append_singleton rewards next ih =>
    rw [best?_concat, Option.some.injEq] at h
    cases hbest : best? rewards with
    | none =>
      obtain rfl := (best?_eq_none_iff rewards).1 hbest
      obtain rfl : next = top := h
      exact ⟨0, .singleton next⟩
    | some first =>
      obtain ⟨i, hfirst⟩ := ih first hbest
      rw [hbest] at h
      rw [← h]
      exact hfirst.concat next

/-- The search finds the first reward of those that are worth the most. -/
theorem best?_eq_some_iff (rewards : List Reward) (top : Reward) :
    best? rewards = some top ↔ ∃ i, FirstBest rewards i top := by
  refine ⟨exists_firstBest rewards top, ?_⟩
  rintro ⟨i, h⟩
  cases hbest : best? rewards with
  | none =>
    obtain rfl := (best?_eq_none_iff rewards).1 hbest
    exact absurd h.mem List.not_mem_nil
  | some first =>
    obtain ⟨j, hfirst⟩ := exists_firstBest rewards first hbest
    rw [hfirst.unique h]

/-! ## Searches that keep the worth -/

/-- One step of a search that notes the worth of its best reward, not to add it up again. -/
def noteBetter (best : Option (Decimal × Reward)) (next : Reward) : Option (Decimal × Reward) :=
  match best with
  | some (worth, top) => if next.worth ≤ worth then some (worth, top) else some (next.worth, next)
  | .none => some (next.worth, next)

theorem noteBetter_map (best : Option Reward) (next : Reward) :
    noteBetter (best.map fun top => (top.worth, top)) next =
      (some (better best next)).map fun top => (top.worth, top) := by
  cases best with
  | none => rfl
  | some top =>
    rcases lt_or_ge top.worth.toRat next.worth.toRat with h | h
    · rw [better_of_lt h]
      exact if_neg (mt (Decimal.le_iff_toRat_le _ _).1 (not_le.2 h))
    · rw [better_of_le h]
      exact if_pos ((Decimal.le_iff_toRat_le _ _).2 h)

theorem foldl_noteBetter (rewards : List Reward) :
    rewards.foldl noteBetter .none = (best? rewards).map fun top => (top.worth, top) := by
  unfold best?
  rw [← List.foldl_hom (Option.map fun top : Reward => (top.worth, top)) noteBetter_map]
  rfl

theorem bestWorth_cons_concat (first : Reward) (rewards : List Reward) (next : Reward) :
    bestWorth (first :: (rewards ++ [next])) = max next.worth (bestWorth (first :: rewards)) := by
  dsimp only [bestWorth]
  rw [List.foldl_append]
  rfl

theorem exists_bestWorth_cons (first : Reward) (rewards : List Reward) :
    ∃ top, best? (first :: rewards) = some top ∧
      (bestWorth (first :: rewards)).toRat = top.worth.toRat := by
  induction rewards using List.reverseRecOn with
  | nil => exact ⟨first, rfl, rfl⟩
  | append_singleton rewards next ih =>
    obtain ⟨top, htop, hworth⟩ := ih
    refine ⟨better (some top) next, ?_, ?_⟩
    · rw [← List.cons_append, best?_concat, htop]
    · -- On a tie the two keep different rewards, but of equal worth.
      rw [bestWorth_cons_concat, Decimal.toRat_max, worth_better, hworth, max_comm]

theorem toRat_bestWorth (rewards : List Reward) :
    (bestWorth rewards).toRat = ((best? rewards).map (·.worth.toRat)).getD 0 := by
  cases rewards with
  | nil => exact Decimal.toRat_zero
  | cons first rewards =>
    obtain ⟨top, htop, hworth⟩ := exists_bestWorth_cons first rewards
    rw [htop, hworth]
    rfl

end Promotions.Reward
