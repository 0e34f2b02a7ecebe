import Mathlib.Tactic.IntervalCases
import Promotions.Instant.Calendar

/-!
# Days and dates

Every day has a valid date, and the date leads back to the day. A cycle is four centuries, a century
is twenty-five groups of four years, and the years run from March on, so that a leap day can only be
the last day of the last year of a group.
-/

namespace Promotions.Date

/-! ## Years of a cycle -/

/-- The days of a cycle before its year `y`. -/
def daysBefore (y : Int) : Int := 365 * y + y / 4 - y / 100

/--
Day `d` of a cycle is day `f` in year `y` of the group `q` of the century `c`, all counted from 0.
Day 365 is a leap day. The last group of a century has one only if the century is the last one.
-/
structure Splits (d c q y f : Int) : Prop where
  sum : d = 36524 * c + 1461 * q + 365 * y + f
  century : 0 ≤ c ∧ c ≤ 3
  group : 0 ≤ q ∧ q ≤ 24
  year : 0 ≤ y ∧ y ≤ 3
  day : 0 ≤ f ∧ f ≤ 365
  leap : f = 365 → y = 3 ∧ (q < 24 ∨ c = 3)

/-- The last century and the last year may have one day more, so their quotients are cut at 3. -/
theorem exists_splits {d : Int} (hd : 0 ≤ d) (hlt : d < 146097) : ∃ c q y f, Splits d c q y f := by
  obtain ⟨c, hc⟩ : ∃ c, c = min 3 (d / 36524) := ⟨_, rfl⟩
  obtain ⟨q, hq⟩ : ∃ q, q = (d - 36524 * c) / 1461 := ⟨_, rfl⟩
  obtain ⟨y, hy⟩ : ∃ y, y = min 3 ((d - 36524 * c - 1461 * q) / 365) := ⟨_, rfl⟩
  have hcentury : 0 ≤ c ∧ c ≤ 3 := by omega
  have hgroup : 0 ≤ q ∧ q ≤ 24 := by omega
  refine ⟨c, q, y, d - 36524 * c - 1461 * q - 365 * y, ⟨by omega, hcentury, hgroup, ?_, ?_, ?_⟩⟩
  all_goals omega

namespace Splits

variable {d c q y f : Int}

theorem daysBefore_eq (h : Splits d c q y f) :
    daysBefore (100 * c + 4 * q + y) = 36524 * c + 1461 * q + 365 * y := by
  obtain ⟨-, hc, hq, hy, -, -⟩ := h
  unfold daysBefore
  omega

/-- The whole centuries before `d`. On the last day of the cycle both quotients are one too many. -/
theorem centuries_eq (h : Splits d c q y f) : d / 36524 - d / 146096 = c := by
  obtain ⟨hd, hc, hq, hy, hf, hleap⟩ := h
  have hend : d < 36524 * (c + 1) ∨ c = 3 ∧ d = 146096 := by omega
  have hstart : 36524 * c ≤ d := by omega
  rcases hend with hend | ⟨rfl, rfl⟩
  · have hlast : d / 146096 = 0 := by omega
    omega
  · rfl

theorem exists_leapDays (h : Splits d c q y f) :
    ∃ n, d / 1460 = 25 * c + q + n ∧ n ≤ f ∧ f - n < 365 := by
  obtain ⟨hd, hc, hq, hy, hf, hleap⟩ := h
  by_cases hn : 1460 ≤ 24 * c + q + 365 * y + f
  · exact ⟨1, by omega, by omega, by omega⟩
  · exact ⟨0, by omega, by omega, by omega⟩

theorem yearOfCycle_eq (h : Splits d c q y f) :
    (d - d / 1460 + d / 36524 - d / 146096) / 365 = 100 * c + 4 * q + y := by
  obtain ⟨n, hn, hle, hlt⟩ := h.exists_leapDays
  have hc := h.centuries_eq
  have hd := h.sum
  omega

end Splits

/-! ## Days of a year -/

/-- The date of day `f` of the year that starts in March of `year`. -/
def ofYearDay (year f : Int) : Date :=
  let month := (5 * f + 2) / 153
  let day := f - (153 * month + 2) / 5 + 1
  if month < 10 then ⟨year, (month + 3).toNat, day.toNat⟩
  else ⟨year + 1, (month - 9).toNat, day.toNat⟩

theorem ofDays_eq {days c q y f : Int} (h : Splits ((days + epochDay) % 146097) c q y f) :
    ofDays days =
      ofYearDay (400 * ((days + epochDay) / 146097) + (100 * c + 4 * q + y)) f := by
  have hday : (days + epochDay) % 146097 - daysBefore (100 * c + 4 * q + y) = f := by
    rw [h.daysBefore_eq]
    have := h.sum
    omega
  unfold ofDays ofYearDay
  dsimp only
  rw [h.yearOfCycle_eq]
  unfold daysBefore at hday
  rw [hday]

theorem toDays_ofYearDay {year f : Int} (hf : 0 ≤ f) (hf' : f ≤ 365) :
    toDays (ofYearDay year f) =
      146097 * (year / 400) + daysBefore (year % 400) + f - epochDay := by
  obtain ⟨m, hm⟩ : ∃ m, m = (5 * f + 2) / 153 := ⟨_, rfl⟩
  have hday : ((f - (153 * m + 2) / 5 + 1).toNat : Int) = f - (153 * m + 2) / 5 + 1 := by omega
  unfold toDays ofYearDay daysBefore
  dsimp only
  rw [← hm]
  split
  · have hmonth : (((m + 3).toNat : Int) + 9) % 12 = m := by omega
    dsimp only
    rw [if_neg (by omega), hmonth, hday]
    omega
  · have hmonth : (((m - 9).toNat : Int) + 9) % 12 = m := by omega
    dsimp only
    rw [if_pos (by omega), hmonth, hday, Int.add_sub_cancel]
    omega

theorem daysInMonth_le (year : Int) (month : Nat) : daysInMonth year month ≤ 31 := by
  unfold daysInMonth
  split
  · split <;> decide
  · split <;> decide

theorem isValid_ofYearDay {year f : Int} (hf : 0 ≤ f)
    (hf' : f < 365 ∨ f = 365 ∧ isLeapYear (year + 1)) : (ofYearDay year f).isValid := by
  rcases hf' with hlt | ⟨rfl, hleap⟩
  · obtain ⟨m, hm⟩ : ∃ m, m = (5 * f + 2) / 153 := ⟨_, rfl⟩
    have hfirst : 0 ≤ m := by omega
    have hlast : m ≤ 11 := by omega
    unfold ofYearDay
    dsimp only
    rw [← hm]
    -- The months have lengths of their own.
    interval_cases m <;> simp [isValid, daysInMonth] <;> (try split) <;> omega
  · simp [ofYearDay, isValid, daysInMonth, hleap]

/-! ## Days and dates -/

theorem exists_splits_days (days : Int) :
    ∃ c q y f, Splits ((days + epochDay) % 146097) c q y f :=
  exists_splits (Int.emod_nonneg _ (by decide)) (Int.emod_lt_of_pos _ (by decide))

theorem toDays_ofDays (days : Int) : toDays (ofDays days) = days := by
  obtain ⟨c, q, y, f, h⟩ := exists_splits_days days
  rw [ofDays_eq h, toDays_ofYearDay h.day.1 h.day.2]
  have hbefore := h.daysBefore_eq
  obtain ⟨hsum, hc, hq, hy, -, -⟩ := h
  have hyear : (400 * ((days + epochDay) / 146097) + (100 * c + 4 * q + y)) % 400 =
      100 * c + 4 * q + y := by omega
  rw [hyear, hbefore]
  omega

theorem isValid_ofDays (days : Int) : (ofDays days).isValid := by
  obtain ⟨c, q, y, f, h⟩ := exists_splits_days days
  rw [ofDays_eq h]
  obtain ⟨-, hc, hq, hy, hf, hleap⟩ := h
  refine isValid_ofYearDay hf.1 ?_
  rcases Int.lt_or_eq_of_le hf.2 with hlt | heq
  · exact Or.inl hlt
  · refine Or.inr ⟨heq, ?_⟩
    obtain ⟨rfl, hlast⟩ := hleap heq
    simp only [isLeapYear, decide_eq_true_eq]
    omega

end Promotions.Date
