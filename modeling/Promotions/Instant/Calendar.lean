/-!
# The calendar

Days of the Gregorian calendar, counted from 1 January 1970. A year is counted from March on, so
that a leap day ends it, and four hundred years make one cycle of 146097 days.
-/

namespace Promotions

structure Date where
  year : Int
  month : Nat
  day : Nat
deriving DecidableEq

namespace Date

def isLeapYear (year : Int) : Bool := year % 4 = 0 ∧ (year % 100 ≠ 0 ∨ year % 400 = 0)

def daysInMonth (year : Int) (month : Nat) : Nat :=
  if month = 2 then if isLeapYear year then 29 else 28
  else if month = 4 ∨ month = 6 ∨ month = 9 ∨ month = 11 then 30
  else 31

def isValid (date : Date) : Bool :=
  1 ≤ date.month ∧ date.month ≤ 12 ∧ 1 ≤ date.day ∧ date.day ≤ daysInMonth date.year date.month

/-- The years in which an instant may be given. -/
def isInRange (date : Date) : Bool := -262143 ≤ date.year ∧ date.year ≤ 262142

/-- The days from 1 March of year 0 to 1 January 1970. -/
def epochDay : Int := 719468

def toDays (date : Date) : Int :=
  let year := if date.month ≤ 2 then date.year - 1 else date.year
  let cycle := year / 400
  let yearOfCycle := year % 400
  let month : Int := (date.month + 9) % 12
  let dayOfYear := (153 * month + 2) / 5 + date.day - 1
  let dayOfCycle := 365 * yearOfCycle + yearOfCycle / 4 - yearOfCycle / 100 + dayOfYear
  146097 * cycle + dayOfCycle - epochDay

def ofDays (days : Int) : Date :=
  let cycle := (days + epochDay) / 146097
  let dayOfCycle := (days + epochDay) % 146097
  let yearOfCycle :=
    (dayOfCycle - dayOfCycle / 1460 + dayOfCycle / 36524 - dayOfCycle / 146096) / 365
  let dayOfYear := dayOfCycle - (365 * yearOfCycle + yearOfCycle / 4 - yearOfCycle / 100)
  let month := (5 * dayOfYear + 2) / 153
  let day := dayOfYear - (153 * month + 2) / 5 + 1
  let year := 400 * cycle + yearOfCycle
  if month < 10 then ⟨year, (month + 3).toNat, day.toNat⟩
  else ⟨year + 1, (month - 9).toNat, day.toNat⟩

example : toDays ⟨1970, 1, 1⟩ = 0 ∧ ofDays 0 = ⟨1970, 1, 1⟩ := by decide

example : toDays ⟨2000, 2, 29⟩ = 11016 ∧ ofDays 11016 = ⟨2000, 2, 29⟩ := by decide

end Date

end Promotions
