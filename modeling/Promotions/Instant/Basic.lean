import Promotions.Power

/-!
# Instants

A point in time to the nanosecond. A leap second belongs to the second before it, whose nanoseconds
then run on to two thousand million.
-/

namespace Promotions

structure Instant where
  /-- The seconds from the start of 1970, leap seconds left out. -/
  second : Int
  nano : Nat
  /-- Only the last second of a minute is followed by a leap second. -/
  nano_lt : nano < tenPow 9 ∨ nano < 2 * tenPow 9 ∧ second % 60 = 59
deriving DecidableEq

namespace Instant

def ofParts? (second : Int) (nano : Nat) : Option Instant :=
  if h : nano < tenPow 9 ∨ nano < 2 * tenPow 9 ∧ second % 60 = 59 then some ⟨second, nano, h⟩ else none

/-- Earlier in seconds, or in the same second earlier in nanoseconds. -/
instance : LT Instant := ⟨fun a b => a.second < b.second ∨ a.second = b.second ∧ a.nano < b.nano⟩

instance (a b : Instant) : Decidable (a < b) :=
  inferInstanceAs (Decidable (a.second < b.second ∨ a.second = b.second ∧ a.nano < b.nano))

end Instant

end Promotions
