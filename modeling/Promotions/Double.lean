import Promotions.Decimal.Rounding
import Promotions.Power

/-!
# Numbers in double precision

A number that is not kept exactly is kept with 53 significant bits. It is read off again with the
fewest digits that tell it from all other numbers of that precision.
-/

namespace Promotions.Double

/-! ## Keeping a number -/

/-- The nearest number of at most 53 significant bits. Halfway between two of them, the even one. -/
def nearest (n : Nat) : Nat :=
  let unit := twoPow (n.log2 - 52)
  (roundHalfEven n unit).toNat * unit

/-- The number `m / 2 ^ k` of at most 53 significant bits that is nearest to `p / q`. Halfway between
two of them, the even one. -/
def quotient (p q : Nat) : Nat × Nat :=
  let k := 54 + q.log2 - p.log2
  let unit := twoPow ((p * twoPow k / q).log2 - 52)
  ((roundHalfEven (p * twoPow k : Nat) (q * unit)).toNat * unit, k)

/-- The leading digits of `n` that a 64-bit word holds, and the number of digits after them. -/
def leadingWord (n : Nat) : Nat × Nat :=
  if n < twoPow 64 then (n, 0)
  else
    let (word, places) := leadingWord (n / 10)
    (word, places + 1)
termination_by n
decreasing_by
  have := twoPow_pos 64
  omega

/-- The leading word of `n` in double precision, brought to its place by a product. The digits after
it count as zeros. -/
def ofNat (n : Nat) : Nat :=
  let (word, places) := leadingWord n
  nearest (nearest word * nearest (tenPow places))

/-- The same for `n / 10 ^ places`. The leading word is brought to its place by a product or by a
quotient. -/
def ofScaled (n places : Nat) : Nat × Nat :=
  let (word, dropped) := leadingWord n
  if places ≤ dropped then (nearest (nearest word * nearest (tenPow (dropped - places))), 0)
  else quotient (nearest word) (nearest (tenPow (places - dropped)))

/-! ## Reading it off -/

/-- The nearer of the multiples of `unit` around `n` that are kept as `n`, the higher one on a tie. -/
def multiple? (n unit : Nat) : Option Nat :=
  let low := n / unit * unit
  let high := low + unit
  (if 2 * (n - low) < unit then [low, high] else [high, low]).find? (nearest · = n)

/-- The number with the most zeros at its end that is kept as `n`, given a bound on the zeros. -/
def shortestUpTo (n : Nat) : Nat → Nat
  | 0 => n
  | zeros + 1 => (multiple? n (tenPow (zeros + 1))).getD (shortestUpTo n zeros)

/-- The number with the fewest digits before its last zeros that is kept as `n`. -/
def shortest (n : Nat) : Nat := shortestUpTo n (Nat.toDigits 10 n).length

/-- The nearer of the numbers around `m / 2 ^ k` with this many places that are kept as it, the higher
one on a tie. -/
def atPlaces? (m k places : Nat) : Option Nat :=
  let scaled := m * tenPow places
  let low := scaled / twoPow k
  let isKept := fun n =>
    let (m', k') := quotient n (tenPow places)
    m' * twoPow k = m * twoPow k'
  (if 2 * (scaled % twoPow k) < twoPow k then [low, low + 1] else [low + 1, low]).find? isKept

/-- The number with the fewest places that is kept as `m / 2 ^ k`, from `places` on and within a
bound. -/
def fewestPlaces? (m k places : Nat) : Nat → Option (Nat × Nat)
  | 0 => none
  | bound + 1 =>
    match atPlaces? m k places with
    | some n => some (n, places)
    | none => fewestPlaces? m k (places + 1) bound

/-- The number `n / 10 ^ places` with the fewest digits that is kept as `m / 2 ^ k`. A number below
the last of 48 places counts as zero. -/
def shortestScaled : Nat × Nat → Nat × Nat
  | (m, k) =>
    if m % twoPow k = 0 then (shortest (m / twoPow k), 0)
    else (fewestPlaces? m k 1 48).getD (0, 48)

example : shortest (nearest (twoPow 64)) = 18446744073709552000 := by decide +kernel

example : nearest (twoPow 53 + 1) = twoPow 53 ∧ nearest (twoPow 53 + 3) = twoPow 53 + 4 := by
  decide +kernel

example : shortestScaled (ofScaled 80 2) = (8, 1) := by decide +kernel

end Promotions.Double
