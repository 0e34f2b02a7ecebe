import Promotions.Instant.Basic
import Promotions.Instant.Calendar
import Promotions.Text.Blank
import Promotions.Text.Digits

/-!
# Instants as text

The form is `2024-04-10T09:30:00Z`: date, time of day with any number of fraction digits, and the
offset from UTC, which is `Z`, `UTC`, or a sign with hours and minutes. Leading zeros may be missing,
blanks may stand between the parts, and years after 9999 or before 0 have a sign. Instants are
written in UTC, with as many groups of three fraction digits as they need.
-/

namespace Promotions.Instant

open Text

/-! ## Reading -/

/-- The digits at the start of the text as a number, and the text after them. -/
def takeDigits (cs : List Char) : Option (Nat × List Char) :=
  let digits := cs.takeWhile Char.isDigit
  if digits.isEmpty then none else some (digitsValue digits, cs.drop digits.length)

/-- A number of at most `width` digits, after any blanks. -/
def takeNumber (width : Nat) (cs : List Char) : Option (Nat × List Char) :=
  let cs := cs.dropWhile isBlank
  (takeDigits (cs.take width)).map fun (n, rest) => (n, rest ++ cs.drop width)

/-- Up to four digits, or a sign and any number of them, after any blanks. -/
def takeYear (cs : List Char) : Option (Int × List Char) :=
  match cs.dropWhile isBlank with
  | '-' :: cs => (takeDigits cs).map fun (n, rest) => (-n, rest)
  | '+' :: cs => (takeDigits cs).map fun (n, rest) => (n, rest)
  | cs => (takeNumber 4 cs).map fun (n, rest) => (n, rest)

/-- The given character, after any blanks. -/
def takeChar (c : Char) (cs : List Char) : Option (List Char) :=
  match cs.dropWhile isBlank with
  | c' :: cs => if c' = c then some cs else none
  | [] => none

/-- What stands between date and time. -/
def takeSeparator : List Char → Option (List Char)
  | 'T' :: cs | 't' :: cs | ' ' :: cs => some cs
  | _ => none

/-- The nanoseconds. Digits beyond the ninth do not count. -/
def takeFraction : List Char → Option (Nat × List Char)
  | '.' :: cs =>
    let digits := cs.takeWhile Char.isDigit
    if digits.isEmpty then none
    else
      let kept := digits.take 9
      some (digitsValue kept * tenPow (9 - kept.length), cs.dropWhile Char.isDigit)
  | cs => some (0, cs)

/-- Exactly two digits. -/
def takePair (cs : List Char) : Option (Nat × List Char) :=
  let digits := cs.take 2
  if digits.length = 2 ∧ isDigits digits then some (digitsValue digits, cs.drop 2) else none

/-- Hours and minutes in seconds, any colons and blanks between them. -/
def takeHours (cs : List Char) : Option (Int × List Char) := do
  let (hours, cs) ← takePair cs
  let (minutes, cs) ← takePair (cs.dropWhile fun c => c = ':' ∨ isBlank c)
  guard (hours < 24 ∧ minutes < 60)
  return (3600 * hours + 60 * minutes, cs)

/-- The seconds by which local time is ahead of UTC. -/
def takeOffset : List Char → Option (Int × List Char)
  | 'Z' :: cs | 'z' :: cs => some (0, cs)
  | '+' :: cs => takeHours cs
  | '-' :: cs | '−' :: cs => (takeHours cs).map fun (seconds, rest) => (-seconds, rest)
  | cs =>
    if (cs.take 3).map Char.toUpper = ['U', 'T', 'C'] then some (0, cs.drop 3) else none

/-- The instant that a text names. The second 60 is a leap second. -/
def ofChars? (cs : List Char) : Option Instant := do
  let (year, cs) ← takeYear cs
  let cs ← takeChar '-' cs
  let (month, cs) ← takeNumber 2 cs
  let cs ← takeChar '-' cs
  let (day, cs) ← takeNumber 2 cs
  let date : Date := ⟨year, month, day⟩
  let cs ← takeSeparator cs
  let (hour, cs) ← takeNumber 2 cs
  let cs ← takeChar ':' cs
  let (minute, cs) ← takeNumber 2 cs
  let cs ← takeChar ':' cs
  let (second, cs) ← takeNumber 2 cs
  let (nano, cs) ← takeFraction cs
  let (offset, cs) ← takeOffset (cs.dropWhile isBlank)
  guard (cs.all isBlank ∧ date.isInRange ∧ date.isValid)
  guard (hour < 24 ∧ minute < 60 ∧ second ≤ 60)
  let whole := min second 59
  let seconds := 86400 * date.toDays + 3600 * hour + 60 * minute + whole - offset
  ofParts? seconds (nano + (second - whole) * tenPow 9)

def ofText? (text : String) : Option Instant := ofChars? text.toList

/-! ## Writing -/

/-- Four digits, or a sign and at least four of them outside the years 0 to 9999. -/
def renderYear (year : Int) : List Char :=
  if 0 ≤ year ∧ year ≤ 9999 then paddedDigits 4 year.toNat
  else (if year < 0 then '-' else '+') :: paddedDigits 4 year.natAbs

/-- No fraction, or the shortest of three, six and nine digits that is exact. -/
def renderFraction (nano : Nat) : List Char :=
  if nano = 0 then []
  else if nano % tenPow 6 = 0 then '.' :: paddedDigits 3 (nano / tenPow 6)
  else if nano % tenPow 3 = 0 then '.' :: paddedDigits 6 (nano / tenPow 3)
  else '.' :: paddedDigits 9 nano

def renderChars (i : Instant) : List Char :=
  let date := Date.ofDays (i.second / 86400)
  let ofDay := (i.second % 86400).toNat
  let leap := i.nano / tenPow 9
  renderYear date.year ++ '-' :: paddedDigits 2 date.month ++ '-' :: paddedDigits 2 date.day ++
    'T' :: paddedDigits 2 (ofDay / 3600) ++ ':' :: paddedDigits 2 (ofDay / 60 % 60) ++
    ':' :: paddedDigits 2 (ofDay % 60 + leap) ++ renderFraction (i.nano % tenPow 9) ++ ['Z']

def render (i : Instant) : String := String.ofList i.renderChars

end Promotions.Instant
