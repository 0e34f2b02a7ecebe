import Promotions.Text.Digits
import Promotions.Text.Ranges

/-!
# Blanks

The characters with the Unicode property White_Space.
-/

namespace Promotions.Text

def blankRanges : List (Nat × Nat) :=
  [(0x0009, 0x000d), (0x0020, 0x0020), (0x0085, 0x0085), (0x00a0, 0x00a0), (0x1680, 0x1680),
   (0x2000, 0x200a), (0x2028, 0x2029), (0x202f, 0x202f), (0x205f, 0x205f), (0x3000, 0x3000)]

def isBlank (c : Char) : Bool := inRanges c.toNat blankRanges

/-- Nothing but blanks. The empty text is blank. -/
def isBlankText (text : String) : Bool := text.toList.all isBlank

theorem not_isBlank_of_isDigit (c : Char) (h : c.isDigit) : isBlank c = false := by
  have hdigits : ∀ n ∈ List.range' 48 10, inRanges n blankRanges = false := by
    decide
  obtain ⟨hlow, hhigh⟩ := toNat_of_isDigit c h
  exact hdigits _ (List.mem_range'_1.2 ⟨hlow, by omega⟩)

end Promotions.Text
