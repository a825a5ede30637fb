import StyledText.Text.Basic
import StyledText.Text.Ranges

/-!
# White space

A character is blank when it separates words in some script: the controls from tab to carriage
return, the four separators that precede the space, the space, and the wider spaces of Unicode 14.
`strip` takes blanks off both ends. The narrower class of characters that run together between
words in shown text is not this one: see `Flow/Collapse`.
-/

namespace StyledText

namespace Text

/-- The ranges of the white space characters. -/
def blankRanges : List (Nat × Nat) := [
  (0x09, 0x0D), (0x1C, 0x20), (0x85, 0x85), (0xA0, 0xA0), (0x1680, 0x1680),
  (0x2000, 0x200A), (0x2028, 0x2029), (0x202F, 0x202F), (0x205F, 0x205F), (0x3000, 0x3000)]

example : ascending blankRanges = true := by decide

/-- Whether the character is white space. -/
def isBlank (c : Char) : Bool := inRanges blankRanges c.toNat

/-- The text without the blanks at its start and at its end. -/
def strip (t : Text) : Text := dropTrailing isBlank (t.dropWhile isBlank)

/-- Every character that the standard library calls white space is blank. -/
theorem isBlank_of_isWhitespace {c : Char} (h : c.isWhitespace = true) : isBlank c = true := by
  simp only [Char.isWhitespace, Bool.or_eq_true, decide_eq_true_eq] at h
  rcases h with ((h | h) | h) | h <;> subst h <;> decide

/-- A letter is not blank, nor is the zero width space. -/
example : isBlank 'a' = false ∧ isBlank '\u200b' = false := by decide

end Text

end StyledText
