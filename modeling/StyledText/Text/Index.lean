import StyledText.Text.Basic

/-!
# Indices that may count from the end

A non-negative index counts from the start, a negative one from the end, so `-1` is the last
character. A single index must lie within the text; the two bounds of a slice are moved to the
nearest offset that does, and a slice whose bounds are out of order is empty.
-/

namespace StyledText

namespace Text

/-- The character at an index, or `none` outside the text. -/
def at? (t : Text) (i : Int) : Option Char :=
  if 0 ≤ i then t[i.toNat]?
  else if -i ≤ t.length then t[(t.length + i).toNat]?
  else none

/-- The offset in a text of `length` characters that a bound of a slice stands for. -/
def offset (length : Nat) (i : Int) : Nat :=
  if 0 ≤ i then min i.toNat length else (length + i).toNat

/-- The characters from one bound up to another; a missing bound is the end of the text on its
side. -/
def slice (t : Text) (start? stop? : Option Int) : Text :=
  let start := start?.elim 0 (offset t.length)
  let stop := stop?.elim t.length (offset t.length)
  (t.take stop).drop start

/-- An offset lies within the text. -/
theorem offset_le (length : Nat) (i : Int) : offset length i ≤ length := by
  simp only [offset]
  split <;> omega

/-- The last character, one beyond the start, and two slices. -/
example : at? "abc".toList (-1) = some 'c' ∧ at? "abc".toList (-4) = none ∧
    slice "abc".toList (some (-2)) none = "bc".toList ∧
    slice "abc".toList (some 2) (some 1) = [] := by decide

end Text

end StyledText
