import StyledText.Text.Basic

/-!
# Replacement

`replace` puts one text in the place of every occurrence of a pattern, found from left to right and
without overlap. A pattern is given by its first character and the rest, since an empty one has no
occurrences to count.
-/

namespace StyledText

namespace Text

/-- A pattern to look for: at least one character. -/
structure Pattern where
  /-- the first character -/
  first : Char
  /-- the characters after the first -/
  rest : Text
  deriving DecidableEq, Repr

namespace Pattern

/-- The characters of the pattern. -/
def toText (p : Pattern) : Text := p.first :: p.rest

/-- Whether the pattern stands at the start of the text. -/
def atStart (p : Pattern) : Text → Bool
  | [] => false
  | c :: t => c = p.first && p.rest.isPrefixOf t

end Pattern

/-- The text with `by` in the place of every occurrence of the pattern, taken from left to right. -/
def replace (p : Pattern) (by' : Text) : Text → Text
  | [] => []
  | c :: t =>
    if p.atStart (c :: t) then by' ++ replace p by' (t.drop p.rest.length)
    else c :: replace p by' t
termination_by t => t.length
decreasing_by
  · simp only [List.length_drop, List.length_cons]; omega
  · simp

@[simp] theorem replace_nil (p : Pattern) (by' : Text) : replace p by' [] = [] := by
  simp [replace]

/-- Miss. A character that does not begin an occurrence stays. -/
theorem replace_cons_of_not_atStart {p : Pattern} {by' : Text} {c : Char} {t : Text}
    (h : p.atStart (c :: t) = false) : replace p by' (c :: t) = c :: replace p by' t := by
  rw [replace, h]
  rfl

/-- Hit. An occurrence is replaced, and the search goes on after it. -/
theorem replace_append_of_toText {p : Pattern} {by' t : Text} :
    replace p by' (p.toText ++ t) = by' ++ replace p by' t := by
  have h : p.atStart (p.first :: (p.rest ++ t)) = true := by
    simp [Pattern.atStart, List.isPrefixOf_iff_prefix]
  rw [Pattern.toText, List.cons_append, replace, if_pos h, List.drop_left]

end Text

end StyledText
