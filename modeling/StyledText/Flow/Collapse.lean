import StyledText.Text.Basic

/-!
# Collapsing white space

A run of white space in character data is shown as one space, and as none at the start of a line. A
character is judged by the one before it in the shown text, so how the data is cut into pieces does
not matter.
-/

namespace StyledText

namespace Flow

/-- White space between words; no other blank is collapsed. -/
def isSpace (c : Char) : Bool :=
  c = ' ' || c = '\n' || c = '\r' || c = '\t' || c = '\x0c'

/-- What character data adds to a text that ends with `previous`. -/
def collapse : Char → Text → Text
  | _, [] => []
  | previous, c :: t =>
    if isSpace c then
      if previous = ' ' ∨ previous = '\n' then collapse previous t else ' ' :: collapse ' ' t
    else c :: collapse c t

/-- The character that white space at the end of a text is judged by; the start of a text is like
the start of a line. -/
def lastOf (t : Text) : Char := t.getLastD '\n'

/-- In pieces. What follows is judged by the last character that has been added. -/
theorem collapse_append (previous : Char) (s t : Text) :
    collapse previous (s ++ t) =
      collapse previous s ++ collapse ((collapse previous s).getLastD previous) t := by
  induction s generalizing previous with
  | nil => rfl
  | cons c s ih =>
    simp only [List.cons_append, collapse]
    split
    · split
      · exact ih previous
      · simp only [ih, List.cons_append, List.getLastD_cons]
    · simp only [ih, List.cons_append, List.getLastD_cons]

/-- The last character of a text that has become longer. -/
theorem lastOf_append (s t : Text) : lastOf (s ++ t) = t.getLastD (lastOf s) := by
  cases t with
  | nil => simp [lastOf]
  | cons c t => simp [lastOf, List.getLastD_eq_getLast?, List.getLast?_append, List.getLast?_cons]

example : collapse '\n' " a \t\nb\u00a0 ".toList = "a b\u00a0 ".toList := by decide

end Flow

end StyledText
