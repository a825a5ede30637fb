import StyledText.Text.Basic

/-!
# Positions

A place in a text by line, from one, and column, from zero. Only the newline ends a line.
-/

namespace StyledText

/-- A place in a text. -/
structure Position where
  /-- the line, counted from one -/
  line : Nat
  /-- the number of characters before the place on its line -/
  column : Nat
  deriving DecidableEq, Repr

namespace Position

/-- The place before the first character. -/
def start : Position := ⟨1, 0⟩

/-- The place after one more character. -/
def next (p : Position) (c : Char) : Position :=
  if c = '\n' then ⟨p.line + 1, 0⟩ else ⟨p.line, p.column + 1⟩

/-- The place after a text that begins at `p`. -/
def after (p : Position) (t : Text) : Position := t.foldl next p

@[simp] theorem after_nil (p : Position) : p.after [] = p := rfl

@[simp] theorem after_append (p : Position) (s t : Text) :
    p.after (s ++ t) = (p.after s).after t := by
  simp [after]

end Position

end StyledText
