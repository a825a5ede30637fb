import StyledText.Buffer.Basic
import StyledText.Text.Index
import StyledText.Text.Quoted

/-!
# What a buffer shows

The styled ranges of a buffer are its spans other than the marks. They are shown by their start,
among those with one start the longest first, and among equal ranges in the order of attachment.
Characters and slices are read by indices that may count from the end.
-/

namespace StyledText

namespace Span

variable {α : Type}

/-- Whether a span may stand before another among the styled ranges: it starts earlier, or at the
same offset and reaches at least as far. -/
def Leads (s t : Span α) : Prop := s.start < t.start ∨ s.start = t.start ∧ t.stop ≤ s.stop

instance (s t : Span α) : Decidable (s.Leads t) := inferInstanceAs (Decidable (_ ∨ _ ∧ _))

/-- The spans with one more before the first that it leads. -/
def insertInto (s : Span α) : List (Span α) → List (Span α)
  | [] => [s]
  | t :: rest => if s.Leads t then s :: t :: rest else t :: insertInto s rest

/-- The spans in the order of `Leads`; of two that lead each other the earlier stays first. -/
def arrange : List (Span α) → List (Span α)
  | [] => []
  | s :: rest => insertInto s (arrange rest)

end Span

namespace Buffer

variable {α : Type}

/-- The styled ranges, the outer ones first. -/
def annotations (b : Buffer α) : List (Span α) := Span.arrange (b.spans.filter (·.flag ≠ .mark))

/-- The character at an index. -/
def charAt (b : Buffer α) (i : Int) : Except RangeError Char :=
  match b.text.at? i with
  | some c => .ok c
  | none => .error .character

/-- The characters from one bound up to another. -/
def slice (b : Buffer α) (start? stop? : Option Int) : Text := b.text.slice start? stop?

/-- A line that names the text and the number of spans. -/
def describe (b : Buffer α) : Text :=
  "SpannableBuilder(".toList ++ b.text.quoted ++ ", spans=".toList ++ Text.ofNat b.spans.length
    ++ [')']

end Buffer

end StyledText
