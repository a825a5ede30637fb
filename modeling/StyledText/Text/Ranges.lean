/-!
# Tables of code points

A property of characters is a list of closed ranges of code points, ascending and apart. `inRanges`
looks a code point up and stops at the first range that begins after it.
-/

namespace StyledText

namespace Text

/-- Whether the code point lies in one of the ranges, which ascend. -/
def inRanges : List (Nat × Nat) → Nat → Bool
  | [], _ => false
  | (first, last) :: rest, n =>
    if n < first then false else n ≤ last || inRanges rest n

/-- Whether the ranges ascend and leave a gap between neighbours. -/
def ascending : List (Nat × Nat) → Bool
  | [] => true
  | [(first, last)] => first ≤ last
  | (first, last) :: (first', last') :: rest =>
    first ≤ last && last + 1 < first' && ascending ((first', last') :: rest)

/-- No code point below the first range is a member. -/
theorem inRanges_eq_false_of_lt {first last n : Nat} {rest : List (Nat × Nat)} (h : n < first) :
    inRanges ((first, last) :: rest) n = false := by
  simp [inRanges, h]

end Text

end StyledText
