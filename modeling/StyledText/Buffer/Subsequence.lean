import StyledText.Buffer.Basic

/-!
# Parts of a buffer

`Buffer.subsequence` copies a range with its spans clipped to it; the objects are the same, so a
copy and its source can be compared. `Buffer.trimEnd` drops the newlines at the end, one copy for
each.
-/

namespace StyledText

namespace Span

variable {α : Type}

/-- The part of a span within the characters from `i` up to `j`, by offsets from `i`. A span that
does not touch the range is left out, and so is an exclusive one that only touches it. -/
def clip? (i j : Nat) (s : Span α) : Option (Span α) :=
  if s.stop < i ∨ j < s.start then none
  else
    let s' := { s with start := max s.start i - i, stop := min s.stop j - i }
    if s.flag = .exclusive ∧ s'.start = s'.stop ∧ s.start ≠ s.stop then none else some s'

end Span

namespace Buffer

variable {α : Type}

/-- The characters from `i` up to `j` with the parts of the spans over them. -/
def clip (b : Buffer α) (i j : Nat) : Buffer α where
  text := (b.text.take j).drop i
  spans := b.spans.filterMap (Span.clip? i j)

theorem text_clip (b : Buffer α) (i j : Nat) : (b.clip i j).text = (b.text.take j).drop i := rfl

/-- A copy of a range of the buffer. -/
def subsequence (b : Buffer α) (start stop : Int) : Except RangeError (Buffer α) :=
  if b.Within start stop then .ok (b.clip start.toNat stop.toNat)
  else .error (.subsequence start stop b.length)

/-- The buffer without its last character where that is a newline, or `none`. -/
def dropNewline? (b : Buffer α) : Option (Buffer α) :=
  if b.endsWithNewline then some (b.clip 0 (b.length - 1)) else none

theorem length_of_dropNewline? {b b' : Buffer α} (h : b.dropNewline? = some b') :
    b'.length + 1 = b.length := by
  simp only [dropNewline?] at h
  split at h
  next hb =>
    have hne : b.text ≠ [] := by
      intro h0
      simp [endsWithNewline, Text.endsWithNewline, h0] at hb
    have hpos : 0 < b.text.length := List.length_pos_iff.mpr hne
    simp only [Option.some.injEq] at h
    subst h
    simp only [length, clip, List.drop_zero, List.length_take]
    omega
  next => exact absurd h (by simp)

/-- What is dropped is a newline. -/
theorem eq_clip_of_dropNewline? {b b' : Buffer α} (h : b.dropNewline? = some b') :
    b' = b.clip 0 (b.length - 1) ∧ b.text[b.length - 1]? = some '\n' := by
  simp only [dropNewline?] at h
  split at h
  next hends =>
    rw [endsWithNewline, Text.endsWithNewline, List.getLast?_eq_getElem?] at hends
    cases h
    exact ⟨rfl, beq_iff_eq.mp hends⟩
  next => cases h

/-- The buffer without the newlines at its end. -/
def trimEnd (b : Buffer α) : Buffer α :=
  match _h : b.dropNewline? with
  | some b' => trimEnd b'
  | none => b
termination_by b.length
decreasing_by
  have := length_of_dropNewline? _h
  omega

/-- A text that does not end with a newline is left as it is. -/
theorem trimEnd_of_endsWithNewline {b : Buffer α} (h : b.endsWithNewline = false) :
    b.trimEnd = b := by
  have hdrop : b.dropNewline? = none := by simp [dropNewline?, h]
  rw [trimEnd]
  split
  next hsome => cases hdrop.symm.trans hsome
  next => rfl

/-- Trimming stops at a text that does not end with a newline. -/
theorem endsWithNewline_trimEnd (b : Buffer α) : b.trimEnd.endsWithNewline = false := by
  fun_induction trimEnd b with
  | case1 b b' h ih => exact ih
  | case2 b h => simpa [dropNewline?] using h

end Buffer

end StyledText
