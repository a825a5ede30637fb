import StyledText.Text.Basic

/-!
# Buffers: text with spans

A buffer is a text and the spans over it. A span attaches an object to a range of offsets; the same
object is attached at most once, and setting it again moves it. The text grows at its end and can
lose a range anywhere, and the spans follow.

Two flags matter. A **mark** is a place where something was opened; it stays when the text around it
goes. An **exclusive** span covers characters, and goes with the last of them. Spans with neither
flag stay like marks and show like styles.

* `Buffer.append`, `Buffer.cut`, `Buffer.delete` — the text and what happens to the spans;
* `Buffer.set`, `Buffer.remove` — attaching and detaching an object;
* `Buffer.start?`, `Buffer.lastMark?` — finding an object, finding the newest mark.

Offsets that do not fit the text are refused, never clamped; `Buffer.RangeError` says which call was
refused.
-/

namespace StyledText

/-- How a span behaves when text is taken out. -/
inductive Flag where
  | mark
  | exclusive
  | plain
  deriving DecidableEq, Repr

/-- An object attached to a range of a text. -/
structure Span (α : Type) where
  /-- the object -/
  what : α
  /-- the offset of the first character of the range -/
  start : Nat
  /-- the offset after the last character of the range -/
  stop : Nat
  /-- how the span behaves when text is taken out -/
  flag : Flag
  deriving DecidableEq, Repr

/-- A text and the spans over it, in the order in which their objects were attached. -/
structure Buffer (α : Type) where
  /-- the characters -/
  text : Text
  /-- the spans, the oldest first -/
  spans : List (Span α)
  deriving DecidableEq, Repr

/-- Where an offset goes when the characters from `i` up to `j` are taken out. -/
def shift (i j p : Nat) : Nat := if p ≤ i then p else if p ≤ j then i else p - (j - i)

namespace Span

variable {α : Type}

/-- The span after the characters from `i` up to `j` are taken out, or `none` for an exclusive span
that has lost its last character. -/
def cut? (i j : Nat) (s : Span α) : Option (Span α) :=
  let s' := { s with start := shift i j s.start, stop := shift i j s.stop }
  if s.flag = .exclusive ∧ s'.start = s'.stop ∧ s.start ≠ s.stop then none else some s'

end Span

namespace Buffer

variable {α : Type}

/-- A call whose offsets do not fit a text of `length` characters. -/
inductive RangeError where
  | delete (start stop : Int) (length : Nat)
  | span (start stop : Int) (length : Nat)
  | subsequence (start stop : Int) (length : Nat)
  | character
  deriving DecidableEq, Repr

/-- The wording of a refusal. -/
def RangeError.message : RangeError → String
  | .delete start stop length =>
    s!"delete range [{start}, {stop}) outside buffer of length {length}"
  | .span start stop length => s!"span [{start}, {stop}) outside buffer of length {length}"
  | .subsequence start stop length =>
    s!"subsequence [{start}, {stop}) outside buffer of length {length}"
  | .character => "string index out of range"

/-- The buffer with this text and no spans. -/
def ofText (t : Text) : Buffer α := ⟨t, []⟩

/-- The number of characters. -/
def length (b : Buffer α) : Nat := b.text.length

/-- Whether the text ends with a newline. -/
def endsWithNewline (b : Buffer α) : Bool := b.text.endsWithNewline

/-- Whether two offsets are the bounds of a range of the text. -/
def Within (b : Buffer α) (start stop : Int) : Prop :=
  0 ≤ start ∧ start ≤ stop ∧ stop ≤ b.length

instance (b : Buffer α) (start stop : Int) : Decidable (b.Within start stop) :=
  inferInstanceAs (Decidable (_ ∧ _ ∧ _))

/-! ## Text -/

/-- The buffer with more text at its end, outside every span. -/
def append (b : Buffer α) (t : Text) : Buffer α := { b with text := b.text ++ t }

/-- The buffer without the characters from `i` up to `j`. -/
def cut (b : Buffer α) (i j : Nat) : Buffer α where
  text := b.text.take i ++ b.text.drop j
  spans := b.spans.filterMap (Span.cut? i j)

/-- The buffer without the characters of a range. -/
def delete (b : Buffer α) (start stop : Int) : Except RangeError (Buffer α) :=
  if b.Within start stop then .ok (b.cut start.toNat stop.toNat)
  else .error (.delete start stop b.length)

/-! ## Spans -/

section

variable [DecidableEq α]

/-- The span of an object. -/
def find? (b : Buffer α) (what : α) : Option (Span α) := b.spans.find? (·.what = what)

/-- The buffer with `s` in the place of the span of its object, or after all others where the object
was not attached. -/
def place (b : Buffer α) (s : Span α) : Buffer α :=
  if (b.find? s.what).isSome then
    { b with spans := b.spans.map fun r => if r.what = s.what then s else r }
  else { b with spans := b.spans ++ [s] }

/-- Attaches an object to a range, or moves it there. -/
def set (b : Buffer α) (what : α) (start stop : Int) (flag : Flag) :
    Except RangeError (Buffer α) :=
  if b.Within start stop then .ok (b.place ⟨what, start.toNat, stop.toNat, flag⟩)
  else .error (.span start stop b.length)

/-- Detaches an object. -/
def remove (b : Buffer α) (what : α) : Buffer α :=
  { b with spans := b.spans.filter (·.what ≠ what) }

/-- The offset at which the range of an object starts. -/
def start? (b : Buffer α) (what : α) : Option Nat := (b.find? what).map (·.start)

end

/-- The mark attached last among those whose objects have `p`. -/
def lastMark? (b : Buffer α) (p : α → Bool) : Option (Span α) :=
  b.spans.reverse.find? fun s => s.flag = .mark && p s.what

/-! ## Laws of the operations -/

@[simp] theorem text_append (b : Buffer α) (t : Text) : (b.append t).text = b.text ++ t := rfl

@[simp] theorem spans_append (b : Buffer α) (t : Text) : (b.append t).spans = b.spans := rfl

theorem length_append (b : Buffer α) (t : Text) : (b.append t).length = b.length + t.length := by
  simp [length]

theorem text_cut (b : Buffer α) (i j : Nat) : (b.cut i j).text = b.text.take i ++ b.text.drop j :=
  rfl

@[simp] theorem text_remove [DecidableEq α] (b : Buffer α) (what : α) :
    (b.remove what).text = b.text := rfl

@[simp] theorem text_place [DecidableEq α] (b : Buffer α) (s : Span α) :
    (b.place s).text = b.text := by
  simp only [place]
  split <;> rfl

/-- Refused deletions are those whose range does not lie in the text. -/
theorem delete_eq_ok_iff {b b' : Buffer α} {start stop : Int} :
    b.delete start stop = .ok b' ↔ b.Within start stop ∧ b' = b.cut start.toNat stop.toNat := by
  simp only [delete]
  split <;> simp_all [eq_comm]

/-- Refused attachments are those whose range does not lie in the text. -/
theorem set_eq_ok_iff [DecidableEq α] {b b' : Buffer α} {what : α} {start stop : Int}
    {flag : Flag} :
    b.set what start stop flag = .ok b' ↔
      b.Within start stop ∧ b' = b.place ⟨what, start.toNat, stop.toNat, flag⟩ := by
  simp only [set]
  split <;> simp_all [eq_comm]

/-- A cut of nothing changes nothing. -/
theorem cut_self (b : Buffer α) (i : Nat) : b.cut i i = b := by
  have hs : ∀ p, shift i i p = p := by
    intro p
    simp only [shift]
    split <;> omega
  have hc : ∀ s : Span α, s.cut? i i = some s := by
    intro s
    simp [Span.cut?, hs]
  simp [cut, funext hc]

end Buffer

end StyledText
