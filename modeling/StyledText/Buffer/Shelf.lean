import StyledText.Buffer.Subsequence

/-!
# Several buffers

Buffers are used side by side. A copy of a range is one more buffer, over the same objects, and from
then on it is changed apart from its source. A shelf holds the buffers in the order in which they
were made, so that each keeps its number.

A **call** is made on one buffer of the shelf. If its range does not fit the text it is refused, and
nothing is done; otherwise it changes that buffer, or puts a copy behind all others.
-/

namespace StyledText

namespace Buffer

variable {α : Type}

/-- What can be asked of a buffer. -/
inductive Call (α : Type) where
  /-- text is added at the end -/
  | append (t : Text)
  /-- the characters of a range are taken out -/
  | delete (start stop : Int)
  /-- an object is attached to a range, or moved there -/
  | set (what : α) (start stop : Int) (flag : Flag)
  /-- an object is detached -/
  | remove (what : α)
  /-- a range is copied -/
  | subsequence (start stop : Int)
  deriving DecidableEq

namespace Call

/-- The buffer as a call on it leaves it, and the copy that the call makes if it makes one. -/
def perform [DecidableEq α] (c : Call α) (b : Buffer α) :
    Except RangeError (Buffer α × Option (Buffer α)) :=
  match c with
  | append t => .ok (b.append t, none)
  | delete start stop => (b.delete start stop).map fun b' => (b', none)
  | set what start stop flag => (b.set what start stop flag).map fun b' => (b', none)
  | remove what => .ok (b.remove what, none)
  | subsequence start stop => (b.subsequence start stop).map fun part => (b, some part)

end Call

/-- Buffers in the order in which they were made. -/
abbrev Shelf (α : Type) := List (Buffer α)

namespace Shelf

variable [DecidableEq α]

/-- Makes a call on buffer `i`: why it is refused, if it is, and the shelf afterwards. On a buffer
that is not there no call can be made. -/
def call (i : Nat) (c : Call α) (shelf : Shelf α) : Option RangeError × Shelf α :=
  match shelf[i]? with
  | none => (none, shelf)
  | some b =>
    match c.perform b with
    | .ok (b', part?) => (none, shelf.set i b' ++ part?.toList)
    | .error e => (some e, shelf)

/-- Makes calls one after another, whether or not some of them are refused. -/
def run : List (Nat × Call α) → Shelf α → Shelf α
  | [], shelf => shelf
  | (i, c) :: calls, shelf => run calls (shelf.call i c).2

variable {i : Nat} {c : Call α} {shelf : Shelf α} {b b' : Buffer α} {part? : Option (Buffer α)}

/-- A call that is not refused. -/
theorem call_of_ok (hb : shelf[i]? = some b) (h : c.perform b = .ok (b', part?)) :
    shelf.call i c = (none, shelf.set i b' ++ part?.toList) := by
  simp only [call, hb, h]

/-- A refused call does nothing. -/
theorem call_of_error {e : RangeError} (hb : shelf[i]? = some b) (h : c.perform b = .error e) :
    shelf.call i c = (some e, shelf) := by
  simp only [call, hb, h]

/-- No call can be made on a buffer that is not there. -/
theorem call_of_none (hb : shelf[i]? = none) : shelf.call i c = (none, shelf) := by
  simp only [call, hb]

end Shelf

end Buffer

end StyledText
