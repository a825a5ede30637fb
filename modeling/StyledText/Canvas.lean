import StyledText.Buffer.Basic
import StyledText.Style

/-!
# The canvas

A canvas is the buffer that a document is written on. Besides styles it holds what stands for open
elements: the markers of `Intercept` and the openings of `Flow`. Two objects with the same content
can be attached at different times, so each carries the number of the event that made it; objects of
one event differ by their content.

* `Canvas.newline` — ends a line that has been begun;
* `Canvas.markEnd` — attaches a mark at the end of the text;
* `Canvas.attach` — attaches styles to a range;
* `Canvas.extract` — takes out the end of the text.

Each of them can only fail by a range that does not fit, which is a `Fault`.
-/

namespace StyledText

/-! ## What stands for open elements -/

/-- The kinds of element that `Intercept` keeps a marker for. -/
inductive MarkerKind where
  | unorderedItem
  | orderedItem
  | link
  | code
  | center
  | strike
  | table
  | row
  | headerCell
  | cell
  deriving DecidableEq, Repr

/-- An open element of `Intercept`; its place is the place of the mark. -/
structure Marker where
  /-- the number of the event that opened the element -/
  made : Nat
  kind : MarkerKind
  /-- the target of a link -/
  href : Option Text
  deriving DecidableEq, Repr

/-- The ways in which an inline element changes its text. -/
inductive Inline where
  | bold
  | italic
  | big
  | small
  | monospace
  | underline
  | strike
  | superscript
  | subscript
  deriving DecidableEq, Repr

/-- An open element of `Flow`. -/
inductive Opening where
  | inline (i : Inline)
  | font (color face : Option Text)
  | quote
  | link (href : Option Text)
  /-- a heading, of the first level at `0` -/
  | heading (level : Fin 6)
  | bullet
  deriving DecidableEq, Repr

/-- What is attached to a canvas. -/
inductive Object where
  | marker (m : Marker)
  | opening (made : Nat) (o : Opening)
  | style (made : Nat) (s : Style)
  deriving DecidableEq, Repr

namespace Object

/-- The number of the event that made the object. -/
def made : Object → Nat
  | marker m => m.made
  | opening n _ => n
  | style n _ => n

/-- The marker, if the object is one. -/
def marker? : Object → Option Marker
  | marker m => some m
  | _ => none

/-- The opening, if the object is one. -/
def opening? : Object → Option Opening
  | opening _ o => some o
  | _ => none

/-- The style, if the object is one. -/
def style? : Object → Option Style
  | style _ s => some s
  | _ => none

end Object

/-! ## Canvases -/

/-- The buffer that a document is written on. -/
abbrev Canvas := Buffer Object

/-- Why an event cannot be written down. -/
inductive Fault where
  /-- a range that does not fit the text -/
  | range (e : Buffer.RangeError)
  /-- a numbered item in a list without a counter -/
  | noCounter
  deriving DecidableEq, Repr

/-- The wording of a fault. -/
def Fault.message : Fault → String
  | range e => e.message
  | noCounter => "list index out of range"

namespace Fault

/-- A refused range as a fault. -/
def ofRange {α : Type} : Except Buffer.RangeError α → Except Fault α
  | .ok a => .ok a
  | .error e => .error (.range e)

@[simp] theorem ofRange_ok {α : Type} (a : α) : ofRange (.ok a) = .ok a := rfl

/-- No fault where no range was refused. -/
theorem ofRange_eq_ok_iff {α : Type} {r : Except Buffer.RangeError α} {a : α} :
    ofRange r = .ok a ↔ r = .ok a := by
  cases r <;> simp [ofRange]

end Fault

namespace Canvas

/-- The canvas without any text. -/
def blank : Canvas := Buffer.ofText []

/-- Ends the last line, unless it is empty. -/
def newline (c : Canvas) : Canvas :=
  if c.text ≠ [] ∧ c.endsWithNewline = false then c.append ['\n'] else c

/-- Attaches a mark at the end of the text. -/
def markEnd (o : Object) (c : Canvas) : Except Fault Canvas :=
  Fault.ofRange (c.set o c.length c.length .mark)

/-- Attaches the styles of event `n` to a range, one after another. -/
def attach (n : Nat) (styles : List Style) (start stop : Nat) (c : Canvas) : Except Fault Canvas :=
  styles.foldlM (fun c s => Fault.ofRange (c.set (.style n s) start stop .exclusive)) c

/-- Takes out the text from `start` to the end. -/
def extract (start : Nat) (c : Canvas) : Except Fault (Text × Canvas) :=
  (Fault.ofRange (c.delete start c.length)).map fun c' => (c.text.drop start, c')

/-- Marking succeeds. The end of a text is always a place in it. -/
theorem markEnd_eq (o : Object) (c : Canvas) :
    c.markEnd o = .ok (c.place ⟨o, c.length, c.length, .mark⟩) := by
  have h : c.Within c.length c.length := ⟨by omega, by omega, by omega⟩
  simp [markEnd, Buffer.set, h]

/-- Extraction succeeds from every place in the text. -/
theorem extract_eq {start : Nat} {c : Canvas} (h : start ≤ c.length) :
    c.extract start = .ok (c.text.drop start, c.cut start c.length) := by
  have h : c.Within start c.length := ⟨by omega, by omega, by omega⟩
  simp [extract, Buffer.delete, h, Except.map]

@[simp] theorem attach_nil (n : Nat) (start stop : Nat) (c : Canvas) :
    c.attach n [] start stop = .ok c := rfl

end Canvas

end StyledText
