import StyledText.Intercept.Tag

/-!
# Intercepted elements

`Intercept.State` is what is known between two tags: the open lists, the markers of the other open
elements, and the markup of the table that is being collected. A start tag puts a marker at the end
of the canvas (`State.mark`); an end tag takes the newest marker of its kind off and styles the text
behind it (`State.finish`). Which element an end tag belongs to is told by the kind alone, so tags
need not be well nested.

Inside a table nothing is styled. There `State.finish` takes the text off the canvas and adds it to
the markup of the table, and `State.record` adds the tag.
-/

namespace StyledText

namespace Intercept

/-- What is fixed from the start. -/
structure Setup where
  /-- the label that is drawn in the place of each table -/
  tableLink : Option TableLink := none
  /-- whether each table gets something that reacts to clicks -/
  clickable : Bool := false
  /-- whether a listener takes the clicks on links -/
  listener : Bool := false
  deriving DecidableEq, Repr

/-- What is known between two tags. -/
structure State where
  setup : Setup := {}
  /-- the indentation of a list that was asked for -/
  indent : Option Nat := none
  /-- the open lists, the innermost first -/
  lists : List ListKind := []
  /-- the numbers of the next items of the open ordered lists, the innermost first -/
  counters : List Nat := []
  /-- the markers of the open elements, the newest first -/
  markers : List Marker := []
  /-- the number of tables around the place -/
  depth : Nat := 0
  /-- the markup of the outermost table, so far -/
  html : Text := []
  /-- the number of tables that have been made to react to clicks -/
  clicks : Nat := 0
  deriving DecidableEq, Repr

namespace State

/-- The state with another indentation, rounded to a whole one; a negative one asks for nothing. -/
def setIndent (px : Binary64) (t : State) : Except Binary64.Unroundable State :=
  px.roundHalfUp.map fun (n : Int) =>
    { t with indent := if 0 ≤ n then some n.toNat else none }

/-- The newest marker of a kind. -/
def newest? (kind : MarkerKind) (t : State) : Option Marker := t.markers.find? (·.kind = kind)

/-- The state without the newest marker of a kind. -/
def drop (kind : MarkerKind) (t : State) : State :=
  { t with markers := t.markers.eraseP (·.kind = kind) }

/-- Adds to the markup of the table. -/
def write (text : Text) (t : State) : State := { t with html := t.html ++ text }

/-- Adds a tag to the markup of the table around the place, if there is one. -/
def record (text : Text) (t : State) : State := if 0 < t.depth then t.write text else t

/-- Puts the marker of an element that event `n` opens at the end of the canvas. -/
def mark (n : Nat) (kind : MarkerKind) (href : Option Text) (t : State) (c : Canvas) :
    Except Fault (State × Canvas) :=
  let m : Marker := ⟨n, kind, href⟩
  (c.markEnd (.marker m)).map fun c => ({ t with markers := m :: t.markers }, c)

/-- Inside a table, moves the text from `start` to the markup of the table. -/
def collect (start : Nat) (t : State) (c : Canvas) : Except Fault (State × Canvas) :=
  if 0 < t.depth then (c.extract start).map fun (text, c) => (t.write text, c)
  else .ok (t, c)

/-- Closes the element of the newest marker of a kind: its text is collected or gets the styles. A
style of whole paragraphs needs a newline at its end. -/
def finish (n : Nat) (kind : MarkerKind) (isParagraph : Bool) (styles : List Style) (t : State)
    (c : Canvas) : Except Fault (State × Canvas) :=
  match t.newest? kind with
  | none => .ok (t, c)
  | some m =>
    match c.start? (.marker m) with
    | none => .ok (t.drop kind, c)
    | some start => do
      let (t, c) ← (t.drop kind).collect start c
      let c : Canvas := c.remove (.marker m)
      if start = c.length then return (t, c)
      let c := if isParagraph then c.newline else c
      return (t, ← c.attach n styles start c.length)

/-- Marking succeeds. -/
theorem mark_eq (n : Nat) (kind : MarkerKind) (href : Option Text) (t : State) (c : Canvas) :
    t.mark n kind href c =
      .ok ({ t with markers := ⟨n, kind, href⟩ :: t.markers },
        c.place ⟨.marker ⟨n, kind, href⟩, c.length, c.length, .mark⟩) := by
  simp [mark, Canvas.markEnd_eq, Except.map]

/-- Nothing to close. An end tag without a marker of its kind changes nothing. -/
theorem finish_of_newest?_eq_none {n : Nat} {kind : MarkerKind} {isParagraph : Bool}
    {styles : List Style} {t : State} {c : Canvas} (h : t.newest? kind = none) :
    t.finish n kind isParagraph styles c = .ok (t, c) := by
  simp [finish, h]

end State

end Intercept

end StyledText
