import StyledText.Color
import StyledText.Flow.Collapse
import StyledText.Flow.Tag
import StyledText.Image.Resources
import StyledText.Markup.Event

/-!
# Running text

`Flow` writes a document on a canvas: its character data with white space collapsed, and styles for
the common elements. A start tag puts an opening at the end of the text; an end tag takes off the
newest opening of its kind and styles the text behind it. Blocks get blank lines around them, and
an image stands on a character of its own. Every other tag means nothing.

* `Flow.blankLine` — the room around a block;
* `Flow.State.receive` — what an event does.
-/

namespace StyledText

namespace Opening

/-- The color of a font element, if it names one that can be read. -/
def fontColor? (color : Option Text) : Option Nat := color.bind Color.read?

/-- The sizes of headings, in hundredths of the size around. -/
def headingSize (level : Fin 6) : Nat := [150, 140, 130, 120, 110, 100][level]

/-- The styles of an element. -/
def styles : Opening → List Style
  | inline i => [i.style]
  | font color face =>
    ((face.filter (· ≠ [])).map Style.typeface).toList
      ++ ((fontColor? color).map Style.color).toList
  | quote => [.quote]
  | link href => [.link ⟨href, false⟩]
  | heading level => [.size (headingSize level), .face .bold]
  | bullet => [.bullet Style.standardGap]

end Opening

namespace Flow

/-- Ends the text with a blank line, unless it is empty. -/
def blankLine (c : Canvas) : Canvas :=
  match c.text.reverse with
  | [] => c
  | '\n' :: '\n' :: _ => c
  | '\n' :: _ => c.append ['\n']
  | _ => c.append ['\n', '\n']

/-- Puts the opening of an element that event `n` opens at the end of the text. -/
def beginElement (n : Nat) (o : Opening) (c : Canvas) : Except Fault Canvas :=
  c.markEnd (.opening n o)

/-- The newest opening of a kind, with its place. -/
def newest? (kind : Opening.Kind) (c : Canvas) : Option (Opening × Span Object) :=
  (c.lastMark? fun o => o.opening?.any (·.kind = kind)).bind fun s =>
    s.what.opening?.map fun o => (o, s)

/-- The offset after the text behind `start`; for a heading, after the last character that is not a
newline. -/
def stopOf (kind : Opening.Kind) (start : Nat) (c : Canvas) : Nat :=
  match kind with
  | .heading => start + (Text.dropTrailing (· = '\n') (c.text.drop start)).length
  | _ => c.length

/-- Closes the element of the newest opening of a kind. -/
def finish (n : Nat) (kind : Opening.Kind) (c : Canvas) : Except Fault Canvas :=
  match newest? kind c with
  | none => .ok c
  | some (o, s) =>
    let stop := stopOf kind s.start c
    let c : Canvas := c.remove s.what
    if s.start = stop then .ok c else c.attach n o.styles s.start stop

/-- What is known between two events. -/
structure State where
  canvas : Canvas := Canvas.blank
  /-- the images that were asked for in vain, the oldest first -/
  failures : List Image.Failure := []
  deriving DecidableEq, Repr

namespace State

/-- The image of a source. Nothing is asked for without a source or without a lookup. -/
def drawable (lookup? : Option Image.Lookup) (source : Option Text) (f : State) :
    Option Drawable × State :=
  match lookup?, source with
  | some lookup, some (c :: source) =>
    match lookup (c :: source) with
    | .ok d => (some d, f)
    | .error e => (none, { f with failures := f.failures ++ [e] })
  | _, _ => (none, f)

/-- Writes an image on a character of its own. -/
def image (lookup? : Option Image.Lookup) (n : Nat) (attributes : Markup.Attributes) (f : State) :
    Except Fault State :=
  let source := attributes.get? "src".toList
  let (drawable, f) := f.drawable lookup? source
  let start := f.canvas.length
  let c : Canvas := f.canvas.append [objectReplacement]
  (c.attach n [.image source drawable] start c.length).map fun c => { f with canvas := c }

/-- Changes the canvas alone. -/
def draw (f : State) (step : Canvas → Except Fault Canvas) : Except Fault State :=
  (step f.canvas).map fun c => { f with canvas := c }

/-- Opens the element of a tag. -/
def startTag (lookup? : Option Image.Lookup) (n : Nat) (tag : Tag) (attributes : Markup.Attributes)
    (f : State) : Except Fault State :=
  match tag with
  | .lineBreak => .ok f
  | .block => .ok { f with canvas := blankLine f.canvas }
  | .item => f.draw fun c => beginElement n .bullet c.newline
  | .inline i => f.draw (beginElement n (.inline i))
  | .font =>
    f.draw (beginElement n (.font (attributes.get? "color".toList) (attributes.get? "face".toList)))
  | .quote => f.draw fun c => beginElement n .quote (blankLine c)
  | .link => f.draw (beginElement n (.link (attributes.get? "href".toList)))
  | .heading level => f.draw fun c => beginElement n (.heading level) (blankLine c)
  | .image => f.image lookup? n attributes

/-- Closes the element of a tag. -/
def endTag (n : Nat) (tag : Tag) (f : State) : Except Fault State :=
  match tag with
  | .lineBreak => .ok { f with canvas := f.canvas.append ['\n'] }
  | .block => .ok { f with canvas := blankLine f.canvas }
  | .item => f.draw fun c => finish n .bullet c.newline
  | .inline i => f.draw (finish n (.inline i))
  | .font => f.draw (finish n .font)
  | .quote => f.draw fun c => finish n .quote (blankLine c)
  | .link => f.draw (finish n .link)
  | .heading _ => f.draw fun c => finish n .heading (blankLine c)
  | .image => .ok f

/-- Writes character data. -/
def characters (t : Text) (f : State) : State :=
  { f with canvas := f.canvas.append (collapse (lastOf f.canvas.text) t) }

/-- Receives event `n`. -/
def receive (lookup? : Option Image.Lookup) (n : Nat) (e : Markup.Event) (f : State) :
    Except Fault State :=
  match e with
  | .startElement name attributes =>
    match Tag.ofName? name with
    | some tag => f.startTag lookup? n tag attributes
    | none => .ok f
  | .endElement name =>
    match Tag.ofName? name with
    | some tag => f.endTag n tag
    | none => .ok f
  | .characters t => .ok (f.characters t)
  | _ => .ok f

end State

end Flow

end StyledText
