import StyledText.Buffer.Subsequence
import StyledText.Buffer.View
import StyledText.Consumer
import StyledText.Markup.Reading
import StyledText.Markup.Rename
import StyledText.Options

/-!
# Formatting

`format` turns markup into styled text: the tags of lists and links get reserved names, the document
is read, its events go to `Intercept` and from there to `Flow`, and the newlines at the end of the
text are dropped if that is asked for. `convert` leaves out all but reading and `Flow`.

Formatting fails where the indentation is no number that can be rounded and where the markup cannot
be read. The images that were asked for in vain are reported in either case.
-/

namespace StyledText

/-- What is asked of the formatter. -/
structure Request where
  setup : Intercept.Setup := {}
  /-- where images are looked up -/
  images : Option Image.Lookup := none
  /-- the indentation of lists -/
  indent : Option Binary64 := none
  /-- whether newlines at the end are dropped -/
  trim : Bool := true

/-- Why markup cannot be formatted. -/
inductive FormatError where
  | indent (e : Binary64.Unroundable)
  | markup (f : Markup.Fault)
  | canvas (f : Fault)
  deriving DecidableEq, Repr

/-- What comes of formatting. -/
structure Formatted where
  /-- the styled text -/
  result : Except FormatError Canvas
  /-- the images that were asked for in vain -/
  failures : List Image.Failure

namespace Formatted

/-- Nothing but an error. -/
def failed (e : FormatError) : Formatted := ⟨.error e, []⟩

/-- What comes of a document that has been written, unless its reading was cut short. -/
def ofRun (fault : Option Markup.Fault) (f : Flow.State) : Formatted :=
  ⟨match fault with
    | some fault => .error (.markup fault)
    | none => .ok f.canvas, f.failures⟩

/-- The same with a change of the styled text. -/
def map (change : Canvas → Canvas) (f : Formatted) : Formatted :=
  { f with result := f.result.map change }

end Formatted

/-- The interceptor that a request asks for. -/
def Request.interceptor (r : Request) : Except Binary64.Unroundable Intercept.State :=
  let t : Intercept.State := { setup := r.setup }
  match r.indent with
  | some px => t.setIndent px
  | none => .ok t

/-- The consumer of a formatted document: running text behind `Intercept`. -/
def intercepted (lookup? : Option Image.Lookup) : Consumer (Intercept.State × Flow.State) :=
  (flow lookup?).behindIntercept Flow.State.access

/-- Writes markup as running text, without any interception. -/
def convert (lookup? : Option Image.Lookup) (html : Text) : Formatted :=
  let reading := Markup.read html
  match (flow lookup?).run reading.events {} with
  | .error f => .failed (.canvas f)
  | .ok f => .ofRun reading.fault f

/-- Formats markup. -/
def format (r : Request) (html : Text) : Formatted :=
  match r.interceptor with
  | .error e => .failed (.indent e)
  | .ok t =>
    let reading := Markup.read (Markup.reserveNames html)
    match (intercepted r.images).run reading.events (t, {}) with
    | .error f => .failed (.canvas f)
    | .ok (_, f) => (Formatted.ofRun reading.fault f).map fun c => if r.trim then c.trimEnd else c

namespace Canvas

/-- The links of the text in the order of its styled ranges. -/
def links (c : Canvas) : List Link :=
  c.annotations.filterMap fun s =>
    match s.what.style? with
    | some (.link l) => some l
    | _ => none

end Canvas

/-- An interceptor in front of running text has a canvas to work on. -/
theorem intercept?_flow (lookup? : Option Image.Lookup) :
    (flow lookup?).intercept? = .ok (intercepted lookup?) := rfl

end StyledText
