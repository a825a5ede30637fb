import StyledText.Intercept.Lists
import StyledText.Intercept.Tables
import StyledText.Markup.Event

/-!
# Handling a tag

`State.startTag` and `State.endTag` handle a tag that is intercepted. Every such tag is recorded
after it is handled, if a table is open then; the end tag of the outermost table closes it, so it
writes itself before.

`State.handle?` takes an event. The names of start tags and those of end tags are compared on their
own (`Tag.ofStart?`, `Tag.ofEnd?`); both find the tags of `Tag.ofName?`, and everything else is
declined.
-/

namespace StyledText

namespace Intercept

namespace State

/-- Opens the element of a tag. -/
def openElement (n : Nat) (tag : Tag) (attributes : Markup.Attributes) (t : State) (c : Canvas) :
    Except Fault (State × Canvas) :=
  match tag with
  | .list kind => .ok (t.openList kind, c)
  | .item => t.openItem n c
  | .link => t.mark n .link (attributes.get? "href".toList) c
  | .bare b => t.mark n b.marker none c
  | .table => t.openTable n c

/-- Closes the element of a tag. -/
def closeElement (n : Nat) (tag : Tag) (t : State) (c : Canvas) : Except Fault (State × Canvas) :=
  match tag with
  | .list _ => .ok (t.closeList, c)
  | .item => t.closeItem n c
  | .link =>
    let href := (t.newest? .link).bind (·.href)
    t.finish n .link false [.link ⟨href, t.setup.listener⟩] c
  | .bare b => t.finish n b.marker b.isParagraph b.styles c
  | .table => t.closeTable n c

/-- Handles a start tag. -/
def startTag (n : Nat) (tag : Tag) (attributes : Markup.Attributes) (t : State) (c : Canvas) :
    Except Fault (State × Canvas) :=
  (t.openElement n tag attributes c).map fun (t, c) => (t.record tag.startText, c)

/-- Handles an end tag. -/
def endTag (n : Nat) (tag : Tag) (t : State) (c : Canvas) : Except Fault (State × Canvas) :=
  (t.closeElement n tag c).map fun (t, c) => (t.record tag.endText, c)

/-- Handles event `n`, or declines it. -/
def handle? (n : Nat) (e : Markup.Event) (t : State) (c : Canvas) :
    Option (Except Fault (State × Canvas)) :=
  match e with
  | .startElement name attributes =>
    (Tag.ofStart? name).map fun tag => t.startTag n tag attributes c
  | .endElement name => (Tag.ofEnd? name).map fun tag => t.endTag n tag c
  | _ => none

/-- A start tag is handled if its name is that of an intercepted tag. -/
theorem handle?_startElement (n : Nat) (name : Text) (attributes : Markup.Attributes) (t : State)
    (c : Canvas) :
    t.handle? n (.startElement name attributes) c =
      (Tag.ofName? name).map fun tag => t.startTag n tag attributes c := by
  rw [handle?, Tag.ofStart?_eq_ofName?]

/-- An end tag is handled under the same condition, so no element is handled by halves. -/
theorem handle?_endElement (n : Nat) (name : Text) (t : State) (c : Canvas) :
    t.handle? n (.endElement name) c = (Tag.ofName? name).map fun tag => t.endTag n tag c := by
  rw [handle?, Tag.ofEnd?_eq_ofName?]

end State

end Intercept

end StyledText
