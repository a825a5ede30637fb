import StyledText.Markup.MarkedSection
import StyledText.Markup.RawElement

/-!
# Constructs

What an opening angle bracket begins, told by the characters after it: a start tag, an end tag, a
comment, a processing instruction, a declaration or a marked section. Before anything else it is
text. Void elements have no content: their end is reported with their start, and an end tag of
theirs is no event.
-/

namespace StyledText

namespace Markup

/-- The elements without content. -/
def voidElements : List Text := [
  "area".toList, "base".toList, "br".toList, "col".toList, "embed".toList, "hr".toList,
  "img".toList, "input".toList, "link".toList, "meta".toList, "param".toList, "source".toList,
  "track".toList, "wbr".toList]

/-- What an opening angle bracket begins. -/
inductive Construct where
  /-- markup, with the events that it reports and the element whose raw text follows, if any -/
  | markup (events : List Event) (raw : Option RawElement) (rest : Text)
  /-- text as it stands, up to what is left -/
  | text (rest : Text)
  /-- the beginning of markup that is not finished -/
  | unfinished
  /-- markup that cannot be read -/
  | fault (c : Cause)
  deriving DecidableEq, Repr

namespace Construct

/-- The events of a start tag. -/
def startEvents (t : StartTag) (attributes : Attributes) : List Event :=
  let start := Event.startElement t.name attributes
  if t.selfClosing || t.name ∈ voidElements then [start, .endElement t.name] else [start]

/-- The events of an end tag with this body. -/
def endEvents (body : Text) : List Event :=
  match EndTag.name? body with
  | none => []
  | some name => if name ∈ voidElements then [] else [.endElement name]

/-- The event of a processing instruction: its target reaches to the first space, and question marks
at its end do not count. -/
def instructionEvent (content : Text) : Event :=
  let content := Text.dropTrailing (· = '?') content
  .processingInstruction (content.takeWhile (· ≠ ' '))
    (Text.strip ((content.dropWhile (· ≠ ' ')).drop 1))

/-- What follows the close of a comment. -/
def afterComment? : Text → Option Text
  | '-' :: '-' :: t =>
    match t.dropWhile Text.isBlank with
    | '>' :: rest => some rest
    | _ => none
  | _ => none

/-- Reads up to the first closing bracket and reports what stands before it. -/
def upToBracket (events : Text → List Event) (t : Text) : Construct :=
  match Text.cut? '>' t with
  | some (body, rest) => .markup (events body) none rest
  | none => .unfinished

/-- A start tag, whose name the text begins with. -/
def ofStartTag (t : Text) : Construct :=
  match StartTag.read t with
  | .unfinished => .unfinished
  | .text rest => .text rest
  | .tag tag rest =>
    match tag.decodedAttributes with
    | .error c => .fault c
    | .ok attributes =>
      .markup (startEvents tag attributes)
        (if tag.selfClosing then none else RawElement.ofName? tag.name) rest

/-- A comment, whose opening stands before the text. -/
def ofComment (t : Text) : Construct :=
  match Text.afterFirst? afterComment? t with
  | some rest => .markup [] none rest
  | none => .unfinished

/-- A marked section, whose square bracket stands before the text. -/
def ofSection (t : Text) : Construct :=
  match MarkedSection.read t with
  | .closed rest => .markup [] none rest
  | .unfinished => .unfinished
  | .fault c => .fault c

/-- Reads what an opening angle bracket before the text begins. -/
def read : Text → Construct
  | '/' :: t => upToBracket endEvents t
  | '?' :: t => upToBracket (fun content => [instructionEvent content]) t
  | '!' :: '-' :: '-' :: t => ofComment t
  | '!' :: '[' :: t => ofSection t
  | '!' :: t => upToBracket (fun _ => []) t
  | c :: t => if c.isAlpha then ofStartTag (c :: t) else .text (c :: t)
  | [] => .text []

end Construct

end Markup

end StyledText
