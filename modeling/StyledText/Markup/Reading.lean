import StyledText.Markup.Construct

/-!
# Reading markup

`Markup.read` turns markup into the events of a document. Text between constructs is reported with
its character references decoded; text that began like markup and is none is reported as it stands.
Markup that is not finished where the input ends is text as well, up to the next bracket. The
content of an element of raw text is lost if its end tag never comes.

Reading stops at the first fault; the events before it are kept, and there is no end of document.
-/

namespace StyledText

namespace Markup

/-- The events of a document, and the fault that cut it short, if there was one. -/
structure Reading where
  events : List Event
  fault : Option Fault
  deriving DecidableEq, Repr

namespace Reading

/-- The reading of a piece without a fault, followed by another. -/
def prepend (events : List Event) (r : Reading) : Reading := { r with events := events ++ r.events }

/-- A reading that a fault ends. -/
def failed (cause : Cause) (position : Position) : Reading := ⟨[], some ⟨cause, position⟩⟩

/-- The events of character data; there is none for an empty text. -/
def characterEvents (t : Text) : List Event := if t = [] then [] else [.characters t]

/-- The place of a fault in a construct that begins at `p`. -/
def faultPosition (p : Position) : Cause → Position
  | .noKeyword _ => p.after "<![".toList
  | _ => p

/-- The number of characters of `t`, after an opening bracket, that are text because no construct is
finished: up to a closing bracket, or else before the next opening one. -/
def unfinishedSize (t : Text) : Nat :=
  match Text.cut? '>' t with
  | some (before, _) => before.length + 1
  | none =>
    match Text.cut? '<' t with
    | some (before, _) => before.length
    | none => 0

/-- Reads character data and goes on. -/
def ofCharacters (p : Position) (t : Text) (next : Reading) : Reading :=
  match Reference.decode t with
  | .error c => failed c p
  | .ok decoded => next.prepend (characterEvents decoded)

/-- Reads a text that begins at `p`, inside the raw text of an element or outside of any. -/
def startingAt (p : Position) (raw : Option RawElement) (t : Text) : Reading :=
  match raw, t with
  | _, [] => ⟨[], none⟩
  | some e, c :: t =>
    match e.split? (c :: t) with
    | none => ⟨[], none⟩
    | some (before, body) =>
      let tag := '<' :: '/' :: body ++ ['>']
      let closes := e.closes body
      let events := characterEvents before
        ++ if closes then [.endElement e.name] else characterEvents tag
      let size := before.length + body.length + 2
      let next := startingAt (p.after (before ++ tag)) (if closes then none else raw) (t.drop size)
      next.prepend events
  | none, '<' :: t =>
    match Construct.read t with
    | .fault c => failed c (faultPosition p c)
    | .markup events raw rest =>
      let size := t.length - rest.length
      (startingAt (p.after ('<' :: t.take size)) raw (t.drop size)).prepend events
    | .text rest =>
      let size := t.length - rest.length
      (startingAt (p.after ('<' :: t.take size)) none (t.drop size)).prepend
        (characterEvents ('<' :: t.take size))
    | .unfinished =>
      let size := unfinishedSize t
      ofCharacters p ('<' :: t.take size)
        (startingAt (p.after ('<' :: t.take size)) none (t.drop size))
  | none, c :: t =>
    let run := c :: t.takeWhile (· ≠ '<')
    ofCharacters p run (startingAt (p.after run) none (t.dropWhile (· ≠ '<')))
termination_by t.length
decreasing_by
  · simp only [List.length_drop, List.length_cons]; omega
  · simp only [List.length_drop, List.length_cons]; omega
  · simp only [List.length_drop, List.length_cons]; omega
  · simp only [List.length_drop, List.length_cons]; omega
  · exact Nat.lt_succ_of_le (StartTag.length_dropWhile_le _ t)

end Reading

/-- The events of a document. -/
def read (t : Text) : Reading :=
  let body := Reading.startingAt Position.start none t
  let stop := if body.fault.isNone then [Event.endDocument] else []
  ⟨.startDocument :: body.events ++ stop, body.fault⟩

end Markup

end StyledText
