import StyledText.Intercept.Handle
import StyledText.Text.Quoted

/-!
# Notes on handling

Lines for someone who watches tags being handled: the whole text before each tag, and the place of
each marker that is put down. The notes are told from what is there before and after.
-/

namespace StyledText

namespace Intercept

namespace State

/-- The note on a tag that is about to be handled or declined. -/
def noteBefore (isStart : Bool) (c : Canvas) : Text :=
  (if isStart then "opening" else "closing").toList ++ ", output: ".toList ++ c.text.quoted

/-- The note on a marker, if one has been put down between two states. -/
def noteMarker? (before after : State) (c : Canvas) : Option Text :=
  if before.markers.length < after.markers.length then
    (after.markers.head?.bind fun m => c.start? (.marker m)).map fun start =>
      "len: ".toList ++ Text.ofNat start
  else none

/-- The notes on an event that took one state to another and left a canvas. -/
def notes (e : Markup.Event) (before : State) (c : Canvas) (after : State) (c' : Canvas) :
    List Text :=
  match e with
  | .startElement .. => noteBefore true c :: (noteMarker? before after c').toList
  | .endElement _ => [noteBefore false c]
  | _ => []

end State

end Intercept

end StyledText
