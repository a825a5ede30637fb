import StyledText.Markup.EndTag

/-!
# Elements of raw text

The content of scripts and style sheets is text in which nothing is markup but the end tag of the
element. An end tag is recognised without regard to case, and letters that differ only in the
script they were cased for count as the same: the long `s` as an `s`, the capital `I` with a dot and
the small one without as an `i`. One with such a letter parts the text but does not end the element.
-/

namespace StyledText

namespace Markup

/-- The elements whose content is raw text. -/
inductive RawElement where
  | script
  | style
  deriving DecidableEq, Repr

namespace RawElement

/-- The name of the element. -/
def name : RawElement → Text
  | script => "script".toList
  | style => "style".toList

/-- The element with this name, if its content is raw text. -/
def ofName? (t : Text) : Option RawElement :=
  if t = script.name then some script else if t = style.name then some style else none

/-- Whether a character counts as the small letter. -/
def sameLetter (letter c : Char) : Bool :=
  c.toLower = letter || letter = 's' && c = '\u017F'
    || letter = 'i' && (c = '\u0130' || c = '\u0131')

/-- What follows a word whose letters count as those given. -/
def afterWord? : Text → Text → Option Text
  | [], t => some t
  | _ :: _, [] => none
  | letter :: word, c :: t => if sameLetter letter c then afterWord? word t else none

/-- The body of an end tag of the element at the start of the text. -/
def endTagBody? (e : RawElement) : Text → Option Text
  | '<' :: '/' :: t =>
    match (afterWord? e.name (t.dropWhile Text.isBlank)).map (·.dropWhile Text.isBlank) with
    | some ('>' :: rest) => some (t.take (t.length - rest.length - 1))
    | _ => none
  | _ => none

/-- The text before the first end tag of the element, and the body of that tag. -/
def split? (e : RawElement) : Text → Option (Text × Text)
  | [] => none
  | c :: t =>
    match endTagBody? e (c :: t) with
    | some body => some ([], body)
    | none => (split? e t).map fun (before, body) => (c :: before, body)

/-- Whether an end tag with this body ends the element. -/
def closes (e : RawElement) (body : Text) : Bool := EndTag.plainName? body = some e.name

end RawElement

end Markup

end StyledText
