import StyledText.Markup.StartTag

/-!
# End tags

An end tag reaches to the first closing bracket. What stands between is its body. A body that is a
plain name with blanks around it is that name. Any other body that begins with a letter gives the
name that a start tag would have there, and one that does not closes nothing.
-/

namespace StyledText

namespace Markup

namespace EndTag

/-- Whether the character may occur in a plain name after its first letter. -/
def isPlain (c : Char) : Bool := c.isAlphanum || c ∈ ['-', '.', ':', '_']

/-- The name that is all of the body but for blanks. -/
def plainName? (body : Text) : Option Text :=
  match body.dropWhile Text.isBlank with
  | [] => none
  | c :: t =>
    if c.isAlpha && (t.dropWhile isPlain).all Text.isBlank then
      some (Text.lower (c :: t.takeWhile isPlain))
    else none

/-- The name of the element that an end tag with this body closes. -/
def name? (body : Text) : Option Text :=
  (plainName? body).orElse fun _ =>
    if body.head?.any Char.isAlpha then
      some (Text.lower (body.takeWhile (!StartTag.endsName ·)))
    else none

example : name? " B ".toList = some ['b'] ∧ name? "b x".toList = some ['b'] ∧
    name? "1".toList = none ∧ name? [] = none := by decide +kernel

end EndTag

end Markup

end StyledText
