import StyledText.Text.Lowercase
import StyledText.Text.Replace

/-!
# Reserved tag names

Lists and links are styled by `Intercept`, not by `Flow`, which has its own idea of them. So before
a document is read, the tags of these elements are given names that no document uses. The names are
put into the text of the markup, wherever the beginning of such a start tag or a whole such end tag
stands: also in attribute values and comments, also where a longer tag name begins alike, and only
in lower case. An empty element under a name of its own is put in front, so that every document
begins with a tag that means nothing.
-/

namespace StyledText

namespace Markup

/-- The elements whose tags are renamed. -/
inductive Renamed where
  | unorderedList
  | orderedList
  | listItem
  | anchor
  deriving DecidableEq, Repr

namespace Renamed

/-- The elements in the order in which they are renamed. -/
def all : List Renamed := [unorderedList, orderedList, listItem, anchor]

/-- The name of the element in a document. -/
def plain : Renamed → Text
  | unorderedList => "ul".toList
  | orderedList => "ol".toList
  | listItem => "li".toList
  | anchor => "a".toList

/-- The reserved name of the element. -/
def reserved : Renamed → Text
  | unorderedList => "HTML_TEXTVIEW_ESCAPED_UL_TAG".toList
  | orderedList => "HTML_TEXTVIEW_ESCAPED_OL_TAG".toList
  | listItem => "HTML_TEXTVIEW_ESCAPED_LI_TAG".toList
  | anchor => "HTML_TEXTVIEW_ESCAPED_A_TAG".toList

/-- The beginning of a start tag. -/
def startPattern (r : Renamed) : Text.Pattern := ⟨'<', r.plain⟩

/-- An end tag. -/
def endPattern (r : Renamed) : Text.Pattern := ⟨'<', '/' :: r.plain ++ ['>']⟩

/-- The markup with the tags of the element under its reserved name. -/
def rename (r : Renamed) (t : Text) : Text :=
  Text.replace r.endPattern ('<' :: '/' :: r.reserved ++ ['>'])
    (Text.replace r.startPattern ('<' :: r.reserved) t)

end Renamed

/-- The name of the element in front of every document. -/
def placeholderName : Text := "HTML_TEXTVIEW_ESCAPED_PLACEHOLDER".toList

/-- The element in front of every document. -/
def placeholder : Text :=
  '<' :: placeholderName ++ '>' :: '<' :: '/' :: placeholderName ++ ['>']

/-- The markup with reserved names, behind the placeholder. -/
def reserveNames (t : Text) : Text := Renamed.all.foldl (fun t r => r.rename t) (placeholder ++ t)

example : reserveNames "<ul><abbr></a>".toList =
    placeholder ++ "<HTML_TEXTVIEW_ESCAPED_UL_TAG><HTML_TEXTVIEW_ESCAPED_A_TAGbbr>".toList
      ++ "</HTML_TEXTVIEW_ESCAPED_A_TAG>".toList := by decide +kernel

end Markup

end StyledText
