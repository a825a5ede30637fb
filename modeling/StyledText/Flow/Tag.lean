import StyledText.Canvas
import StyledText.Text.Lowercase

/-!
# The tags of running text

The tags that `Flow` knows, by their lower case names. Several names have one meaning.
-/

namespace StyledText

namespace Flow

/-- A tag of running text. -/
inductive Tag where
  | lineBreak
  /-- a block of its own, with blank lines around it -/
  | block
  | item
  | inline (i : Inline)
  | font
  | quote
  | link
  /-- a heading, of the first level at `0` -/
  | heading (level : Fin 6)
  | image
  deriving DecidableEq, Repr

namespace Tag

/-- The names of the tags. -/
def names : List (Text × Tag) := [
  ("br".toList, lineBreak),
  ("p".toList, block), ("div".toList, block), ("ul".toList, block),
  ("li".toList, item),
  ("strong".toList, inline .bold), ("b".toList, inline .bold),
  ("em".toList, inline .italic), ("cite".toList, inline .italic), ("dfn".toList, inline .italic),
  ("i".toList, inline .italic),
  ("big".toList, inline .big), ("small".toList, inline .small),
  ("tt".toList, inline .monospace), ("u".toList, inline .underline),
  ("del".toList, inline .strike), ("s".toList, inline .strike), ("strike".toList, inline .strike),
  ("sup".toList, inline .superscript), ("sub".toList, inline .subscript),
  ("font".toList, font), ("blockquote".toList, quote), ("a".toList, link),
  ("h1".toList, heading 0), ("h2".toList, heading 1), ("h3".toList, heading 2),
  ("h4".toList, heading 3), ("h5".toList, heading 4), ("h6".toList, heading 5),
  ("img".toList, image)]

/-- The tag of this name in any case, if there is one. -/
def ofName? (name : Text) : Option Tag := names.lookup name.lower

end Tag

end Flow

namespace Inline

/-- The style of an inline element. -/
def style : Inline → Style
  | bold => .face .bold
  | italic => .face .italic
  | big => .size 125
  | small => .size 80
  | monospace => .typeface "monospace".toList
  | underline => .underline
  | strike => .strike
  | superscript => .superscript
  | subscript => .subscript

end Inline

namespace Opening

/-- The kinds of opening; an end tag closes the newest one of its kind. -/
inductive Kind where
  | inline (i : Inline)
  | font
  | quote
  | link
  | heading
  | bullet
  deriving DecidableEq, Repr

/-- The kind of an opening. -/
def kind : Opening → Kind
  | inline i => .inline i
  | font .. => .font
  | quote => .quote
  | link _ => .link
  | heading _ => .heading
  | bullet => .bullet

end Opening

end StyledText
