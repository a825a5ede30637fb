import StyledText.Text.Basic

/-!
# Markup events

A document as a reader reports it: the start and the end of each element and the character data
between them, in document order, with a few events about the document itself.
-/

namespace StyledText

namespace Markup

/-- The attributes of an element in document order; a name occurs once. -/
abbrev Attributes := List (Text × Text)

namespace Attributes

/-- The value of an attribute. -/
def get? (attributes : Attributes) (name : Text) : Option Text := attributes.lookup name

/-- The attributes without those whose name has occurred before. -/
def firstOfEach : List (Text × Text) → Attributes
  | [] => []
  | (name, value) :: rest => (name, value) :: (firstOfEach rest).filter (·.1 ≠ name)

end Attributes

/-- An event of a document. -/
inductive Event where
  | startDocument
  | endDocument
  | startElement (name : Text) (attributes : Attributes)
  | endElement (name : Text)
  | characters (text : Text)
  | ignorableWhitespace (text : Text)
  | processingInstruction (target data : Text)
  | skippedEntity (name : Text)
  | startPrefixMapping (name : Option Text) (uri : Text)
  | endPrefixMapping (name : Option Text)
  | documentLocator
  deriving DecidableEq, Repr

end Markup

end StyledText
