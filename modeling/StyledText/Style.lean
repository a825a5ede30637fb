import StyledText.Number.Binary64
import StyledText.Text.Quoted

/-!
# Styles

What can be attached to a range of shown text. A style is a description; drawing it is the task of
the display.

* `Style` — the kinds of style and what each of them carries;
* `Style.leadingMargin` — how far a style moves the start of a line;
* `Link.click` — what a click on a link asks for;
* `TableLink` — the label that is drawn in the place of a table.
-/

namespace StyledText

/-- The edges of an image, in pixels. -/
structure Bounds where
  left : Int
  top : Int
  right : Int
  bottom : Int
  deriving DecidableEq, Repr

namespace Bounds

/-- The distance between the vertical edges. -/
def width (b : Bounds) : Int := b.right - b.left

/-- The distance between the horizontal edges. -/
def height (b : Bounds) : Int := b.bottom - b.top

end Bounds

/-- An image that can be drawn. -/
structure Drawable where
  /-- the name under which the image was asked for -/
  source : Text
  /-- the edges of the image -/
  bounds : Bounds
  deriving DecidableEq, Repr

/-! ## Links -/

/-- A link. -/
structure Link where
  /-- the target, if the link names one -/
  href : Option Text
  /-- whether a listener takes the clicks -/
  listener : Bool
  deriving DecidableEq, Repr

/-- What a click asks for: a call of the listener with the widget that was clicked, or a page in the
browser. -/
inductive Click (α : Type) where
  | listener (widget : α) (href : Option Text)
  | browser (url : Text)
  deriving DecidableEq, Repr

namespace Link

variable {α : Type}

/-- What a click on a link asks for. A listener takes every click; without one only a target that is
not empty opens. -/
def click (l : Link) (widget : α) : Option (Click α) :=
  if l.listener then some (.listener widget l.href)
  else match l.href with
    | none => none
    | some [] => none
    | some url => some (.browser url)

/-- Whether two links lead to the same place; the listener takes no part. -/
def sameTarget (l m : Link) : Bool := l.href == m.href

end Link

/-! ## Tables -/

/-- The label that is drawn in the place of a table. -/
structure TableLink where
  /-- the text of the label -/
  text : Text := []
  /-- the height of the label, in pixels -/
  size : Binary64 := .ofInt 80
  /-- the color of the label, blue unless another is given -/
  color : Int := 0xFF0000FF
  /-- the markup of the table, once there is one -/
  html : Option Text := none
  deriving DecidableEq, Repr

namespace TableLink

/-- A label with the same looks and no table. -/
def fresh (t : TableLink) : TableLink := { t with html := none }

/-- The label of a table with this markup. -/
def attachedTo (t : TableLink) (html : Text) : TableLink := { t.fresh with html := some html }

/-- A line that names the label and its table. -/
def describe (t : TableLink) : Text :=
  "DrawTableLinkSpan(table_link_text=".toList ++ t.text.quoted ++ ", table_html=".toList
    ++ t.html.elim "None".toList Text.quoted ++ [')']

end TableLink

/-! ## Styles -/

/-- The faces of a font. -/
inductive Face where
  | bold
  | italic
  deriving DecidableEq, Repr

/-- The side towards which the lines of a paragraph are moved. -/
inductive Alignment where
  | normal
  | center
  | opposite
  deriving DecidableEq, Repr

/-- A style of a range of text. -/
inductive Style where
  | link (l : Link)
  | typeface (family : Text)
  | face (f : Face)
  /-- the size of the letters, in hundredths of the size around -/
  | size (percent : Nat)
  /-- the color of the letters: opacity, red, green and blue, a byte each -/
  | color (argb : Nat)
  | align (a : Alignment)
  /-- the indentation of the first line of a paragraph and of its other lines -/
  | margin (first rest : Int)
  /-- a bullet before a list item, and the gap after it -/
  | bullet (gap : Int)
  /-- a number before a list item, in a gap of this width -/
  | number (gap number : Int)
  | image (source : Option Text) (drawable : Option Drawable)
  | tableLink (t : TableLink)
  /-- what reacts to a click on a table, with the number of its instance -/
  | tableClick (serial : Nat) (html : Option Text)
  | underline
  | strike
  | quote
  | superscript
  | subscript
  deriving DecidableEq, Repr

namespace Style

/-- The gap after a bullet where nothing else is asked for. -/
def standardGap : Int := 2

/-- The radius of a bullet. -/
def bulletRadius : Int := 4

/-- The room that a bullet takes, with the gap after it. -/
def bulletMargin (gap : Int) : Int := 2 * bulletRadius + gap

/-- How far the style moves the start of a line, on the first line of a paragraph or on another. -/
def leadingMargin (firstLine : Bool) : Style → Int
  | margin first rest => if firstLine then first else rest
  | bullet gap => bulletMargin gap
  | number gap _ => gap
  | _ => 0

/-- The label of a numbered item. -/
def numberLabel (number : Int) : Text := Text.ofInt number ++ ['.', ' ']

end Style

/-- The character that stands where an image is drawn. -/
def objectReplacement : Char := '\uFFFC'

end StyledText
