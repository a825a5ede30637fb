import StyledText.Markup.Fault
import StyledText.Text.Blank
import StyledText.Text.Lowercase
import StyledText.Text.Search

/-!
# Marked sections

A declaration that opens with a square bracket is a marked section. A keyword says how the section
closes: with two square brackets or with one before the closing angle bracket, blanks between them
allowed. Whatever the section holds is not shown.
-/

namespace StyledText

namespace Markup

namespace MarkedSection

/-- The keywords of sections that close with two square brackets. -/
def doubleKeywords : List Text :=
  ["temp".toList, "cdata".toList, "ignore".toList, "include".toList, "rcdata".toList]

/-- The keywords of sections that close with one square bracket. -/
def singleKeywords : List Text := ["if".toList, "else".toList, "endif".toList]

/-- Whether the character may occur in a keyword after its first letter. -/
def isKeywordChar (c : Char) : Bool := c.isAlphanum || c ∈ ['-', '_', '.']

/-- What follows a bracket and blanks. -/
def afterBracket? : Text → Option Text
  | ']' :: t => some (t.dropWhile Text.isBlank)
  | _ => none

/-- What follows a closing angle bracket. -/
def afterAngle? : Text → Option Text
  | '>' :: t => some t
  | _ => none

/-- What follows the close of a section with one square bracket. -/
def singleClose? (t : Text) : Option Text := (afterBracket? t).bind afterAngle?

/-- What follows the close of a section with two square brackets. -/
def doubleClose? (t : Text) : Option Text := (afterBracket? t).bind singleClose?

/-- What a marked section is. -/
inductive Outcome where
  | closed (rest : Text)
  | unfinished
  | fault (c : Cause)
  deriving DecidableEq, Repr

/-- Reads the marked section whose square bracket stands before the text. -/
def read (t : Text) : Outcome :=
  match t with
  | [] => .unfinished
  | c :: r =>
    if c.isAlpha then
      let word := c :: r.takeWhile isKeywordChar
      let afterWord := r.dropWhile isKeywordChar
      let blanks := afterWord.takeWhile Text.isBlank
      let keyword := Text.lower word
      let closing (close? : Text → Option Text) : Outcome :=
        match Text.afterFirst? close? t with
        | some rest => .closed rest
        | none => .unfinished
      if afterWord.all Text.isBlank then .unfinished
      else if keyword ∈ doubleKeywords then closing doubleClose?
      else if keyword ∈ singleKeywords then closing singleClose?
      else .fault (.unknownKeyword (word ++ blanks))
    else .fault (.noKeyword (('<' :: '!' :: '[' :: t).take 20))

end MarkedSection

end Markup

end StyledText
