import StyledText.Number.Binary64
import StyledText.Text.Blank
import StyledText.Text.DecimalDigit
import StyledText.Text.Quoted

/-!
# Numerals

Which texts are numbers, and which number each of them is. A plain numeral has an optional sign and
is then one of the words for infinity and for what is not a number, in any case, or Latin digits
around an optional point with an optional exponent. Two forms are wider:

* `Numeral.read?` — digits of any script, an underscore between two digits, blanks around it all;
* `Numeral.readLatin?` — Latin digits only, with either blanks around them or single underscores
  anywhere inside.

The four separator controls are no blanks here.
-/

namespace StyledText

namespace Numeral

/-- Whether the character may stand around a numeral. -/
def isMargin (c : Char) : Bool := Text.isBlank c && !('\x1c' ≤ c && c ≤ '\x1f')

/-- The numeral without what may stand around it. -/
def core (t : Text) : Text := Text.dropTrailing isMargin (t.dropWhile isMargin)

/-- The character with a digit of any script in its Latin form. -/
def latin (c : Char) : Char := ((Text.decimalDigit? c).map Nat.digitChar).getD c

/-- The text without its underscores, or `none` where one does not part two of the characters that
it may part. The flag says whether such a character stands before. -/
def join? (parted : Char → Bool) : Bool → Text → Option Text
  | _, [] => some []
  | after, c :: t =>
    if c = '_' then
      if after && t.head?.any parted then join? parted false t else none
    else (join? parted (parted c) t).map (c :: ·)

/-- The natural number that Latin digits write. -/
def value (digits : Text) : Nat := digits.foldl (fun n c => 10 * n + (c.toNat - 48)) 0

/-- A sign and what follows it; no sign stands for plus. -/
def signed : Text → Bool × Text
  | '-' :: t => (true, t)
  | '+' :: t => (false, t)
  | t => (false, t)

/-- The exponent of a numeral: nothing, or the letter, an optional sign and digits to the end. -/
def exponent? : Text → Option Int
  | [] => some 0
  | c :: t =>
    let (negative, digits) := signed t
    if c.toLower = 'e' ∧ digits ≠ [] ∧ digits.all Char.isDigit then
      some (if negative then -(value digits : Int) else value digits)
    else none

/-- A numeral of digits, without its sign. -/
def digits? (negative : Bool) (t : Text) : Option Binary64 :=
  let whole := t.takeWhile Char.isDigit
  let (fraction, rest) := match t.dropWhile Char.isDigit with
    | '.' :: r => (r.takeWhile Char.isDigit, r.dropWhile Char.isDigit)
    | r => ([], r)
  if whole ++ fraction = [] then none
  else (exponent? rest).map fun e =>
    Binary64.ofDecimal negative (value (whole ++ fraction)) (e - fraction.length)

/-- The number that a plain numeral writes. -/
def plain? (t : Text) : Option Binary64 :=
  let (negative, body) := signed t
  let word := body.map Char.toLower
  if word = "inf".toList ∨ word = "infinity".toList then some (.infinity negative)
  else if word = "nan".toList then some .nan
  else digits? negative body

/-- The number that a text writes in digits of any script, or `none` if it is no numeral. -/
def read? (t : Text) : Option Binary64 :=
  (join? Char.isDigit false ((core t).map latin)).bind plain?

/-- Why there is no number: the text is no numeral. -/
inductive Unreadable where
  | notNumeral (t : Text)
  deriving DecidableEq, Repr

/-- The wording of the failure. -/
def Unreadable.message : Unreadable → Text
  | notNumeral t => "could not convert string to float: ".toList ++ t.quoted

/-- The number that a text writes in digits of any script, or what to report. -/
def parse (t : Text) : Except Unreadable Binary64 :=
  match read? t with
  | some x => .ok x
  | none => .error (.notNumeral t)

/-- The number that a text writes in Latin digits, or `none` if it is no numeral. Blanks around it
are dropped only where it holds no underscore. -/
def readLatin? (t : Text) : Option Binary64 :=
  match plain? (core t) with
  | some x => some x
  | none => (join? (· != '_') false t).bind plain?

example : read? " 1_0.5e1 ".toList = some (Binary64.ofInt 105) := by decide +kernel

example : read? "-Infinity".toList = some (.infinity true) := by decide +kernel

example : read? "1__0".toList = none ∧ read? ".".toList = none ∧ read? "0x1".toList = none := by
  decide +kernel

example : readLatin? "+_1_.0".toList = some (Binary64.ofInt 1) ∧
    readLatin? " 10".toList = some (Binary64.ofInt 10) ∧ readLatin? " 1_0".toList = none ∧
    readLatin? "1__0".toList = none ∧ readLatin? "_1".toList = none := by
  decide +kernel

/-- Digits of another script are read in one form only. -/
example : read? "٣".toList = some (Binary64.ofInt 3) ∧ readLatin? "٣".toList = none := by
  decide +kernel

end Numeral

end StyledText
