import StyledText.Text.Basic
import StyledText.Text.Printable

/-!
# Quoted text

How messages show a text: between single quotes, or between double quotes where it holds a single
quote and no double one. Inside, the quote in use and the backslash stand behind a backslash, three
controls have a letter of their own, and any other character without a printed form is written by
its code point in two, four or eight hexadecimal digits, after `x`, `u` or `U`.
-/

namespace StyledText

namespace Text

/-- The quote that encloses a text. -/
def quoteMark (t : Text) : Char :=
  if '\'' ∈ t ∧ '"' ∉ t then '"' else '\''

/-- The lower case hexadecimal digit of a number below sixteen. -/
def hexDigit (d : Nat) : Char := if d < 10 then Char.ofNat (48 + d) else Char.ofNat (87 + d)

/-- The last `width` hexadecimal digits of a number, the most significant first. -/
def hexDigits : Nat → Nat → Text
  | 0, _ => []
  | width + 1, n => hexDigits width (n / 16) ++ [hexDigit (n % 16)]

/-- A character written by its code point. -/
def byCodePoint (c : Char) : Text :=
  if c.toNat < 0x100 then '\\' :: 'x' :: hexDigits 2 c.toNat
  else if c.toNat < 0x10000 then '\\' :: 'u' :: hexDigits 4 c.toNat
  else '\\' :: 'U' :: hexDigits 8 c.toNat

/-- A character as it stands between two `mark`s. -/
def quotedChar (mark c : Char) : Text :=
  if c = mark ∨ c = '\\' then ['\\', c]
  else if c = '\n' then ['\\', 'n']
  else if c = '\r' then ['\\', 'r']
  else if c = '\t' then ['\\', 't']
  else if isPrintable c then [c]
  else byCodePoint c

/-- The text between quotes. -/
def quoted (t : Text) : Text :=
  quoteMark t :: t.flatMap (quotedChar (quoteMark t)) ++ [quoteMark t]

/-- A text with both quotes, a newline and a control. -/
example : quoted "it's \"a\"\n\x07".toList = "'it\\'s \"a\"\\n\\x07'".toList := by decide

/-- Double quotes spare the escape. -/
example : quoted "it's".toList = "\"it's\"".toList := by decide

end Text

end StyledText
