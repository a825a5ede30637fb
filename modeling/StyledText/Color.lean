import StyledText.Text.Blank
import StyledText.Text.Lowercase

/-!
# Colors

A color is written by one of the basic names or by three or six hexadecimal digits after a number
sign, in any case and with blanks around it. Three digits stand for six, each of them twice. The
value holds opacity, red, green and blue, a byte each; a written color is opaque.
-/

namespace StyledText

namespace Color

/-- The basic names and their red, green and blue. -/
def names : List (Text × Nat) := [
  ("aqua".toList, 0x00FFFF), ("black".toList, 0x000000), ("blue".toList, 0x0000FF),
  ("fuchsia".toList, 0xFF00FF), ("green".toList, 0x008000), ("grey".toList, 0x808080),
  ("gray".toList, 0x808080), ("lime".toList, 0x00FF00), ("maroon".toList, 0x800000),
  ("navy".toList, 0x000080), ("olive".toList, 0x808000), ("purple".toList, 0x800080),
  ("red".toList, 0xFF0000), ("silver".toList, 0xC0C0C0), ("teal".toList, 0x008080),
  ("white".toList, 0xFFFFFF), ("yellow".toList, 0xFFFF00)]

/-- The value of a hexadecimal digit. -/
def hexDigit? (c : Char) : Option Nat :=
  if '0' ≤ c ∧ c ≤ '9' then some (c.toNat - 48)
  else if 'a' ≤ c ∧ c ≤ 'f' then some (c.toNat - 87)
  else if 'A' ≤ c ∧ c ≤ 'F' then some (c.toNat - 55)
  else none

/-- The red, green and blue that hexadecimal digits write. -/
def ofDigits? (t : Text) : Option Nat := do
  let digits ← t.mapM hexDigit?
  let digits ← match digits with
    | [r, g, b] => some [r, r, g, g, b, b]
    | [_, _, _, _, _, _] => some digits
    | _ => none
  return digits.foldl (16 * · + ·) 0

/-- The opaque color with this red, green and blue. -/
def withFullOpacity (rgb : Nat) : Nat := 0xFF000000 + rgb

/-- The color that a text writes, or `none` if it writes none. -/
def read? (t : Text) : Option Nat :=
  let t := (Text.strip t).lower
  let rgb := (names.lookup t).orElse fun _ =>
    match t with
    | '#' :: digits => ofDigits? digits
    | _ => none
  rgb.map withFullOpacity

example : read? " Red\n".toList = some 0xFFFF0000 ∧ read? "#0f8".toList = some 0xFF00FF88 ∧
    read? "#00ff8".toList = none := by decide +kernel

end Color

end StyledText
