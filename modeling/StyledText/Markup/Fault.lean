import StyledText.Text.Position
import StyledText.Text.Quoted

/-!
# Markup that cannot be read

Reading markup hardly ever fails: what is not well formed is shown as text. Three causes remain, and
a `Markup.Fault` is one of them with the place where it was met.
-/

namespace StyledText

namespace Markup

/-- Why markup cannot be read. -/
inductive Cause where
  /-- a marked section opens without a keyword; what the section begins with -/
  | noKeyword (opening : Text)
  /-- a marked section opens with a word that is no keyword of one -/
  | unknownKeyword (word : Text)
  /-- a decimal character reference is written with more digits than a numeral may have -/
  | longNumeral (digits : Nat)
  deriving DecidableEq, Repr

/-- The number of digits that a numeral may have. -/
def numeralLimit : Nat := 4300

/-- The wording of a cause. -/
def Cause.message : Cause → Text
  | .noKeyword opening => "expected name token at ".toList ++ opening.quoted
  | .unknownKeyword word =>
    "unknown status keyword ".toList ++ word.quoted ++ " in marked section".toList
  | .longNumeral digits =>
    "Exceeds the limit (4300 digits) for integer string conversion: value has ".toList
      ++ Text.ofNat digits
      ++ " digits; use sys.set_int_max_str_digits() to increase the limit".toList

/-- A cause and the place where it was met. -/
structure Fault where
  cause : Cause
  /-- where the piece of markup begins; for a missing keyword, where the keyword should stand -/
  position : Position
  deriving DecidableEq, Repr

end Markup

end StyledText
