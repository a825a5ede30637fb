import StyledText.Number.Binary64
import StyledText.Text.Basic

/-!
# The text of a number

A number is written with the fewest decimal digits that read back to it and, of those, with the
ones nearest to it. Digits stand around a point where the first of them is worth at least
`10 ^ -4` and less than `10 ^ 16`, and always with one digit at least on each side of it; otherwise
an exponent with a sign and two digits at least follows one leading digit.
-/

namespace StyledText

/-- A non-negative decimal number, `digits * 10 ^ exponent`. -/
structure Decimal where
  /-- the digits, read as a natural number -/
  digits : Nat
  /-- the power of ten -/
  exponent : Int
  deriving DecidableEq, Repr

namespace Decimal

/-- The same number without trailing zeros among its digits. -/
def trim (d : Decimal) : Decimal :=
  if 0 < d.digits ∧ d.digits % 10 = 0 then trim ⟨d.digits / 10, d.exponent + 1⟩ else d
termination_by d.digits

/-- Digits around a point or before an exponent, whichever the size of the number asks for. -/
def toText (d : Decimal) : Text :=
  let ds := Text.ofNat d.digits
  let point : Int := ds.length + d.exponent
  if point ≤ -4 ∨ 16 < point then
    let fraction := match ds.tail with
      | [] => []
      | rest => '.' :: rest
    let magnitude := Text.ofNat (point - 1).natAbs
    ds.take 1 ++ fraction ++ 'e' :: (if point ≤ 0 then '-' else '+')
      :: List.replicate (2 - magnitude.length) '0' ++ magnitude
  else if point ≤ 0 then
    '0' :: '.' :: List.replicate (-point).toNat '0' ++ ds
  else if ds.length ≤ point then
    ds ++ List.replicate d.exponent.toNat '0' ++ ['.', '0']
  else
    ds.take point.toNat ++ '.' :: ds.drop point.toNat

end Decimal

namespace Binary64

/-- The number of decimal digits of a natural number. -/
def digitCount (n : Nat) : Nat := (Nat.toDigits 10 n).length

/-- The least power of ten above the positive quotient `num / den`. -/
def scale (num den : Nat) : Int :=
  if den ≤ num then digitCount (num / den) else 1 - digitCount ((den - 1) / num)

/-- Of the two multiples of `10 ^ exponent` around the positive number, the one that reads back to
it, and the nearer where both do. -/
def onGrid? (mantissa : Nat) (unit exponent : Int) : Option Decimal :=
  let (num, den) := inUnits mantissa 1 (-unit)
  let (n, d) := (num * Nat.pow 10 (-exponent).toNat, den * Nat.pow 10 exponent.toNat)
  let below := n / d
  let readsBack (digits : Nat) : Bool :=
    ofDecimal false digits exponent == finite false mantissa unit
  match readsBack below, readsBack (below + 1) with
  | true, true => some ⟨roundDiv n d, exponent⟩
  | true, false => some ⟨below, exponent⟩
  | false, true => some ⟨below + 1, exponent⟩
  | false, false => none

/-- The shortest decimal that reads back to the positive number; the grids are tried from one digit
to seventeen, and the exact value would stand in if none had a hit. -/
def shortest (mantissa : Nat) (unit : Int) : Decimal :=
  let (num, den) := inUnits mantissa 1 (-unit)
  let found := (List.range 17).findSome? fun (k : Nat) =>
    onGrid? mantissa unit (scale num den - 1 - k)
  (found.getD ⟨mantissa * Nat.pow 2 unit.toNat * Nat.pow 5 (-unit).toNat, min unit 0⟩).trim

/-- The text of a number. -/
def toText : Binary64 → Text
  | nan => "nan".toList
  | infinity negative => (if negative then "-inf" else "inf").toList
  | finite negative mantissa exponent =>
    let magnitude :=
      if mantissa = 0 then "0.0".toList else (shortest mantissa exponent).toText
    if negative then '-' :: magnitude else magnitude

example : (ofDecimal false 1 (-1)).toText = "0.1".toList := by decide +kernel

example : (ofDecimal true 15 (-6)).toText = "-1.5e-05".toList := by decide +kernel

example : (ofInt 10000000000000000).toText = "1e+16".toList := by decide +kernel

end Binary64

end StyledText
