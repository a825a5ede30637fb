/-!
# Binary floating point numbers

The numbers of 64 bits with 53 bits of precision, held by their value: a sign, a natural mantissa
and a power of two. Every operation computes the exact quotient and rounds it once, to nearest with
ties to even, so two numbers are equal exactly when they are the same value with the same sign.

* `Binary64.ofQuotient` — rounding;
* `Binary64.ofDecimal`, `Binary64.ofInt` — numbers written in decimal;
* `Binary64.nearest`, `Binary64.toInt?` — from integers and back, where there is a way;
* `Binary64.roundHalfUp` — to the nearest integer, halves upward.
-/

namespace StyledText

/-- A binary floating point number. A finite one is `± mantissa * 2 ^ exponent`, where the mantissa
is below `2 ^ 53`, and at least `2 ^ 52` unless the exponent is the least, `-1074`. -/
inductive Binary64 where
  | nan
  | infinity (negative : Bool)
  | finite (negative : Bool) (mantissa : Nat) (exponent : Int)
  deriving DecidableEq, Repr

/-- A rounded quotient of naturals: to nearest, a tie to the even neighbour. -/
def roundDiv (num den : Nat) : Nat :=
  let q := num / den
  match compare (2 * (num % den)) den with
  | .lt => q
  | .gt => q + 1
  | .eq => if q % 2 = 0 then q else q + 1

namespace Binary64

/-- The quotient of naturals that is `num / den` in units of `2 ^ exponent`. -/
def inUnits (num den : Nat) (exponent : Int) : Nat × Nat :=
  (num * Nat.pow 2 (-exponent).toNat, den * Nat.pow 2 exponent.toNat)

/-- The exponent for which `num / den` has 53 binary digits before the point, or the least one. -/
def unitFor (num den : Nat) : Int :=
  let estimate : Int := num.log2 - den.log2 - 52
  let (n, d) := inUnits num den estimate
  max (-1074) (if n < Nat.pow 2 52 * d then estimate - 1 else estimate)

/-- The finite number with this mantissa, or an infinity beyond the largest exponent. -/
def bounded (negative : Bool) (mantissa : Nat) (exponent : Int) : Binary64 :=
  if 971 < exponent then infinity negative else finite negative mantissa exponent

/-- The number nearest to `± num / den`, where `den` is positive. -/
def ofQuotient (negative : Bool) (num den : Nat) : Binary64 :=
  if num = 0 then finite negative 0 (-1074)
  else
    let exponent := unitFor num den
    let (n, d) := inUnits num den exponent
    let mantissa := roundDiv n d
    if mantissa = Nat.pow 2 53 then bounded negative (Nat.pow 2 52) (exponent + 1)
    else bounded negative mantissa exponent

/-- The number nearest to `± digits * 10 ^ exponent`. Exponents so large or so small that the digits
do not matter are not expanded: a natural has fewer than `log2 / 3 + 1` decimal digits and at least
`log2 / 4`. -/
def ofDecimal (negative : Bool) (digits : Nat) (exponent : Int) : Binary64 :=
  if digits = 0 then finite negative 0 (-1074)
  else if 400 < (digits.log2 / 4 : Nat) + exponent then infinity negative
  else if (digits.log2 / 3 + 1 : Nat) + exponent < -400 then finite negative 0 (-1074)
  else ofQuotient negative (digits * Nat.pow 10 exponent.toNat) (Nat.pow 10 (-exponent).toNat)

/-- The number nearest to an integer. -/
def ofInt (n : Int) : Binary64 := ofQuotient (n < 0) n.natAbs 1

/-- The exact value of a finite number, as a quotient. -/
def quotient (negative : Bool) (mantissa : Nat) (exponent : Int) : Int × Nat :=
  let (n, d) := inUnits mantissa 1 (-exponent)
  (if negative then -(n : Int) else n, d)

/-- Whether the number is below zero. No comparison holds of what is not a number, and the negative
zero is not below zero. -/
def isNegative : Binary64 → Bool
  | nan => false
  | infinity negative => negative
  | finite negative mantissa _ => negative && mantissa != 0

/-- Whether the number is zero or above. -/
def isNonNegative : Binary64 → Bool
  | nan => false
  | x => !x.isNegative

/-- Whether the number is a finite one. -/
def isFinite : Binary64 → Bool
  | finite .. => true
  | _ => false

/-- The integer that the number is, if it is one. -/
def toInt? : Binary64 → Option Int
  | finite negative mantissa exponent =>
    let (num, den) := quotient negative mantissa exponent
    if num % den = 0 then some (num / den) else none
  | _ => none

/-- Why there is no finite number near an integer. -/
inductive OutOfRange where
  | tooLarge
  deriving DecidableEq, Repr

/-- The wording of the failure. -/
def OutOfRange.message : OutOfRange → String
  | tooLarge => "int too large to convert to float"

/-- The finite number nearest to an integer. -/
def nearest (n : Int) : Except OutOfRange Binary64 :=
  let x := ofInt n
  if x.isFinite then .ok x else .error .tooLarge

/-- Why a number has no nearest integer. -/
inductive Unroundable where
  | nan
  | infinite
  deriving DecidableEq, Repr

/-- The wording of the failure. -/
def Unroundable.message : Unroundable → String
  | nan => "cannot convert float NaN to integer"
  | infinite => "cannot convert float infinity to integer"

/-- The largest integer that is at most the number. -/
def floor : Binary64 → Except Unroundable Int
  | nan => .error .nan
  | infinity _ => .error .infinite
  | finite negative mantissa exponent =>
    let (num, den) := quotient negative mantissa exponent
    .ok (num.fdiv den)

/-- The number nearest to `x + 1/2`. -/
def plusHalf : Binary64 → Binary64
  | finite negative mantissa exponent =>
    let (num, den) := quotient negative mantissa exponent
    let twice := 2 * num + den
    ofQuotient (twice < 0) twice.natAbs (2 * den)
  | x => x

/-- The nearest integer, halves upward: the sum with one half is rounded to a number before its
fraction is dropped, so the number just below one half goes to one. -/
def roundHalfUp (x : Binary64) : Except Unroundable Int := x.plusHalf.floor

/-- Finite numbers round. -/
theorem exists_floor_of_isFinite {x : Binary64} (h : x.isFinite = true) : ∃ n, x.floor = .ok n := by
  cases x with
  | finite s m e => exact ⟨_, rfl⟩
  | nan => simp [isFinite] at h
  | infinity s => simp [isFinite] at h

/-- A half goes up, on either side of zero; the tie of the sum goes to even. -/
example : (ofDecimal false 25 (-1)).roundHalfUp = .ok 3 ∧
    (ofDecimal true 25 (-1)).roundHalfUp = .ok (-2) ∧
    (ofDecimal false 49999999999999994 (-17)).roundHalfUp = .ok 1 := by
  refine ⟨rfl, rfl, rfl⟩

/-- Both zeros are the integer zero. -/
example : (ofInt 7).toInt? = some 7 ∧ (ofDecimal true 0 0).toInt? = some 0 ∧
    (ofDecimal false 35 (-1)).toInt? = none := by
  decide +kernel

end Binary64

end StyledText
