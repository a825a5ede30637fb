import Mathlib.Algebra.Order.Field.Power
import Mathlib.Algebra.Order.Field.Rat
import Mathlib.Tactic.FieldSimp
import Mathlib.Tactic.Linarith
import Mathlib.Tactic.Positivity
import Mathlib.Tactic.Ring
import StyledText.Number.Numeral

/-!
# Rounding and its range

A rounded quotient has at most 53 binary digits, so every number that rounding makes is canonical:
its mantissa is below `2 ^ 53`, and at least `2 ^ 52` unless its exponent is the least. What is more
than half a unit below `2 ^ 1024` rounds to a finite number.

One half is less than half a unit at the largest exponent. So the sum of a finite number and one
half is finite, and the numbers that have a nearest integer are the finite ones.
-/

namespace StyledText

/-! ## Rounded quotients -/

/-- What lies less than half above a natural number is not rounded to more than that number. -/
theorem roundDiv_le {num den k : Nat} (h : 2 * num < (2 * k + 1) * den) : roundDiv num den ≤ k := by
  have hden : 0 < den := Nat.pos_of_ne_zero (by rintro rfl; omega)
  have hdiv := Nat.div_add_mod num den
  have hq : num / den ≤ k := by
    refine Nat.le_of_lt_succ ((Nat.div_lt_iff_lt_mul hden).mpr ?_)
    nlinarith
  obtain hq | hq := hq.lt_or_eq
  · unfold roundDiv
    grind
  · have hlow : 2 * (num % den) < den := by
      rw [hq] at hdiv
      nlinarith
    simp [roundDiv, Nat.compare_eq_lt.mpr hlow, hq]

/-- What is no less than a natural number is not rounded to less than that number. -/
theorem le_roundDiv {num den k : Nat} (hden : 0 < den) (h : k * den ≤ num) :
    k ≤ roundDiv num den := by
  have hq : k ≤ num / den := (Nat.le_div_iff_mul_le hden).mpr h
  unfold roundDiv
  simp only
  split
  · exact hq
  · omega
  · split <;> omega

namespace Binary64

variable {num den : Nat}

/-! ## Units -/

/-- The two naturals have the quotient of the given ones, divided by the unit; whether the unit is
above or below one only decides which of them takes the power. -/
theorem inUnits_ratio (num den : Nat) (e : Int) :
    ((inUnits num den e).1 : ℚ) / (inUnits num den e).2 = num / den / 2 ^ e := by
  have hsplit : (2 : ℚ) ^ e = 2 ^ e.toNat / 2 ^ (-e).toNat := by
    rw [← zpow_natCast, ← zpow_natCast, ← zpow_sub₀ (by norm_num), Int.toNat_sub_toNat_neg]
  simp only [inUnits, Nat.pow_eq, Nat.cast_mul, Nat.cast_pow, Nat.cast_ofNat, hsplit]
  field_simp

theorem inUnits_snd_pos (num : Nat) (hden : den ≠ 0) (e : Int) : 0 < (inUnits num den e).2 :=
  Nat.mul_pos (Nat.pos_of_ne_zero hden) (Nat.pow_pos (by decide))

/-- Comparisons of the two naturals are comparisons of the quotient with the unit, so everything
about digits can be shown of rationals. -/
theorem inUnits_lt_iff (num : Nat) (hden : den ≠ 0) (e : Int) (a b : Nat) :
    a * (inUnits num den e).1 < b * (inUnits num den e).2 ↔
      (a : ℚ) * (num / den) < b * 2 ^ e := by
  have hpos : (0 : ℚ) < (inUnits num den e).2 := by exact_mod_cast inUnits_snd_pos num hden e
  have hunit : (0 : ℚ) < 2 ^ e := by positivity
  have hratio := inUnits_ratio num den e
  rw [eq_div_iff hunit.ne'] at hratio
  rw [← Nat.cast_lt (α := ℚ), ← hratio, Nat.cast_mul, Nat.cast_mul]
  generalize ((inUnits num den e).1 : ℚ) = n at *
  generalize ((inUnits num den e).2 : ℚ) = d at *
  have hassoc : a * (n / d * 2 ^ e) = a * n / d * 2 ^ e := by ring
  rw [hassoc, mul_lt_mul_iff_left₀ hunit, div_lt_iff₀ hpos]

/-- In particular, how many binary digits there are before the point is told by the powers of two
that the quotient lies below. -/
theorem inUnits_lt_two_pow_iff (num : Nat) (hden : den ≠ 0) (e : Int) (k : Nat) :
    (inUnits num den e).1 < 2 ^ k * (inUnits num den e).2 ↔ (num : ℚ) / den < 2 ^ (k + e) := by
  have h := inUnits_lt_iff num hden e 1 (2 ^ k)
  rwa [one_mul, Nat.cast_one, one_mul, Nat.cast_pow, Nat.cast_ofNat, ← zpow_natCast,
    ← zpow_add₀ (by norm_num)] at h

/-- A quotient lies between the powers of two that its logarithms say, which leave two possible
places for the first digit. -/
theorem quotient_bounds (hnum : num ≠ 0) (hden : den ≠ 0) :
    (2 : ℚ) ^ ((num.log2 : Int) - den.log2 - 1) ≤ num / den ∧
      (num : ℚ) / den < 2 ^ ((num.log2 : Int) - den.log2 + 1) := by
  have hn : ((2 ^ num.log2 : Nat) : ℚ) ≤ num := by exact_mod_cast Nat.log2_self_le hnum
  have hn' : (num : ℚ) < (2 ^ (num.log2 + 1) : Nat) := by exact_mod_cast Nat.lt_log2_self
  have hd : ((2 ^ den.log2 : Nat) : ℚ) ≤ den := by exact_mod_cast Nat.log2_self_le hden
  have hd' : (den : ℚ) < (2 ^ (den.log2 + 1) : Nat) := by exact_mod_cast Nat.lt_log2_self
  have hpos : (0 : ℚ) < den := by exact_mod_cast Nat.pos_of_ne_zero hden
  push_cast at hn hn' hd hd'
  have htwo : (2 : ℚ) ≠ 0 := by norm_num
  constructor
  · rw [sub_sub, zpow_sub₀ htwo, zpow_natCast, ← Nat.cast_one, ← Nat.cast_add, zpow_natCast]
    exact div_le_div₀ (by positivity) hn hpos hd'.le
  · rw [sub_add_eq_add_sub, zpow_sub₀ htwo, zpow_natCast, ← Nat.cast_one, ← Nat.cast_add,
      zpow_natCast]
    exact div_lt_div₀ hn' hd (by positivity) (by positivity)

/-- The unit leaves at most 53 binary digits before the point, and 53 unless it is the least. -/
theorem unitFor_spec (hnum : num ≠ 0) (hden : den ≠ 0) :
    -1074 ≤ unitFor num den ∧ (num : ℚ) / den < 2 ^ (53 + unitFor num den) ∧
      (unitFor num den = -1074 ∨ (2 : ℚ) ^ (52 + unitFor num den) ≤ num / den) := by
  obtain ⟨hlow, hhigh⟩ := quotient_bounds hnum hden
  set estimate : Int := num.log2 - den.log2 - 52 with hestimate
  -- before the least exponent is enforced
  obtain ⟨e, he, hbelow, habove⟩ : ∃ e : Int, unitFor num den = max (-1074) e ∧
      (num : ℚ) / den < 2 ^ (53 + e) ∧ (2 : ℚ) ^ (52 + e) ≤ num / den := by
    have hsmall := inUnits_lt_two_pow_iff num hden estimate 52
    by_cases h : (inUnits num den estimate).1 < 2 ^ 52 * (inUnits num den estimate).2
    · refine ⟨estimate - 1, ?_, ?_, ?_⟩
      · simp only [unitFor, ← hestimate, Nat.pow_eq, if_pos h]
      · convert hsmall.mp h using 2
        omega
      · convert hlow using 2
        omega
    · refine ⟨estimate, ?_, ?_, not_lt.mp (mt hsmall.mpr h)⟩
      · simp only [unitFor, ← hestimate, Nat.pow_eq, if_neg h]
      · convert hhigh using 2
        omega
  have hmono : (2 : ℚ) ^ (53 + e) ≤ 2 ^ (53 + max (-1074) e) :=
    zpow_le_zpow_right₀ (by norm_num) (by omega)
  rw [he]
  refine ⟨le_max_left _ _, hbelow.trans_le hmono, ?_⟩
  obtain hle | hle := le_total e (-1074)
  · exact .inl (max_eq_left hle)
  · exact .inr (by rwa [max_eq_right hle])

/-! ## Canonical numbers -/

/-- Whether a number has the mantissa and the exponent of the one way in which it is written. -/
def IsCanonical : Binary64 → Prop
  | finite _ mantissa exponent =>
    mantissa < 2 ^ 53 ∧ -1074 ≤ exponent ∧ exponent ≤ 971 ∧ (2 ^ 52 ≤ mantissa ∨ exponent = -1074)
  | _ => True

theorem isCanonical_zero (negative : Bool) : (finite negative 0 (-1074)).IsCanonical := by
  simp [IsCanonical]

/-- A mantissa with all its digits, or with the least exponent, makes a canonical number; where the
exponent is too large the number is infinite. -/
theorem isCanonical_bounded (negative : Bool) {m : Nat} {e : Int} (hm : m < 2 ^ 53)
    (he : -1074 ≤ e) (hfull : 2 ^ 52 ≤ m ∨ e = -1074) : (bounded negative m e).IsCanonical := by
  unfold bounded
  split
  · trivial
  · exact ⟨hm, he, by omega, hfull⟩

/-- The rounded quotient has the digits of a canonical mantissa, or is the next power of two. -/
theorem roundDiv_inUnits (hnum : num ≠ 0) (hden : den ≠ 0) :
    let units := inUnits num den (unitFor num den)
    roundDiv units.1 units.2 ≤ 2 ^ 53 ∧
      (2 ^ 52 ≤ roundDiv units.1 units.2 ∨ unitFor num den = -1074) := by
  intro units
  obtain ⟨-, hbelow, habove⟩ := unitFor_spec hnum hden
  have hpos : 0 < units.2 := inUnits_snd_pos num hden _
  constructor
  · have hlt : units.1 < 2 ^ 53 * units.2 := (inUnits_lt_two_pow_iff num hden _ 53).mpr hbelow
    exact roundDiv_le (by nlinarith)
  · refine habove.symm.imp_left fun habove => le_roundDiv hpos (not_lt.mp fun hlt => ?_)
    exact habove.not_gt ((inUnits_lt_two_pow_iff num hden _ 52).mp hlt)

/-- Rounding makes canonical numbers, also where it carries into one more digit. -/
theorem isCanonical_ofQuotient (negative : Bool) (hden : den ≠ 0) :
    (ofQuotient negative num den).IsCanonical := by
  by_cases hnum : num = 0
  · simp only [ofQuotient, if_pos hnum, isCanonical_zero]
  obtain ⟨hle, hfull⟩ := roundDiv_inUnits hnum hden
  have hleast := (unitFor_spec hnum hden).1
  unfold ofQuotient
  simp only [if_neg hnum]
  split
  · exact isCanonical_bounded negative (by norm_num) (by omega) (.inl le_rfl)
  case isFalse hne => exact isCanonical_bounded negative (lt_of_le_of_ne hle hne) hleast hfull

/-- So does a decimal numeral, which is a quotient of natural numbers. -/
theorem isCanonical_ofDecimal (negative : Bool) (digits : Nat) (exponent : Int) :
    (ofDecimal negative digits exponent).IsCanonical := by
  unfold ofDecimal
  split_ifs
  · exact isCanonical_zero negative
  · trivial
  · exact isCanonical_zero negative
  · exact isCanonical_ofQuotient negative (Nat.pow_pos (by decide)).ne'

/-! ## The range of finite numbers -/

/-- What is more than half a unit below the first power of two out of range rounds to a finite
number. -/
theorem isFinite_ofQuotient (negative : Bool) (hden : den ≠ 0)
    (h : (num : ℚ) / den < (2 ^ 53 - 1 / 2) * 2 ^ (971 : Int)) :
    (ofQuotient negative num den).isFinite = true := by
  by_cases hnum : num = 0
  · simp only [ofQuotient, if_pos hnum, isFinite]
  obtain ⟨-, -, hfull⟩ := unitFor_spec hnum hden
  set units := inUnits num den (unitFor num den) with hunits
  have hle : unitFor num den ≤ 971 := by
    obtain heq | hfull := hfull
    · omega
    · by_contra hgt
      have hunit : (0 : ℚ) < 2 ^ (971 : Int) := by positivity
      refine hfull.not_gt ?_
      calc (num : ℚ) / den
          < (2 ^ 53 - 1 / 2) * 2 ^ (971 : Int) := h
        _ < 2 ^ (53 : Int) * 2 ^ (971 : Int) := mul_lt_mul_of_pos_right (by norm_num) hunit
        _ = 2 ^ (53 + 971 : Int) := (zpow_add₀ (by norm_num) _ _).symm
        _ ≤ 2 ^ (52 + unitFor num den) := zpow_le_zpow_right₀ (by norm_num) (by omega)
  have hbounded : ∀ (m : Nat) {e : Int}, e ≤ 971 → (bounded negative m e).isFinite = true := by
    intro m e he
    simp [bounded, isFinite, not_lt.mpr he]
  unfold ofQuotient
  simp only [if_neg hnum, ← hunits]
  split
  case isFalse => exact hbounded _ hle
  case isTrue hmax =>
    -- at the largest exponent the mantissa is not rounded up to the next power of two
    refine hbounded _ (Int.add_one_le_of_lt (lt_of_le_of_ne hle fun htop => ?_))
    have hlt : 2 * units.1 < (2 * (2 ^ 53 - 1) + 1) * units.2 := by
      refine (inUnits_lt_iff num hden _ _ _).mpr ?_
      rw [htop]
      generalize (2 : ℚ) ^ (971 : Int) = unit at h ⊢
      push_cast
      linarith
    have hround := roundDiv_le hlt
    rw [hmax] at hround
    norm_num at hround

/-- The naturals of a quotient have the value of the number, whatever the sign of its exponent. -/
theorem quotient_ratio (negative : Bool) (m : Nat) (e : Int) :
    ((quotient negative m e).1.natAbs : ℚ) / (quotient negative m e).2 = m * 2 ^ e := by
  have h := inUnits_ratio m 1 (-e)
  rw [zpow_neg, Nat.cast_one, div_one, div_inv_eq_mul] at h
  rw [← h]
  cases negative <;> simp [quotient]

/-- One half more than a finite number is a finite number, since one half is less than half a unit
at the largest exponent. -/
theorem isFinite_plusHalf {x : Binary64} (hx : x.IsCanonical) (h : x.isFinite = true) :
    x.plusHalf.isFinite = true := by
  cases x with
  | nan => simp [isFinite] at h
  | infinity negative => simp [isFinite] at h
  | finite negative m e =>
    obtain ⟨hm, -, he, -⟩ := hx
    have hvalue := quotient_ratio negative m e
    have hpos : 0 < (quotient negative m e).2 := inUnits_snd_pos m one_ne_zero (-e)
    simp only [plusHalf]
    -- only the value of the quotient matters, not how it is written
    generalize (quotient negative m e).1 = n at *
    generalize (quotient negative m e).2 = d at *
    refine isFinite_ofQuotient _ (by omega) ?_
    have hd : (0 : ℚ) < d := by exact_mod_cast hpos
    have habs : ((2 * n + d).natAbs : ℚ) ≤ 2 * n.natAbs + d := by
      exact_mod_cast show (2 * n + d).natAbs ≤ 2 * n.natAbs + d by omega
    have hm' : (m : ℚ) ≤ 2 ^ 53 - 1 := by
      have : (m : ℚ) + 1 ≤ 2 ^ 53 := by exact_mod_cast hm
      linarith
    have hunit : (1 : ℚ) < 2 ^ (971 : Int) := one_lt_zpow₀ (by norm_num) (by norm_num)
    calc ((2 * n + d).natAbs : ℚ) / (2 * d : Nat)
        ≤ (2 * n.natAbs + d) / (2 * d) := by
          rw [Nat.cast_mul, Nat.cast_ofNat]
          exact div_le_div_of_nonneg_right habs (by positivity)
      _ = n.natAbs / d + 1 / 2 := by field_simp
      _ = m * 2 ^ e + 1 / 2 := by rw [hvalue]
      _ ≤ (2 ^ 53 - 1) * 2 ^ (971 : Int) + 1 / 2 := by
          have hpow : (2 : ℚ) ^ e ≤ 2 ^ (971 : Int) := zpow_le_zpow_right₀ (by norm_num) he
          exact add_le_add_left (mul_le_mul hm' hpow (by positivity) (by norm_num)) _
      _ < (2 ^ 53 - 1 / 2) * 2 ^ (971 : Int) := by
          generalize (2 : ℚ) ^ (971 : Int) = unit at hunit ⊢
          linarith

/-- The numbers with a nearest integer are the finite ones. Infinities and what is not a number
cannot be rounded, and the sum with one half does not leave the range. -/
theorem exists_roundHalfUp_iff {x : Binary64} (hx : x.IsCanonical) :
    (∃ n, x.roundHalfUp = .ok n) ↔ x.isFinite = true := by
  constructor
  · rintro ⟨n, hn⟩
    cases x with
    | finite => rfl
    | nan => cases hn
    | infinity => cases hn
  · exact fun h => exists_floor_of_isFinite (isFinite_plusHalf hx h)

end Binary64

/-! ## Numerals -/

namespace Numeral

open Binary64

theorem isCanonical_digits? {negative : Bool} {t : Text} {x : Binary64}
    (h : digits? negative t = some x) : x.IsCanonical := by
  unfold digits? at h
  simp only at h
  split at h
  all_goals
    split_ifs at h
    obtain ⟨e, -, rfl⟩ := Option.map_eq_some_iff.mp h
    exact isCanonical_ofDecimal negative _ _

theorem isCanonical_plain? {t : Text} {x : Binary64} (h : plain? t = some x) : x.IsCanonical := by
  unfold plain? at h
  simp only at h
  split_ifs at h
  · obtain rfl := Option.some.inj h
    trivial
  · obtain rfl := Option.some.inj h
    trivial
  · exact isCanonical_digits? h

/-- The numbers that texts write are canonical, those with an exponent and those in words
included. -/
theorem isCanonical_read? {t : Text} {x : Binary64} (h : read? t = some x) : x.IsCanonical := by
  obtain ⟨u, -, hu⟩ := Option.bind_eq_some_iff.mp h
  exact isCanonical_plain? hu

end Numeral

end StyledText
