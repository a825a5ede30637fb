import Mathlib.Data.List.Infix
import Mathlib.Data.List.TakeWhile
import StyledText.Markup.Reference
import StyledText.Proofs.Markup.OnePass

/-!
# References that cannot be decoded

Decoding goes over a text from one reference to the next, and fails at a decimal one that has too
many digits. No reference reaches over the next ampersand, so none is passed over: decoding fails if
and only if such a numeral stands anywhere in the text (`Reference.decode_fails_iff`).
-/

namespace StyledText

namespace Reference

open Markup (Cause numeralLimit)

variable {t digits : Text} {c : Char} {reference : Reference} {size : Nat}

/-- Whether a decimal reference with too many digits stands in a text. -/
def HasLongNumeral (t : Text) : Prop :=
  ∃ digits : Text, (∀ x ∈ digits, x.isDigit = true) ∧ numeralLimit < digits.length ∧
    '&' :: '#' :: digits <:+: t

/-- Whether a text cannot be decoded, for whichever of its references. -/
def Fails (t : Text) : Prop := ∃ cause, decode t = .error cause

/-! ## What a reference takes -/

/-- The semicolon that a reference may end with is no ampersand. -/
theorem ampersand_notMem_take_semicolon {n : Nat} (h : '&' ∉ t.take n) :
    '&' ∉ t.take (n + semicolonAt t n) := by
  rw [semicolonAt]
  split
  next hsemicolon =>
    rw [List.take_add_one, hsemicolon]
    simpa using h
  next => exact h

/-- Characters of a kind that no ampersand is of: digits, hexadecimal digits, those of names. -/
theorem ampersand_notMem_takeWhile {p : Char → Bool} (hp : p '&' = false) (t : Text) :
    '&' ∉ t.takeWhile p :=
  fun hmem => by simpa [hp] using List.mem_takeWhile_imp hmem

theorem take_length_takeWhile (p : Char → Bool) (t : Text) :
    t.take (t.takeWhile p).length = t.takeWhile p :=
  (List.prefix_iff_eq_take.mp (List.takeWhile_prefix p)).symm

/-- What a reference is: digits behind a hash, digits behind a hash and an `x`, or a name; and the
semicolon behind it, if there is one. -/
theorem read?_cases (h : read? t = some (reference, size)) :
    ∃ n, size = n + semicolonAt t n ∧
      ((∃ r : Text, t = '#' :: r ∧ r.takeWhile Char.isDigit ≠ [] ∧
          reference = decimal (r.takeWhile Char.isDigit) ∧ n = 1 + (r.takeWhile Char.isDigit).length) ∨
        (∃ c r, t = '#' :: c :: r ∧ (c = 'x' ∨ c = 'X') ∧
          reference = hexadecimal (r.takeWhile isHexDigit) ∧ n = 2 + (r.takeWhile isHexDigit).length) ∨
        (∃ name, reference = named name) ∧ n ≤ (t.takeWhile isNameChar).length) := by
  unfold read? at h
  split at h
  next c r =>
    dsimp only at h
    split at h
    next hdigits =>
      cases h
      exact ⟨_, rfl, .inl ⟨c :: r, rfl, hdigits, rfl, rfl⟩⟩
    next =>
      split at h
      next hx =>
        cases h
        exact ⟨_, rfl, .inr (.inl ⟨c, r, rfl, hx.1, rfl, rfl⟩)⟩
      next => cases h
  next =>
    rw [readNamed?] at h
    dsimp only at h
    split at h
    next => cases h
    next =>
      cases h
      exact ⟨_, rfl, .inr (.inr ⟨⟨_, rfl⟩, Nat.min_le_right _ _⟩)⟩

/-- A reference ends before the next ampersand, so the next reference is read from its own
beginning. -/
theorem ampersand_notMem_take (h : read? t = some (reference, size)) : '&' ∉ t.take size := by
  obtain ⟨n, rfl, hcases⟩ := read?_cases h
  refine ampersand_notMem_take_semicolon ?_
  obtain ⟨r, rfl, -, -, rfl⟩ | ⟨c, r, rfl, hx, -, rfl⟩ | ⟨-, hn⟩ := hcases
  · rw [Nat.add_comm, List.take_succ_cons, take_length_takeWhile]
    simpa using ampersand_notMem_takeWhile (p := Char.isDigit) (by decide) r
  · have hc : '&' ≠ c := by rcases hx with rfl | rfl <;> decide
    rw [Nat.add_comm, List.take_succ_cons, List.take_succ_cons, take_length_takeWhile]
    simpa [hc] using ampersand_notMem_takeWhile (p := isHexDigit) (by decide) r
  · refine fun hmem => ampersand_notMem_takeWhile (p := isNameChar) (by decide) t ?_
    rw [← take_length_takeWhile isNameChar t]
    exact (List.take_subset_take_left t hn) hmem

/-- A decimal reference is read where digits follow a hash, and all the digits that follow belong to
it. -/
theorem read?_eq_decimal_iff :
    (∃ size, read? t = some (decimal digits, size)) ↔
      digits ≠ [] ∧ ∃ r : Text, t = '#' :: r ∧ digits = r.takeWhile Char.isDigit := by
  constructor
  · rintro ⟨size, h⟩
    obtain ⟨n, -, ⟨r, ht, hdigits, heq, -⟩ | ⟨c, r, -, -, heq, -⟩ | ⟨⟨name, heq⟩, -⟩⟩ := read?_cases h
    · cases heq
      exact ⟨hdigits, r, ht, rfl⟩
    · cases heq
    · cases heq
  · rintro ⟨hdigits, r, rfl, rfl⟩
    cases r with
    | nil => exact absurd rfl hdigits
    | cons c r =>
      rw [read?]
      simp only [if_pos hdigits]
      exact ⟨_, rfl⟩

/-! ## What fails -/

/-- Only a decimal reference can fail, and only by its number of digits. -/
theorem value_fails_iff :
    (∃ cause, reference.value = .error cause) ↔
      ∃ digits, reference = .decimal digits ∧ numeralLimit < digits.length := by
  cases reference with
  | decimal digits =>
    rw [value]
    split
    next h => exact iff_of_true ⟨_, rfl⟩ ⟨digits, rfl, h⟩
    next h =>
      refine iff_of_false (by simp) ?_
      rintro ⟨_, ⟨⟩, hlong⟩
      exact h hlong
  | hexadecimal digits => simp [value]
  | named name => simp [value]

/-- Behind a character that begins no reference, decoding goes on at the next one. -/
theorem fails_cons_of_none (h : (if c = '&' then read? t else none) = none) :
    Fails (c :: t) ↔ Fails t := by
  rw [Fails, decode, h]
  simp only [Fails]
  cases decode t with
  | error cause => exact iff_of_true ⟨_, rfl⟩ ⟨_, rfl⟩
  | ok u => exact iff_of_false (by rintro ⟨_, ⟨⟩⟩) (by rintro ⟨_, ⟨⟩⟩)

/-- A reference fails by itself, or decoding goes on behind it. -/
theorem fails_ampersand (h : read? t = some (reference, size)) :
    Fails ('&' :: t) ↔ (∃ cause, reference.value = .error cause) ∨ Fails (t.drop size) := by
  rw [Fails, decode_ampersand h]
  simp only [Fails]
  cases reference.value with
  | error cause => exact iff_of_true ⟨_, rfl⟩ (.inl ⟨_, rfl⟩)
  | ok v =>
    cases decode (t.drop size) with
    | error cause => exact iff_of_true ⟨_, rfl⟩ (.inr ⟨_, rfl⟩)
    | ok u =>
      refine iff_of_false (by rintro ⟨_, ⟨⟩⟩) ?_
      rintro (⟨_, ⟨⟩⟩ | ⟨_, ⟨⟩⟩)

/-- A numeral that is too long is read where it stands: all its digits belong to one reference. -/
theorem long_prefix_iff :
    (∃ digits : Text, (∀ x ∈ digits, x.isDigit = true) ∧ numeralLimit < digits.length ∧
      '#' :: digits <+: t) ↔
    ∃ digits size, read? t = some (decimal digits, size) ∧ numeralLimit < digits.length := by
  constructor
  · rintro ⟨digits, hall, hlong, u, rfl⟩
    have htake : (digits ++ u).takeWhile Char.isDigit = digits ++ u.takeWhile Char.isDigit :=
      List.takeWhile_append_of_pos hall
    have hlonger : numeralLimit < ((digits ++ u).takeWhile Char.isDigit).length := by
      rw [htake, List.length_append]
      exact Nat.lt_add_right _ hlong
    obtain ⟨size, hread⟩ := read?_eq_decimal_iff.mpr
      ⟨List.ne_nil_of_length_pos (Nat.zero_lt_of_lt hlonger), digits ++ u, rfl, rfl⟩
    exact ⟨_, size, hread, hlonger⟩
  · rintro ⟨digits, size, hread, hlong⟩
    obtain ⟨-, r, rfl, rfl⟩ := read?_eq_decimal_iff.mp ⟨size, hread⟩
    exact ⟨_, fun x hx => List.mem_takeWhile_imp hx, hlong,
      List.cons_prefix_cons.mpr ⟨rfl, List.takeWhile_prefix _⟩⟩

theorem hasLongNumeral_cons_iff :
    HasLongNumeral (c :: t) ↔
      (c = '&' ∧ ∃ digits size, read? t = some (decimal digits, size) ∧ numeralLimit < digits.length) ∨
        HasLongNumeral t := by
  rw [← long_prefix_iff]
  constructor
  · rintro ⟨digits, hall, hlong, hin⟩
    rcases List.infix_cons_iff.mp hin with hpre | hin
    · obtain ⟨hc, hpre⟩ := List.cons_prefix_cons.mp hpre
      exact .inl ⟨hc.symm, digits, hall, hlong, hpre⟩
    · exact .inr ⟨digits, hall, hlong, hin⟩
  · rintro (⟨rfl, digits, hall, hlong, hpre⟩ | ⟨digits, hall, hlong, hin⟩)
    · exact ⟨digits, hall, hlong, (List.cons_prefix_cons.mpr ⟨rfl, hpre⟩).isInfix⟩
    · exact ⟨digits, hall, hlong, List.infix_cons hin⟩

theorem HasLongNumeral.of_suffix {s : Text} (h : HasLongNumeral t) : HasLongNumeral (s ++ t) := by
  obtain ⟨digits, hall, hlong, hin⟩ := h
  exact ⟨digits, hall, hlong, hin.trans (List.suffix_append s t).isInfix⟩

/-- Where no ampersand stands, no reference begins, so such text in front makes no difference. -/
theorem hasLongNumeral_append_iff {s : Text} (hs : '&' ∉ s) :
    HasLongNumeral (s ++ t) ↔ HasLongNumeral t := by
  refine ⟨?_, .of_suffix⟩
  rintro ⟨digits, hall, hlong, hin⟩
  exact ⟨digits, hall, hlong, Text.infix_append_of_notMem hs hin⟩

/-- **When decoding fails.** By induction over what is left to decode, along the references: none of
them reaches over the next, so none that is too long is passed over. -/
theorem decode_fails_iff (t : Text) : Fails t ↔ HasLongNumeral t := by
  induction t using decode.induct with
  | case1 =>
    refine iff_of_false ?_ ?_
    · rintro ⟨cause, h⟩
      rw [decode_nil] at h
      cases h
    · rintro ⟨digits, -, -, hin⟩
      exact List.cons_ne_nil _ _ (List.eq_nil_of_infix_nil hin)
  | case2 c t hnone ih =>
    rw [dite_eq_ite] at hnone
    rw [fails_cons_of_none hnone, ih, hasLongNumeral_cons_iff]
    refine ⟨.inr, fun h => h.resolve_left ?_⟩
    rintro ⟨rfl, digits, size, hread, -⟩
    rw [if_pos rfl, hread] at hnone
    cases hnone
  | case3 c t reference size hread ih =>
    rw [dite_eq_ite] at hread
    have hc : c = '&' := by
      by_contra hne
      rw [if_neg hne] at hread
      cases hread
    subst hc
    rw [if_pos rfl] at hread
    -- no numeral begins inside of the reference that is passed over
    have hpassed : HasLongNumeral t ↔ HasLongNumeral (t.drop size) := by
      have := hasLongNumeral_append_iff (t := t.drop size) (ampersand_notMem_take hread)
      rwa [List.take_append_drop] at this
    rw [fails_ampersand hread, hasLongNumeral_cons_iff, ih, value_fails_iff, hpassed]
    refine or_congr_left ⟨?_, ?_⟩
    · rintro ⟨digits, rfl, hlong⟩
      exact ⟨rfl, digits, size, hread, hlong⟩
    · rintro ⟨-, digits, size', hread', hlong⟩
      cases hread.symm.trans hread'
      exact ⟨digits, rfl, hlong⟩

end Reference

end StyledText
