import StyledText.Proofs.Formatted
import StyledText.Proofs.Number.Rounding
import StyledText.Settings.Basic

/-!
# The indentation of the settings

The settings check the indentation by reading it as a number and looking at its sign; formatting
rounds it to an integer. A number that is below zero, or no number at all, does not get past the
first (`Settings.exists_read_error_iff`). Numerals are canonical, so the finite numbers among those
that do get past it round, and then nothing but the markup can stop formatting. What is not a number
has no sign to be rejected for, and neither has what is too large: both are accepted, and with them
every call of the formatter fails (`Settings.accepted_indent_usable`).
-/

namespace StyledText

/-! ## Requests -/

namespace Request

variable {r : Request} {x : Binary64}

/-- With an indentation that rounds, or without one, there is an interceptor to format with. -/
theorem exists_interceptor (h : ∀ x, r.indent = some x → ∃ n, x.roundHalfUp = .ok n) :
    ∃ t, r.interceptor = .ok t := by
  unfold interceptor
  rcases hr : r.indent with _ | x
  · exact ⟨_, rfl⟩
  · obtain ⟨n, hn⟩ := h x hr
    simp only [Intercept.State.setIndent, hn]
    exact ⟨_, rfl⟩

/-- An indentation that cannot be rounded stops a request before its markup is read. -/
theorem interceptor_of_unroundable {e : Binary64.Unroundable} (hr : r.indent = some x)
    (hx : x.roundHalfUp = .error e) : r.interceptor = .error e := by
  simp only [interceptor, hr, Intercept.State.setIndent, hx]
  rfl

end Request

/-- Whether the markup is all that has stopped formatting, if anything has. -/
def Formatted.FailsOnMarkupOnly (f : Formatted) : Prop :=
  (∃ c, f.result = .ok c) ∨ ∃ fault, f.result = .error (.markup fault)

/-- With an indentation that rounds, formatting fails where the markup cannot be read, and nowhere
else. -/
theorem format_failsOnMarkupOnly {r : Request}
    (h : ∀ x, r.indent = some x → ∃ n, x.roundHalfUp = .ok n) (html : Text) :
    (format r html).FailsOnMarkupOnly ∧
      ((∃ c, (format r html).result = .ok c) ↔
        (Markup.read (Markup.reserveNames html)).fault = none) := by
  obtain ⟨t, ht⟩ := Request.exists_interceptor h
  obtain ⟨-, d, -, hresult⟩ := exists_draft_of_interceptor ht html
  cases hfault : (Markup.read (Markup.reserveNames html)).fault with
  | none =>
    simp only [hfault] at hresult
    exact ⟨.inl ⟨_, hresult⟩, iff_of_true ⟨_, hresult⟩ rfl⟩
  | some fault =>
    simp only [hfault] at hresult
    refine ⟨.inr ⟨fault, hresult⟩, iff_of_false ?_ (by simp)⟩
    rintro ⟨c, hc⟩
    cases hresult.symm.trans hc

namespace Settings

variable {value : Text} {env : Environment} {s : Settings}

/-! ## What is accepted -/

/-- The value is rejected if it is not blank and writes no number, or a number below zero. -/
theorem exists_readIndent_error_iff : (∃ p, readIndent value = .error p) ↔
    Text.strip value ≠ [] ∧ ∀ x, Numeral.read? value = some x → x.isNegative = true := by
  unfold readIndent
  by_cases hblank : Text.strip value = []
  · simp [hblank]
  · rw [if_neg hblank]
    cases hread : Numeral.read? value with
    | none => simp [hblank]
    | some x => cases hneg : x.isNegative <;> simp [hblank, hneg]

/-- An accepted value is blank or writes a number, and this is not below zero. -/
theorem indent_of_readIndent {indent : Option Binary64} (h : readIndent value = .ok indent) :
    indent = (if Text.strip value = [] then none else Numeral.read? value) ∧
      ∀ x, indent = some x → x.isNegative = false := by
  unfold readIndent at h
  split at h
  case isTrue hblank =>
    cases h
    simp [hblank]
  case isFalse hblank =>
    cases hread : Numeral.read? value with
    | none => simp [hread] at h
    | some x =>
      simp only [hread] at h
      split_ifs at h with hneg
      cases h
      simpa [hblank] using hneg

/-- Of the settings only the indentation can be wrong, so they are rejected just if it is. -/
theorem exists_read_error_iff : (∃ p, read env = .error p) ↔
    ∃ value, env.get? indentVariable = some value ∧ Text.strip value ≠ [] ∧
      ∀ x, Numeral.read? value = some x → x.isNegative = true := by
  unfold read
  cases hget : env.get? indentVariable with
  | none => simp [Except.map]
  | some value =>
    simp only [Option.elim_some, Option.some.injEq, exists_eq_left', ← exists_readIndent_error_iff]
    cases readIndent value <;> simp [Except.map]

/-- The number that the variable of the indentation writes. Blanks write none. -/
def writtenIndent? (env : Environment) : Option Binary64 :=
  (env.get? indentVariable).bind fun value =>
    if Text.strip value = [] then none else Numeral.read? value

/-- Accepted settings have the indentation that is written, and it is not below zero. -/
theorem indent_of_read (h : read env = .ok s) :
    s.indent = writtenIndent? env ∧ ∀ x, s.indent = some x → x.isNegative = false := by
  unfold read at h
  unfold writtenIndent?
  cases hget : env.get? indentVariable with
  | none =>
    rw [hget] at h
    cases h
    simp
  | some value =>
    rw [hget, Option.elim_some] at h
    cases hread : readIndent value with
    | error p =>
      rw [hread] at h
      cases h
    | ok indent =>
      rw [hread] at h
      cases h
      exact indent_of_readIndent hread

/-- The number that the variable writes is canonical, as all numbers are that texts write. -/
theorem isCanonical_of_writtenIndent? {x : Binary64} (h : writtenIndent? env = some x) :
    x.IsCanonical := by
  obtain ⟨value, -, hvalue⟩ := Option.bind_eq_some_iff.mp h
  split_ifs at hvalue
  exact Numeral.isCanonical_read? hvalue

/-- Every problem is reported under the name of the variable, with the value that is wrong and the
reason. -/
theorem Problem.exists_toError (p : Problem) :
    ∃ value reason, p.toError = .setting indentVariable value reason := by
  cases p <;> exact ⟨_, _, rfl⟩

/-! ## What can be used -/

/-- **Accepted indentations.** The settings are rejected if and only if the variable of the
indentation holds something that is neither blank nor a numeral, or a number below zero; the report
is on that variable. Accepted settings have the indentation that is written there. They can be used
for every call where it is finite or none is set: then nothing but a fault in the markup stops the
formatter. What is not a number and what is too large are accepted as well, and stop every call. -/
theorem accepted_indent_usable (env : Environment) :
    ((∃ p, read env = .error p) ↔
      ∃ value, env.get? indentVariable = some value ∧ Text.strip value ≠ [] ∧
        ∀ x, Numeral.read? value = some x → x.isNegative = true) ∧
    (∀ p, read env = .error p →
      ∃ value reason, p.toError = .setting indentVariable value reason) ∧
    ∀ s, read env = .ok s →
      s.indent = writtenIndent? env ∧
      ((∀ x, s.indent = some x → x.isFinite = true) →
        ∀ (r : Request) html, (format { r with indent := s.indent } html).FailsOnMarkupOnly ∧
          ((∃ c, (format { r with indent := s.indent } html).result = .ok c) ↔
            (Markup.read (Markup.reserveNames html)).fault = none)) ∧
      (s.indent = some .nan →
        ∀ (r : Request) html, (format { r with indent := s.indent } html).result =
          .error (.indent .nan)) ∧
      ∀ negative, s.indent = some (.infinity negative) →
        negative = false ∧
        ∀ (r : Request) html, (format { r with indent := s.indent } html).result =
          .error (.indent .infinite) := by
  refine ⟨exists_read_error_iff, fun p _ => p.exists_toError, fun s hs => ?_⟩
  obtain ⟨hwritten, hnonneg⟩ := indent_of_read hs
  refine ⟨hwritten, ?_, ?_, ?_⟩
  · intro hfinite r html
    refine format_failsOnMarkupOnly (fun x hx => ?_) html
    have hcanonical := isCanonical_of_writtenIndent? (hwritten.symm.trans hx)
    exact (Binary64.exists_roundHalfUp_iff hcanonical).mpr (hfinite x hx)
  · intro hnan r html
    exact result_of_interceptor_error (Request.interceptor_of_unroundable hnan rfl) html
  · intro negative hinf
    refine ⟨hnonneg _ hinf, fun r html => ?_⟩
    exact result_of_interceptor_error (Request.interceptor_of_unroundable hinf rfl) html

/-- A decimal number is of use; what is not a number and what is too large stop the call; a number
below zero is rejected. -/
theorem accepted_indent_usable_fourValues :
    (∃ s, read [(indentVariable, "12.5".toList)] = .ok s ∧
      s.indent = some (.ofDecimal false 125 (-1)) ∧
      (format { indent := s.indent } "<ul><li>a</li></ul>".toList).FailsOnMarkupOnly) ∧
    (∃ s, read [(indentVariable, " NaN ".toList)] = .ok s ∧
      (format { indent := s.indent } "a".toList).result = .error (.indent .nan)) ∧
    (∃ s, read [(indentVariable, "1e500".toList)] = .ok s ∧
      (format { indent := s.indent } "a".toList).result = .error (.indent .infinite)) ∧
    ∃ p, read [(indentVariable, "-1".toList)] = .error p := by
  refine ⟨⟨_, rfl, rfl, ?_⟩, ⟨_, rfl, ?_⟩, ⟨_, rfl, ?_⟩, ?_⟩
  · obtain ⟨-, -, h⟩ := accepted_indent_usable [(indentVariable, "12.5".toList)]
    refine ((h _ rfl).2.1 (fun x hx => ?_) {} _).1
    cases hx
    rfl
  · obtain ⟨-, -, h⟩ := accepted_indent_usable [(indentVariable, " NaN ".toList)]
    exact (h _ rfl).2.2.1 rfl {} _
  · obtain ⟨-, -, h⟩ := accepted_indent_usable [(indentVariable, "1e500".toList)]
    exact ((h _ rfl).2.2.2 false rfl).2 {} _
  · obtain ⟨h, -⟩ := accepted_indent_usable [(indentVariable, "-1".toList)]
    refine h.mpr ⟨_, rfl, by decide, fun x hx => ?_⟩
    cases hx
    rfl

/-- An accepted setting need not be of use: what is not a number passes the comparison with zero,
and cannot be rounded. -/
theorem not_every_accepted_indent_usable :
    ¬ ∀ (env : Environment) (s : Settings), read env = .ok s →
      ∀ html, (format { indent := s.indent } html).FailsOnMarkupOnly := by
  intro h
  have hresult : (format { indent := some (.infinity false) } "a".toList).result =
      .error (.indent .infinite) :=
    result_of_interceptor_error (Request.interceptor_of_unroundable rfl rfl) _
  obtain ⟨c, hc⟩ | ⟨fault, hfault⟩ :=
    h [(indentVariable, "inf".toList)] { standard with indent := some (.infinity false) } rfl
      "a".toList
  · cases hresult.symm.trans hc
  · cases hresult.symm.trans hfault

end Settings

end StyledText
