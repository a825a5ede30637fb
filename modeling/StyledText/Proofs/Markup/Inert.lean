import StyledText.Flow.Collapse
import StyledText.Proofs.Markup.Reading

/-!
# Text that is no markup

A bracket begins markup by the character behind it: a letter, a slash, an exclamation mark or a
question mark. A text in which every bracket has some other character behind it is **inert**
(`Text.isInert`): wherever it stands, no tag is read in it. References in it are still decoded, and
there reading can stop (`Reading.Reports`).

* `Text.isInert_append`, `Text.isInert_collapse` — texts are put together and collapsed;
* `Reading.reports_inert` — an inert text and what follows it.
-/

namespace StyledText

namespace Text

/-- Whether a bracket begins markup if the character stands behind it. -/
def opensMarkup (c : Char) : Bool := c.isAlpha || c ∈ ['/', '!', '?']

/-- Whether no bracket in the text begins markup, whatever follows the text. -/
def isInert : Text → Bool
  | [] => true
  | c :: t => (c ≠ '<' || t.head?.any (!opensMarkup ·)) && isInert t

variable {c : Char} {s t : Text}

theorem isInert_cons :
    isInert (c :: t) = true ↔
      (c = '<' → ∃ x ∈ t.head?, opensMarkup x = false) ∧ isInert t = true := by
  simp [isInert, Option.any_eq_true, ← imp_iff_not_or]

/-- Without brackets nothing begins, so such a text is inert. -/
theorem isInert_of_notMem (h : '<' ∉ t) : isInert t = true := by
  induction t with
  | nil => rfl
  | cons c t ih =>
    obtain ⟨hc, ht⟩ := not_or.mp (mt List.mem_cons.mpr h)
    exact isInert_cons.mpr ⟨fun he => absurd he.symm hc, ih ht⟩

/-- Two inert texts together are inert, since a bracket at the end of the first would not be
inert. -/
theorem isInert_append (hs : isInert s = true) (ht : isInert t = true) :
    isInert (s ++ t) = true := by
  induction s with
  | nil => exact ht
  | cons c s ih =>
    obtain ⟨hc, hs⟩ := isInert_cons.mp hs
    refine isInert_cons.mpr ⟨fun he => ?_, ih hs⟩
    obtain ⟨x, hx, hopens⟩ := hc he
    obtain ⟨s', rfl⟩ := List.head?_eq_some_iff.mp hx
    exact ⟨x, rfl, hopens⟩

/-- What stands behind a bracket opens no markup, and it is inert itself. -/
theorem isInert_of_append_bracket (h : isInert (s ++ '<' :: t) = true) :
    ∃ x t', t = x :: t' ∧ opensMarkup x = false ∧ isInert t = true := by
  induction s with
  | nil =>
    obtain ⟨hc, ht⟩ := isInert_cons.mp h
    obtain ⟨x, hx, hopens⟩ := hc rfl
    obtain ⟨t', rfl⟩ := List.head?_eq_some_iff.mp hx
    exact ⟨x, t', rfl, hopens, ht⟩
  | cons c s ih => exact ih (isInert_cons.mp h).2

/-- Collapsing puts at most a space behind a bracket, and a space opens no markup. -/
theorem isInert_collapse (h : isInert t = true) (previous : Char) :
    isInert (Flow.collapse previous t) = true := by
  induction t generalizing previous with
  | nil => rfl
  | cons c t ih =>
    obtain ⟨hc, ht⟩ := isInert_cons.mp h
    rw [Flow.collapse]
    split
    next hspace =>
      split
      · exact ih ht previous
      · exact isInert_cons.mpr ⟨fun he => absurd he (by decide), ih ht ' '⟩
    next =>
      refine isInert_cons.mpr ⟨?_, ih ht c⟩
      rintro rfl
      -- behind a bracket there is its old neighbour, or a space in the place of that
      obtain ⟨x, hx, hopens⟩ := hc rfl
      obtain ⟨t', rfl⟩ := List.head?_eq_some_iff.mp hx
      rw [Flow.collapse]
      split
      · exact ⟨' ', by simp, by decide⟩
      · exact ⟨x, rfl, hopens⟩

end Text

/-! ## References in a text -/

namespace Reference

open Markup (Cause)

variable {t : Text} {cause : Cause}

/-- A reference fails only by a numeral with too many digits. -/
theorem exists_of_value_eq_error {reference : Reference} (h : reference.value = .error cause) :
    ∃ k, cause = .longNumeral k := by
  cases reference with
  | decimal digits =>
    rw [value] at h
    split at h
    · exact ⟨digits.length, (Except.error.inj h).symm⟩
    · cases h
  | hexadecimal digits => cases h
  | named name => cases h

/-- Decoding fails only by such a numeral too, as it fails at one of its references. -/
theorem exists_of_decode_eq_error (h : decode t = .error cause) : ∃ k, cause = .longNumeral k := by
  induction t using decode.induct with
  | case1 => simp at h
  | case2 c t hnone ih =>
    rw [dite_eq_ite] at hnone
    rw [decode, hnone] at h
    rcases hrest : decode t with e | u
    · rw [hrest] at h
      cases h
      exact ih hrest
    · rw [hrest] at h
      cases h
  -- a reference fails by itself, or decoding fails behind it
  | case3 c t reference size hread ih =>
    rw [dite_eq_ite] at hread
    rw [decode, hread] at h
    rcases hvalue : reference.value with e | v
    · simp only [hvalue] at h
      cases h
      exact exists_of_value_eq_error hvalue
    rcases hrest : decode (t.drop size) with e | u
    · simp only [hvalue, hrest] at h
      cases h
      exact ih hrest
    · simp only [hvalue, hrest] at h
      cases h

/-- And only by a reference: without an ampersand the text is as it is. -/
theorem decode_of_notMem (h : '&' ∉ t) : decode t = .ok t := by
  induction t with
  | nil => exact decode_nil
  | cons c t ih =>
    obtain ⟨hc, ht⟩ := not_or.mp (mt List.mem_cons.mpr h)
    rw [decode_cons_of_ne (Ne.symm hc), ih ht]
    rfl

end Reference

namespace Markup

open Text (AtBracket opensMarkup isInert)

/-! ## Reading inert text -/

/-- A bracket begins nothing if the character behind it opens no markup. -/
theorem Construct.read_of_opensMarkup_eq_false {c : Char} (h : opensMarkup c = false) (t : Text) :
    read (c :: t) = .text (c :: t) := by
  have hne : ∀ x ∈ ['/', '!', '?'], c ≠ x := by
    rintro x hx rfl
    simp [opensMarkup, hx] at h
  have halpha : c.isAlpha = false := (Bool.or_eq_false_iff.mp h).1
  unfold read
  split
  next heq => exact absurd (List.cons.inj heq).1 (hne '/' (by simp))
  next heq => exact absurd (List.cons.inj heq).1 (hne '?' (by simp))
  next heq => exact absurd (List.cons.inj heq).1 (hne '!' (by simp))
  next heq => exact absurd (List.cons.inj heq).1 (hne '!' (by simp))
  next heq => exact absurd (List.cons.inj heq).1 (hne '!' (by simp))
  next heq =>
    cases heq
    simp [halpha]
  next heq => cases heq

namespace Reading

variable {s t u : Text} {es : List Event} {r : Reading}

/-- `r`, a reading of `t` or a part of it, has the tags `es`; or it has only the first of them,
because something in `t` cannot be decoded. -/
structure Reports (t : Text) (es : List Event) (r : Reading) : Prop where
  begins : r.tags <+: es
  tags_eq : r.fault = none → r.tags = es
  cause : ∀ f, r.fault = some f → ∃ s, s <:+: t ∧ Reference.decode s = .error f.cause

theorem reports_nil (t : Text) : Reports t [] ⟨[], none⟩ :=
  ⟨List.nil_prefix, fun _ => rfl, by rintro f ⟨⟩⟩

/-- A reading of the end of a text may fail by what stands in the text. -/
theorem Reports.of_suffix (h : Reports t es r) (s : Text) : Reports (s ++ t) es r := by
  refine ⟨h.begins, h.tags_eq, fun f hf => ?_⟩
  obtain ⟨x, hx, hdecode⟩ := h.cause f hf
  exact ⟨x, hx.trans (List.suffix_append s t).isInfix, hdecode⟩

/-- Events in front of a reading add their tags to the reported ones. -/
theorem Reports.prepend (h : Reports t es r) (events : List Event) :
    Reports t (events.filter Event.isTag ++ es) (r.prepend events) := by
  refine ⟨?_, fun hf => ?_, h.cause⟩
  · rw [tags_prepend]
    exact List.prefix_append_right_inj _ |>.mpr h.begins
  · rw [tags_prepend, h.tags_eq hf]

/-- Character data is no tag, and reading stops where it cannot be decoded. -/
theorem Reports.ofCharacters (h : Reports t es r) (hs : s <:+: t) (p : Position) :
    Reports t es (ofCharacters p s r) := by
  rcases hdecode : Reference.decode s with cause | u
  · rw [ofCharacters_of_error hdecode]
    refine ⟨List.nil_prefix, by rintro ⟨⟩, ?_⟩
    rintro f ⟨⟩
    exact ⟨s, hs, hdecode⟩
  · have hprepend := h.prepend (characterEvents u)
    rwa [filter_isTag_characterEvents, List.nil_append, ← ofCharacters_of_decode hdecode p] at hprepend

/-- Without an ampersand all can be decoded, so reading does not stop. -/
theorem Reports.fault_eq_none (h : Reports t es r) (ht : '&' ∉ t) : r.fault = none := by
  rcases hfault : r.fault with _ | f
  · rfl
  · obtain ⟨s, hs, hdecode⟩ := h.cause f hfault
    cases hdecode.symm.trans (Reference.decode_of_notMem fun hmem => ht (hs.subset hmem))

/-- **Inert text** reports no tag, and what follows it is read as if it stood by itself. -/
theorem reports_inert (hu : AtBracket u) (hnext : ∀ p, Reports u es (startingAt p none u)) :
    ∀ t : Text, isInert t = true → ∀ p, Reports (t ++ u) es (startingAt p none (t ++ u))
  | t, ht, p => by
    by_cases hbracket : '<' ∈ t
    · obtain ⟨s, z, rfl, hs⟩ := List.eq_append_cons_of_mem hbracket
      obtain ⟨x, z', rfl, hopens, hz⟩ := Text.isInert_of_append_bracket ht
      have hrest (p : Position) := reports_inert hu hnext (x :: z') hz p
      have hread : Construct.read (x :: z' ++ u) = .text (x :: z' ++ u) :=
        Construct.read_of_opensMarkup_eq_false hopens _
      have hmarkup (p : Position) : Reports ('<' :: (x :: z' ++ u)) es
          (startingAt p none ('<' :: (x :: z' ++ u))) := by
        rw [startingAt_bracket hread]
        exact ((hrest _).of_suffix ['<']).prepend (characterEvents ['<'])
      rw [List.append_assoc, List.cons_append, startingAt_text hs (Text.atBracket_cons _)]
      exact ((hmarkup _).of_suffix s).ofCharacters (List.prefix_append _ _).isInfix p
    · rw [startingAt_text hbracket hu]
      exact ((hnext _).of_suffix t).ofCharacters (List.prefix_append _ _).isInfix p
termination_by t => t.length
decreasing_by
  subst_vars
  simp only [List.length_append, List.length_cons]
  omega

end Reading

end Markup

end StyledText
