import Mathlib.Data.List.Basic
import StyledText.Buffer.View
import StyledText.Proofs.Buffer.Bounds

/-!
# Copies of copies

A copy of a part of a copy is a copy of that part, although a span that the first leaves without
width looks to the second as if it never had any. So the newlines at the end of a text can be
dropped one at a time or all at once. A copy of the beginning of a buffer shows what is left when
the rest is taken out.

* `Span.clip?_clip?`, `Buffer.clip_clip` — two copies are one;
* `Buffer.trimEnd_eq_clip` — trimming is one copy;
* `Buffer.annotations_clip_zero` — a copy of the beginning against taking out the end.
-/

namespace StyledText

variable {α : Type} {c d i j l n : Nat}

namespace Span

variable {s : Span α}

/-- **Two copies are one.** A span that goes at one of them would go at once. -/
theorem clip?_clip? (hle : s.start ≤ s.stop) (hij : i ≤ j) (hcd : c ≤ d) (hd : d ≤ j - i) :
    (s.clip? i j).bind (·.clip? c d) = s.clip? (i + c) (i + d) := by
  apply Option.ext
  intro t
  rw [Option.bind_eq_some_iff]
  constructor
  · rintro ⟨r, hr, ht⟩
    obtain ⟨htouches, rfl, hkeep⟩ := clip?_eq_some_iff.mp hr
    obtain ⟨htouches', rfl, hkeep'⟩ := clip?_eq_some_iff.mp ht
    simp only at htouches' hkeep hkeep'
    refine clip?_eq_some_iff.mpr ⟨by omega, ?_, ?_⟩
    · simp only [mk.injEq, true_and, and_true]
      constructor <;> omega
    · rintro ⟨hflag, hempty, hne⟩
      -- what is empty in the end has lost its width at one of the two copies
      by_cases hr : max s.start i - i = min s.stop j - i
      · exact hkeep ⟨hflag, hr, hne⟩
      · exact hkeep' ⟨hflag, hempty, hr⟩
  · intro ht
    obtain ⟨htouches, rfl, hkeep⟩ := clip?_eq_some_iff.mp ht
    simp only at hkeep
    refine ⟨_, clip?_eq_some_iff.mpr ⟨by omega, rfl, ?_⟩, clip?_eq_some_iff.mpr ⟨?_, ?_, ?_⟩⟩
    · rintro ⟨hflag, hempty, hne⟩
      simp only at hempty
      exact hkeep ⟨hflag, by omega, hne⟩
    · simp only
      omega
    · simp only [mk.injEq, true_and, and_true]
      constructor <;> omega
    · rintro ⟨hflag, hempty, hne⟩
      simp only at hempty hne
      exact hkeep ⟨hflag, hempty, by omega⟩

/-- A copy of the whole text leaves a span as it is. -/
theorem clip?_zero_length (hle : s.start ≤ s.stop) (hstop : s.stop ≤ l) :
    s.clip? 0 l = some s := by
  have hs : s = { s with start := max s.start 0 - 0, stop := min s.stop l - 0 } := by
    rw [Nat.max_zero, Nat.sub_zero, Nat.sub_zero, Nat.min_eq_left hstop]
  exact clip?_eq_some_iff.mpr ⟨by omega, hs, fun hlost => hlost.2.2 hlost.2.1⟩

/-- An exclusive span with some width is copied as it is left. -/
theorem clip?_zero_eq_cut? (hflag : s.flag = .exclusive) (hlt : s.start < s.stop)
    (hstop : s.stop ≤ l) : s.clip? 0 n = s.cut? n l := by
  apply Option.ext
  intro t
  rw [clip?_eq_some_iff, cut?_eq_some_iff, shift_eq_min hstop,
    shift_eq_min (Nat.le_trans (Nat.le_of_lt hlt) hstop)]
  constructor
  · rintro ⟨htouches, rfl, hkeep⟩
    refine ⟨?_, hkeep⟩
    simp only [mk.injEq, true_and, and_true]
    constructor <;> omega
  · rintro ⟨rfl, hkeep⟩
    have hin : s.start ≤ n := by
      refine Nat.le_of_not_lt fun hn => hkeep ⟨hflag, ?_, Nat.ne_of_lt hlt⟩
      simp only
      omega
    refine ⟨by omega, ?_, hkeep⟩
    simp only [mk.injEq, true_and, and_true]
    constructor <;> omega

/-- Nothing is shown of what is a mark where it is kept. -/
theorem filter_of_mark {s? : Option (Span α)} (h : ∀ t, s? = some t → t.flag = .mark) :
    s?.filter (·.flag ≠ .mark) = none := by
  rw [Option.filter_eq_none_iff]
  intro t ht
  simp [h t ht]

end Span

namespace Buffer

variable {b b' : Buffer α}

/-- A copy of a part of a copy is a copy of that part. -/
theorem clip_clip (h : b.InBounds) (hij : i ≤ j) (hcd : c ≤ d) (hd : d ≤ j - i) :
    (b.clip i j).clip c d = b.clip (i + c) (i + d) := by
  rw [clip, clip, clip, mk.injEq]
  constructor
  · rw [List.take_drop, List.take_take, List.drop_drop, Nat.min_eq_left (by omega)]
  · rw [List.filterMap_filterMap]
    apply List.filterMap_congr
    intro s hs
    exact Span.clip?_clip? (h s hs).1 hij hcd hd

/-- A copy of the whole text is the buffer again. -/
theorem clip_zero_length (h : b.InBounds) : b.clip 0 b.length = b := by
  have hsame : ∀ s ∈ b.spans, s.clip? 0 b.length = some s := by
    intro s hs
    exact Span.clip?_zero_length (h s hs).1 (h s hs).2
  have hspans : b.spans.filterMap (Span.clip? 0 b.length) = b.spans := by
    rw [List.filterMap_congr hsame, List.filterMap_some]
  rw [clip, hspans, length, List.take_length, List.drop_zero]

/-! ## Trimming -/

/-- The length of the text without the newlines at its end. -/
def trimmedLength (b : Buffer α) : Nat := (Text.dropTrailing (· = '\n') b.text).length

theorem trimmedLength_le (b : Buffer α) : b.trimmedLength ≤ b.length := by
  obtain ⟨r, hr, -⟩ := Text.exists_dropTrailing_append (· = '\n') b.text
  have hlen := congrArg List.length hr
  rw [List.length_append] at hlen
  exact Nat.le.intro hlen.symm

theorem trimmedLength_of_dropNewline? (h : b.dropNewline? = some b') :
    b'.trimmedLength = b.trimmedLength := by
  obtain ⟨rfl, hlast⟩ := eq_clip_of_dropNewline? h
  rw [length, ← List.getLast?_eq_getElem?, List.getLast?_eq_some_iff] at hlast
  obtain ⟨t, ht⟩ := hlast
  simp [trimmedLength, clip, length, ht, Text.dropTrailing_concat]

theorem trimmedLength_of_endsWithNewline (h : b.endsWithNewline = false) :
    b.trimmedLength = b.length := by
  rw [endsWithNewline, Text.endsWithNewline] at h
  rcases List.eq_nil_or_concat b.text with ht | ⟨t, x, ht⟩
  · simp [trimmedLength, length, ht]
  · have hx : x ≠ '\n' := by simpa [ht] using h
    simp [trimmedLength, length, ht, Text.dropTrailing_concat, hx]

/-- **Trimming.** Newlines dropped one at a time are dropped at once. -/
theorem trimEnd_eq_clip (h : b.InBounds) : b.trimEnd = b.clip 0 b.trimmedLength := by
  fun_induction trimEnd b with
  | case1 b b' hdrop ih =>
    have hlen := length_of_dropNewline? hdrop
    have htrim := trimmedLength_of_dropNewline? hdrop
    have hle := b'.trimmedLength_le
    obtain ⟨rfl, -⟩ := eq_clip_of_dropNewline? hdrop
    rw [ih (h.clip (Nat.zero_le _) (Nat.sub_le _ _)), clip_clip h (Nat.zero_le _) (Nat.zero_le _),
      htrim, Nat.zero_add, Nat.zero_add]
    omega
  | case2 b hdrop =>
    have hends : b.endsWithNewline = false := by simpa [dropNewline?] using hdrop
    rw [trimmedLength_of_endsWithNewline hends, clip_zero_length h]

/-- **Copies of copies.** For every buffer in bounds, whatever the flags of its spans: copying a
range of a copied range gives the text and the spans, in their order, that copying that part at once
gives. So trimming, which drops one newline at a time, is one copy of the text without the newlines
at its end, and trimming again changes nothing. -/
theorem copies_of_copies (hb : b.InBounds) :
    (∀ i j c d : Nat, i ≤ j → j ≤ b.length → c ≤ d → d ≤ j - i →
      ∃ part piece, b.subsequence i j = .ok part ∧ part.subsequence c d = .ok piece ∧
        b.subsequence (i + c) (i + d) = .ok piece) ∧
    b.subsequence 0 (Text.dropTrailing (· = '\n') b.text).length = .ok b.trimEnd ∧
    b.trimEnd.trimEnd = b.trimEnd := by
  refine ⟨?_, ?_, trimEnd_of_endsWithNewline b.endsWithNewline_trimEnd⟩
  · intro i j c d hij hj hcd hd
    have hpiece : d ≤ (b.clip i j).length := by
      rw [length_clip i hj]
      exact hd
    refine ⟨b.clip i j, (b.clip i j).clip c d, subsequence_of_le hij hj,
      subsequence_of_le hcd hpiece, ?_⟩
    rw [clip_clip hb hij hcd hd]
    exact_mod_cast subsequence_of_le (Nat.add_le_add_left hcd i) (by omega)
  · rw [trimEnd_eq_clip hb]
    exact_mod_cast subsequence_of_le (Nat.zero_le _) b.trimmedLength_le

theorem copies_of_copies_trailingSpans :
    let b : Buffer Nat := ⟨"ab\n\n".toList,
      [⟨0, 1, 3, .plain⟩, ⟨1, 2, 4, .exclusive⟩, ⟨2, 2, 2, .exclusive⟩, ⟨3, 2, 4, .plain⟩,
        ⟨4, 3, 3, .mark⟩]⟩
    b.InBounds ∧
    (∃ part, b.subsequence 1 3 = .ok part ∧
      part.subsequence 0 1 =
        .ok ⟨['b'], [⟨0, 0, 1, .plain⟩, ⟨2, 1, 1, .exclusive⟩, ⟨3, 1, 1, .plain⟩]⟩) ∧
    b.trimEnd = ⟨"ab".toList, [⟨0, 1, 2, .plain⟩, ⟨2, 2, 2, .exclusive⟩, ⟨3, 2, 2, .plain⟩]⟩ ∧
    b.trimEnd.trimEnd = b.trimEnd := by
  intro b
  have hb : b.InBounds := by decide
  obtain ⟨hcopies, htrim, hagain⟩ := copies_of_copies hb
  obtain ⟨part, piece, hpart, hpiece, honce⟩ :=
    hcopies 1 3 0 1 (by decide) (by decide) (by decide) (by decide)
  have hcopy : b.subsequence 0 2 =
      .ok ⟨"ab".toList, [⟨0, 1, 2, .plain⟩, ⟨2, 2, 2, .exclusive⟩, ⟨3, 2, 2, .plain⟩]⟩ := rfl
  refine ⟨hb, ⟨part, hpart, ?_⟩, Except.ok.inj (htrim.symm.trans hcopy), hagain⟩
  cases honce
  exact hpiece

/-! ## The beginning of a buffer -/

/-- A copy of the beginning shows what is left when the rest is taken out, where all but the marks
is exclusive and has some width. -/
theorem annotations_clip_zero (h : b.InBounds)
    (hspans : ∀ s ∈ b.spans, s.flag = .mark ∨ s.flag = .exclusive ∧ s.start < s.stop) (n : Nat) :
    (b.clip 0 n).annotations = (b.cut n b.length).annotations := by
  simp only [annotations, clip, cut, List.filter_filterMap]
  congr 1
  apply List.filterMap_congr
  intro s hs
  rcases hspans s hs with hmark | ⟨hflag, hlt⟩
  · rw [Span.filter_of_mark fun t ht => (Span.flag_of_clip? ht).trans hmark,
      Span.filter_of_mark fun t ht => (Span.flag_of_cut? ht).trans hmark]
  · rw [Span.clip?_zero_eq_cut? hflag hlt (h s hs).2]

/-- **Copying the beginning and taking out the end agree.** For every buffer in bounds whose spans
are marks or exclusive spans with some width, and every offset in its text: the copy of what stands
in front of the offset and the buffer without what stands behind it have the same text, and the same
annotations in the same order. -/
theorem copy_shows_what_is_left (hb : b.InBounds)
    (hspans : ∀ s ∈ b.spans, s.flag = .mark ∨ s.flag = .exclusive ∧ s.start < s.stop)
    (hn : n ≤ b.length) :
    ∃ part rest, b.subsequence 0 n = .ok part ∧ b.delete n b.length = .ok rest ∧
      part.text = rest.text ∧ part.annotations = rest.annotations := by
  refine ⟨b.clip 0 n, b.cut n b.length, subsequence_of_le (Nat.zero_le n) hn,
    delete_of_le hn (Nat.le_refl _), ?_, annotations_clip_zero hb hspans n⟩
  rw [text_clip, text_cut, length, List.drop_zero, List.drop_length, List.append_nil]

theorem copy_shows_what_is_left_equalRanges :
    let b : Buffer Nat := ⟨"abcd".toList,
      [⟨0, 3, 3, .mark⟩, ⟨1, 1, 3, .exclusive⟩, ⟨2, 2, 4, .exclusive⟩, ⟨3, 0, 2, .mark⟩,
        ⟨4, 1, 4, .exclusive⟩]⟩
    b.InBounds ∧ (∀ s ∈ b.spans, s.flag = .mark ∨ s.flag = .exclusive ∧ s.start < s.stop) ∧
    2 ≤ b.length ∧
    ∃ part rest, b.subsequence 0 2 = .ok part ∧ b.delete 2 4 = .ok rest ∧
      part.text = rest.text ∧ part.annotations = rest.annotations ∧
      rest.annotations = [⟨1, 1, 2, .exclusive⟩, ⟨4, 1, 2, .exclusive⟩] ∧ part ≠ rest := by
  intro b
  have hb : b.InBounds := by decide
  have hspans : ∀ s ∈ b.spans, s.flag = .mark ∨ s.flag = .exclusive ∧ s.start < s.stop := by decide
  have hn : 2 ≤ b.length := by decide
  obtain ⟨part, rest, hpart, hrest, htext, hannotations⟩ := copy_shows_what_is_left hb hspans hn
  refine ⟨hb, hspans, hn, part, rest, hpart, hrest, htext, hannotations, ?_, ?_⟩
  · cases hrest
    decide
  · cases hpart
    cases hrest
    decide

end Buffer

end StyledText
