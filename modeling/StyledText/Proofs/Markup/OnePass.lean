import Mathlib.Data.List.Infix
import StyledText.Proofs.Markup.Rename

/-!
# Renaming in one pass

Eight replacements come one after another when names are reserved, each over the whole markup. They
amount to one pass from left to right that looks for all eight patterns at once (`Text.rewrite`).
For such a pass more can be said as long as the rules are **apart** (`Text.Apart`): every pattern
and every image is a bracket with no second one behind it, and none of them begins like another.
Then a rewritten text holds no pattern any more (`Text.not_infix_rewrite`), so a second pass finds
nothing to do; and the pass the other way round brings a text back just if it held none of the
images (`Text.rewrite_flip_rewrite_iff`).
-/

namespace StyledText

namespace Text

/-! ## One pass -/

/-- A pattern and what comes into its place. -/
structure Rule where
  pattern : Pattern
  image : Pattern
  deriving DecidableEq, Repr

/-- The rule the other way round. -/
def Rule.flip (r : Rule) : Rule := ⟨r.image, r.pattern⟩

/-- The text after one pass from left to right: where the pattern of a rule stands, of the first one
if there are several, its image comes into the place, and the pass goes on behind it. -/
def rewrite (rules : List Rule) : Text → Text
  | [] => []
  | c :: t =>
    match rules.find? (·.pattern.atStart (c :: t)) with
    | some r => r.image.toText ++ rewrite rules (t.drop r.pattern.rest.length)
    | none => c :: rewrite rules t
termination_by t => t.length
decreasing_by
  · simp only [List.length_drop, List.length_cons]; omega
  · simp

/-- Rules whose patterns and images all begin with `b`, hold no second one, and do not begin
alike. -/
structure Apart (b : Char) (rules : List Rule) : Prop where
  pattern : ∀ r ∈ rules, r.pattern.first = b ∧ b ∉ r.pattern.rest
  image : ∀ r ∈ rules, r.image.first = b ∧ b ∉ r.image.rest
  patterns : ∀ r ∈ rules, ∀ r' ∈ rules, r.pattern.rest <+: r'.pattern.rest → r = r'
  images : ∀ r ∈ rules, ∀ r' ∈ rules, r.image.rest <+: r'.image.rest → r = r'
  both : ∀ r ∈ rules, ∀ r' ∈ rules,
    ¬ r.pattern.rest <+: r'.image.rest ∧ ¬ r'.image.rest <+: r.pattern.rest

/-- Rules that are apart are so the other way round, since all that is asked of patterns is asked of
images too. -/
theorem Apart.flip {b : Char} {rules : List Rule} (h : Apart b rules) :
    Apart b (rules.map Rule.flip) := by
  refine ⟨?_, ?_, ?_, ?_, ?_⟩ <;> simp only [List.forall_mem_map]
  · exact h.image
  · exact h.pattern
  · exact fun r hr r' hr' hpre => congrArg Rule.flip (h.images r hr r' hr' hpre)
  · exact fun r hr r' hr' hpre => congrArg Rule.flip (h.patterns r hr r' hr' hpre)
  · exact fun r hr r' hr' => (h.both r' hr' r hr).symm

/-- What begins neither like a text nor as the beginning of it does not begin a longer one. -/
theorem not_prefix_append {s t : Text} (h : ¬ s <+: t ∧ ¬ t <+: s) (u : Text) : ¬ s <+: t ++ u :=
  fun hpre => (List.prefix_or_prefix_of_prefix hpre (List.prefix_append t u)).elim h.1 h.2

/-- A text that begins with `b` and stands behind one without it stands in the rest. -/
theorem infix_append_of_notMem {b : Char} {s t w : Text} (hs : b ∉ s) (h : b :: w <:+: s ++ t) :
    b :: w <:+: t := by
  induction s with
  | nil => exact h
  | cons c s ih =>
    obtain ⟨hc, hs⟩ := not_or.mp (mt List.mem_cons.mpr hs)
    rcases List.infix_cons_iff.mp h with hpre | hin
    · exact absurd (List.cons_prefix_cons.mp hpre).1 hc
    · exact ih hs hin

section

variable {b c : Char} {rules : List Rule} {r r' : Rule} {s t u w : Text}

theorem rewrite_nil (rules : List Rule) : rewrite rules [] = [] := by rw [rewrite]

/-- Miss. A character that begins no pattern stays, and the pass goes on behind it. -/
theorem rewrite_cons (h : ∀ r ∈ rules, ¬ (r.pattern.first = c ∧ r.pattern.rest <+: t)) :
    rewrite rules (c :: t) = c :: rewrite rules t := by
  have hnone : rules.find? (·.pattern.atStart (c :: t)) = none := by
    refine List.find?_eq_none.mpr fun r hr => ?_
    have hmiss := h r hr
    simp only [Pattern.atStart, Bool.and_eq_true, decide_eq_true_eq, List.isPrefixOf_iff_prefix]
    exact fun hstart => hmiss ⟨hstart.1.symm, hstart.2⟩
  rw [rewrite, hnone]

namespace Apart

/-- Hit. The image comes into the place of the pattern, and the pass goes on behind it. As no
pattern begins like another, there is only one that may have been meant. -/
theorem rewrite_hit (h : Apart b rules) (hr : r ∈ rules) (t : Text) :
    rewrite rules (b :: (r.pattern.rest ++ t)) = b :: (r.image.rest ++ rewrite rules t) := by
  obtain ⟨r', hfind⟩ : ∃ r', rules.find? (·.pattern.atStart (b :: (r.pattern.rest ++ t))) =
      some r' := by
    refine Option.isSome_iff_exists.mp (List.find?_isSome.mpr ⟨r, hr, ?_⟩)
    simp [Pattern.atStart, (h.pattern r hr).1, List.isPrefixOf_iff_prefix]
  have hr' := List.mem_of_find?_eq_some hfind
  have hstart := List.find?_some hfind
  simp only [Pattern.atStart, Bool.and_eq_true, List.isPrefixOf_iff_prefix] at hstart
  -- of two patterns that stand at one place one begins like the other
  have hsame : r' = r := by
    rcases List.prefix_or_prefix_of_prefix hstart.2 (List.prefix_append _ t) with hpre | hpre
    · exact h.patterns r' hr' r hr hpre
    · exact (h.patterns r hr r' hr' hpre).symm
  subst hsame
  rw [rewrite, hfind]
  simp only [Pattern.toText, (h.image r' hr).1, List.drop_left, List.cons_append]

/-- Miss, at a character with which no pattern begins. -/
theorem rewrite_other (h : Apart b rules) (hc : c ≠ b) (t : Text) :
    rewrite rules (c :: t) = c :: rewrite rules t :=
  rewrite_cons fun r hr hstart => hc (hstart.1.symm.trans (h.pattern r hr).1)

/-- Miss, at a bracket behind which no pattern goes on. -/
theorem rewrite_miss (h : ∀ r ∈ rules, ¬ r.pattern.rest <+: t) (b : Char) :
    rewrite rules (b :: t) = b :: rewrite rules t :=
  rewrite_cons fun r hr hstart => h r hr hstart.2

/-- Text without a `b` stays, and what stands behind it is rewritten by itself. -/
theorem rewrite_append_of_notMem (h : Apart b rules) (hs : b ∉ s) (t : Text) :
    rewrite rules (s ++ t) = s ++ rewrite rules t := by
  induction s with
  | nil => rfl
  | cons c s ih =>
    obtain ⟨hc, hs⟩ := not_or.mp (mt List.mem_cons.mpr hs)
    rw [List.cons_append, h.rewrite_other (Ne.symm hc), ih hs, List.cons_append]

/-- A text is run over in three kinds of step: over another character than `b`, over a pattern, and
over a `b` that begins none. -/
theorem induction {P : Text → Prop} (h : Apart b rules) (hnil : P [])
    (hother : ∀ c t, c ≠ b → P t → P (c :: t))
    (hhit : ∀ r ∈ rules, ∀ t, P t → P (b :: (r.pattern.rest ++ t)))
    (hmiss : ∀ t, (∀ r ∈ rules, ¬ r.pattern.rest <+: t) → P t → P (b :: t)) (t : Text) : P t := by
  induction hlength : t.length using Nat.strongRecOn generalizing t with
  | _ n ih =>
    rcases t with _ | ⟨c, t⟩
    · exact hnil
    rw [List.length_cons] at hlength
    by_cases hc : c = b
    · subst hc
      by_cases hbegins : ∃ r ∈ rules, r.pattern.rest <+: t
      · obtain ⟨r, hr, u, rfl⟩ := hbegins
        rw [List.length_append] at hlength
        exact hhit r hr u (ih u.length (by omega) u rfl)
      · simp only [not_exists, not_and] at hbegins
        exact hmiss t hbegins (ih t.length (by omega) t rfl)
    · exact hother c t hc (ih t.length (by omega) t rfl)

/-- A text begins as before, up to the first `b`, so no pattern can come about by what is put in. -/
theorem prefix_rewrite_iff (h : Apart b rules) (hw : b ∉ w) :
    w <+: rewrite rules t ↔ w <+: t := by
  induction w generalizing t with
  | nil => simp
  | cons x w ih =>
    obtain ⟨hx, hw⟩ := not_or.mp (mt List.mem_cons.mpr hw)
    have hbracket (u : Text) : ¬ x :: w <+: b :: u :=
      fun hpre => hx (List.cons_prefix_cons.mp hpre).1.symm
    refine h.induction (P := fun t => x :: w <+: rewrite rules t ↔ x :: w <+: t) ?_ ?_ ?_ ?_ t
    · rw [rewrite_nil]
    · intro c t hc _
      rw [h.rewrite_other hc, List.cons_prefix_cons, List.cons_prefix_cons, ih hw]
    · intro r hr t _
      rw [h.rewrite_hit hr]
      exact iff_of_false (hbracket _) (hbracket _)
    · intro t ht _
      rw [rewrite_miss ht]
      exact iff_of_false (hbracket _) (hbracket _)

end Apart

/-! ## What a pass leaves -/

/-- **No pattern is left.** What comes in begins like no pattern, and what stays begins as
before. -/
theorem not_infix_rewrite (h : Apart b rules) (hr : r ∈ rules) (t : Text) :
    ¬ r.pattern.toText <:+: rewrite rules t := by
  obtain ⟨hfirst, hrest⟩ := h.pattern r hr
  rw [Pattern.toText, hfirst]
  refine h.induction (P := fun t => ¬ b :: r.pattern.rest <:+: rewrite rules t) ?_ ?_ ?_ ?_ t
  · rw [rewrite_nil]
    exact fun hin => absurd (List.eq_nil_of_infix_nil hin) (List.cons_ne_nil _ _)
  · intro c t hc ih hin
    rw [h.rewrite_other hc] at hin
    exact ih (infix_append_of_notMem (s := [c]) (by simpa using Ne.symm hc) hin)
  · intro r' hr' t ih hin
    rw [h.rewrite_hit hr'] at hin
    rcases List.infix_cons_iff.mp hin with hpre | hin
    · exact not_prefix_append (h.both r hr r' hr') _ (List.cons_prefix_cons.mp hpre).2
    · exact ih (infix_append_of_notMem (h.image r' hr').2 hin)
  · intro t ht ih hin
    rw [Apart.rewrite_miss ht] at hin
    rcases List.infix_cons_iff.mp hin with hpre | hin
    · exact ht r hr ((h.prefix_rewrite_iff hrest).mp (List.cons_prefix_cons.mp hpre).2)
    · exact ih hin

/-- A text without patterns stays as it is, by the three kinds of step. -/
theorem rewrite_of_not_infix (h : Apart b rules) :
    (∀ r ∈ rules, ¬ r.pattern.toText <:+: t) → rewrite rules t = t := by
  refine h.induction
    (P := fun t => (∀ r ∈ rules, ¬ r.pattern.toText <:+: t) → rewrite rules t = t) ?_ ?_ ?_ ?_ t
  · exact fun _ => rewrite_nil rules
  · intro c t hc ih hnot
    rw [h.rewrite_other hc, ih fun r hr hin => hnot r hr (List.infix_cons hin)]
  · intro r hr t _ hnot
    refine absurd ?_ (hnot r hr)
    rw [Pattern.toText, (h.pattern r hr).1]
    exact (List.prefix_append (b :: r.pattern.rest) t).isInfix
  · intro t ht ih hnot
    rw [Apart.rewrite_miss ht, ih fun r hr hin => hnot r hr (List.infix_cons hin)]

/-- The pass the other way round brings back a text without images: each image that it meets has
been put in. -/
theorem rewrite_flip_rewrite (h : Apart b rules) :
    (∀ r ∈ rules, ¬ r.image.toText <:+: t) →
      rewrite (rules.map Rule.flip) (rewrite rules t) = t := by
  have hflip := h.flip
  refine h.induction (P := fun t => (∀ r ∈ rules, ¬ r.image.toText <:+: t) →
    rewrite (rules.map Rule.flip) (rewrite rules t) = t) ?_ ?_ ?_ ?_ t
  · intro _
    rw [rewrite_nil, rewrite_nil]
  · intro c t hc ih hnot
    rw [h.rewrite_other hc, hflip.rewrite_other hc,
      ih fun r hr hin => hnot r hr (List.infix_cons hin)]
  · intro r hr t ih hnot
    have hback : rewrite (rules.map Rule.flip) (b :: (r.image.rest ++ rewrite rules t)) =
        b :: (r.pattern.rest ++ rewrite (rules.map Rule.flip) (rewrite rules t)) :=
      hflip.rewrite_hit (List.mem_map_of_mem hr) _
    have hsuffix : t <:+ b :: (r.pattern.rest ++ t) :=
      ((List.suffix_append _ t).trans (List.suffix_cons b _))
    rw [h.rewrite_hit hr, hback,
      ih fun r' hr' hin => hnot r' hr' (hin.trans hsuffix.isInfix)]
  · intro t ht ih hnot
    -- an image that began here would have been in the text before, as beginnings do not change
    have hmiss : ∀ r ∈ rules.map Rule.flip, ¬ r.pattern.rest <+: rewrite rules t := by
      simp only [List.forall_mem_map]
      intro r hr hpre
      refine hnot r hr ?_
      obtain ⟨hfirst, hrest⟩ := h.image r hr
      rw [Pattern.toText, hfirst]
      exact (List.cons_prefix_cons.mpr ⟨rfl, (h.prefix_rewrite_iff hrest).mp hpre⟩).isInfix
    rw [Apart.rewrite_miss ht, Apart.rewrite_miss hmiss,
      ih fun r hr hin => hnot r hr (List.infix_cons hin)]

/-- **The pass the other way round** brings a text back just if it held no image. -/
theorem rewrite_flip_rewrite_iff (h : Apart b rules) :
    rewrite (rules.map Rule.flip) (rewrite rules t) = t ↔ ∀ r ∈ rules, ¬ r.image.toText <:+: t := by
  refine ⟨fun hback r hr => ?_, rewrite_flip_rewrite h⟩
  rw [← hback]
  exact not_infix_rewrite h.flip (List.mem_map_of_mem (f := Rule.flip) hr) _

end

end Text

/-! ## Tags -/

namespace Markup

namespace Renamed

/-- Start tags are renamed by the beginning of their name alone, so other names that begin like it
are changed as well. -/
def startRule (r : Renamed) : Text.Rule := ⟨r.startPattern, ⟨'<', r.reserved⟩⟩

/-- End tags are renamed only where the bracket follows the name at once. -/
def endRule (r : Renamed) : Text.Rule := ⟨r.endPattern, ⟨'<', '/' :: r.reserved ++ ['>']⟩⟩

end Renamed

/-- All tags of renamed elements are renamed, start tags and end tags. -/
def tagRules : List Text.Rule := Renamed.all.flatMap fun r => [r.startRule, r.endRule]

example : tagRules.map (·.pattern.toText) = ["<ul".toList, "</ul>".toList, "<ol".toList,
    "</ol>".toList, "<li".toList, "</li>".toList, "<a".toList, "</a>".toList] := by decide

/-- Every rule is that of the start tags of an element or that of its end tags. -/
theorem mem_tagRules_iff {rule : Text.Rule} :
    rule ∈ tagRules ↔ ∃ r : Renamed, rule = r.startRule ∨ rule = r.endRule := by
  simp only [tagRules, List.mem_flatMap, List.mem_cons, List.not_mem_nil, or_false]
  exact exists_congr fun r => and_iff_right r.mem_all

/-- The rules are apart: all patterns and images begin with the one bracket that they hold, and none
goes on like another. -/
theorem tagRules_apart : Text.Apart '<' tagRules where
  pattern := by decide
  image := by decide
  patterns := by decide
  images := by decide
  both := by decide

/-- **One replacement after another amounts to one pass.** -/
theorem reserveTags_eq_rewrite (t : Text) : reserveTags t = Text.rewrite tagRules t := by
  refine tagRules_apart.induction
    (P := fun t => reserveTags t = Text.rewrite tagRules t) ?_ ?_ ?_ ?_ t
  · rw [Text.rewrite_nil, reserveTags_of_notMem List.not_mem_nil]
  · intro c t hc ih
    rw [tagRules_apart.rewrite_other hc, ← ih]
    exact reserveTags_append_of_notMem (s := [c]) (by simpa using Ne.symm hc) t
  · intro rule hrule t ih
    rw [tagRules_apart.rewrite_hit hrule, ← ih]
    obtain ⟨r, rfl | rfl⟩ := mem_tagRules_iff.mp hrule
    · exact reserveTags_start r t
    · simpa [Renamed.endRule, Renamed.endPattern] using reserveTags_end r t
  · intro t ht ih
    rw [Text.Apart.rewrite_miss ht, ← ih]
    refine reserveTags_of_not_begins fun r hbegins => ?_
    rcases hbegins with hstart | hend
    · exact ht _ (mem_tagRules_iff.mpr ⟨r, .inl rfl⟩) hstart
    · exact ht _ (mem_tagRules_iff.mpr ⟨r, .inr rfl⟩) hend

/-- The placeholder is no reserved tag, so nothing is put back there. -/
theorem rewrite_flip_placeholder (t : Text) :
    Text.rewrite (tagRules.map Text.Rule.flip) (placeholder ++ t) =
      placeholder ++ Text.rewrite (tagRules.map Text.Rule.flip) t := by
  have hflip := tagRules_apart.flip
  have hstart : ∀ r ∈ tagRules.map Text.Rule.flip,
      ¬ r.pattern.rest <+: placeholderName ++ ['>'] ∧
        ¬ placeholderName ++ ['>'] <+: r.pattern.rest := by
    decide +kernel
  have hend : ∀ r ∈ tagRules.map Text.Rule.flip,
      ¬ r.pattern.rest <+: '/' :: placeholderName ++ ['>'] ∧
        ¬ '/' :: placeholderName ++ ['>'] <+: r.pattern.rest := by
    decide +kernel
  have hsplit (u : Text) : placeholder ++ u = '<' :: (placeholderName ++ ['>'] ++
      '<' :: ('/' :: placeholderName ++ ['>'] ++ u)) := by
    simp [placeholder]
  rw [hsplit, hsplit,
    Text.Apart.rewrite_miss fun r hr => Text.not_prefix_append (hstart r hr) _,
    hflip.rewrite_append_of_notMem (by decide),
    Text.Apart.rewrite_miss fun r hr => Text.not_prefix_append (hend r hr) _,
    hflip.rewrite_append_of_notMem (by decide)]

/-- The beginnings of all reserved tags, of start tags and of end tags. -/
def reservedBeginnings : List Text :=
  ["<HTML_TEXTVIEW_ESCAPED_".toList, "</HTML_TEXTVIEW_ESCAPED_".toList]

/-- **Reserving names is one pass**, behind the placeholder, that renames all tags at once. It
leaves none of the tags that are renamed, so to reserve names again only puts another placeholder in
front. The pass the other way round brings the markup back if and only if no reserved tag was in it,
for instance if nothing began like one. -/
theorem reserveNames_one_pass (t : Text) :
    reserveNames t = placeholder ++ Text.rewrite tagRules t ∧
      (∀ rule ∈ tagRules, ¬ rule.pattern.toText <:+: reserveNames t) ∧
      reserveNames (reserveNames t) = placeholder ++ reserveNames t ∧
      (Text.rewrite (tagRules.map Text.Rule.flip) (reserveNames t) = placeholder ++ t ↔
        ∀ rule ∈ tagRules, ¬ rule.image.toText <:+: t) ∧
      ((∀ w ∈ reservedBeginnings, ¬ w <:+: t) →
        Text.rewrite (tagRules.map Text.Rule.flip) (reserveNames t) = placeholder ++ t) := by
  have hpass (u : Text) : reserveNames u = placeholder ++ Text.rewrite tagRules u := by
    rw [reserveNames_eq, reserveTags_eq_rewrite]
  have hnone : ∀ rule ∈ tagRules, ¬ rule.pattern.toText <:+: reserveNames t := by
    intro rule hrule
    have hwhole : reserveNames t = Text.rewrite tagRules (placeholder ++ t) :=
      reserveTags_eq_rewrite (placeholder ++ t)
    rw [hwhole]
    exact Text.not_infix_rewrite tagRules_apart hrule _
  have hback : Text.rewrite (tagRules.map Text.Rule.flip) (reserveNames t) = placeholder ++ t ↔
      ∀ rule ∈ tagRules, ¬ rule.image.toText <:+: t := by
    rw [hpass, rewrite_flip_placeholder, List.append_cancel_left_eq]
    exact Text.rewrite_flip_rewrite_iff tagRules_apart
  refine ⟨hpass t, hnone, ?_, hback, fun hw => hback.mpr fun rule hrule hin => ?_⟩
  · rw [hpass (reserveNames t), Text.rewrite_of_not_infix tagRules_apart hnone]
  · have hbegins : ∀ rule ∈ tagRules, ∃ w ∈ reservedBeginnings, w <+: rule.image.toText := by
      decide +kernel
    obtain ⟨w, hmem, hpre⟩ := hbegins rule hrule
    exact hw w hmem (hpre.isInfix.trans hin)

/-- Tags that begin alike, an end tag with a blank, a bracket that begins nothing, and tags in a
comment. -/
def mixedTags : Text := "<ul><abbr></ul ></a><<li><!--</ol>--><A>".toList

theorem reserveNames_one_pass_mixedTags :
    (∀ w ∈ reservedBeginnings, ¬ w <:+: mixedTags) ∧
      reserveNames mixedTags = placeholder ++ ("<HTML_TEXTVIEW_ESCAPED_UL_TAG>".toList ++
        "<HTML_TEXTVIEW_ESCAPED_A_TAGbbr></ul ></HTML_TEXTVIEW_ESCAPED_A_TAG>".toList ++
        "<<HTML_TEXTVIEW_ESCAPED_LI_TAG><!--</HTML_TEXTVIEW_ESCAPED_OL_TAG>--><A>".toList) ∧
      (∀ rule ∈ tagRules, ¬ rule.pattern.toText <:+: reserveNames mixedTags) ∧
      reserveNames (reserveNames mixedTags) = placeholder ++ reserveNames mixedTags ∧
      Text.rewrite (tagRules.map Text.Rule.flip) (reserveNames mixedTags) =
        placeholder ++ mixedTags := by
  have hw : ∀ w ∈ reservedBeginnings, ¬ w <:+: mixedTags := by decide +kernel
  obtain ⟨-, hnone, hagain, -, hback⟩ := reserveNames_one_pass mixedTags
  exact ⟨hw, by decide +kernel, hnone, hagain, hback hw⟩

end Markup

end StyledText
