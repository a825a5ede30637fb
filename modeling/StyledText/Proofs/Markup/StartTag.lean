import StyledText.Markup.StartTag

/-!
# Start tags in their surroundings

A start tag is read up to its closing bracket, and what stands behind that hardly matters: only for
a quote that is not closed inside the tag does the reader look further, and finds a quote there or
none. So a tag is read in the same way in front of two texts with the same quotes
(`StartTag.read_of_sameQuotes`), and its name may be exchanged for another of its kind.
-/

namespace StyledText

namespace Markup

namespace StartTag

variable {t t' : Text} {q : Char}

/-- Two texts in which the same quotes occur; a reader that looks for a quote beyond the tag finds
one in both or in none. -/
def SameQuotes (t t' : Text) : Prop := ∀ q, isQuote q = true → (q ∈ t ↔ q ∈ t')

/-- A text has the quotes that it has, for a tag that is exchanged in its own surroundings. -/
theorem SameQuotes.refl (t : Text) : SameQuotes t t := fun _ _ => Iff.rfl

theorem ne_bracket_of_isQuote (h : isQuote q = true) : q ≠ '>' := by
  rintro rfl
  exact absurd h (by decide)

/-! ## Up to the bracket -/

/-- Dropping characters other than the bracket goes no further than the bracket, and so it leaves
what stands behind alone. -/
theorem dropWhile_bracket {p : Char → Bool} (hp : p '>' = false) (a t : Text) :
    (a ++ '>' :: t).dropWhile p = a.dropWhile p ++ '>' :: t := by
  induction a with
  | nil => simp [hp]
  | cons c a ih =>
    cases hc : p c with
    | true => simpa [hc] using ih
    | false => simp [hc]

/-- Taking characters other than the bracket does not depend on what stands behind it. -/
theorem takeWhile_bracket {p : Char → Bool} (hp : p '>' = false) (a t : Text) :
    (a ++ '>' :: t).takeWhile p = a.takeWhile p := by
  induction a with
  | nil => simp [hp]
  | cons c a ih =>
    cases hc : p c with
    | true => simpa [hc] using ih
    | false => simp [hc]

/-- The first character of a text stands before the bracket or is the bracket. -/
theorem head?_bracket (a t t' : Text) : (a ++ '>' :: t).head? = (a ++ '>' :: t').head? := by
  cases a <;> rfl

/-- A gap ends inside the tag, at the same place in front of all texts. -/
theorem exists_skipGap (a : Text) : ∃ b : Text, ∀ t, skipGap (a ++ '>' :: t) = b ++ '>' :: t := by
  induction a with
  | nil => exact ⟨[], fun t => by simp [skipGap, show Text.isBlank '>' = false by decide]⟩
  | cons c a ih =>
    obtain ⟨b, hb⟩ := ih
    -- a slash right before the bracket closes the tag and is no gap
    by_cases hclose : c = '/' ∧ ∀ x ∈ a.head?, x = '>'
    · obtain ⟨rfl, ha⟩ := hclose
      refine ⟨'/' :: a, fun t => ?_⟩
      cases a with
      | nil => rfl
      | cons d a =>
        obtain rfl := ha d rfl
        rfl
    · have hskip (t : Text) : skipGap (c :: a ++ '>' :: t) =
          if Text.isBlank c || c = '/' then skipGap (a ++ '>' :: t) else c :: (a ++ '>' :: t) := by
        rw [List.cons_append, skipGap]
        rintro u rfl hu
        refine hclose ⟨rfl, fun x hx => ?_⟩
        obtain ⟨a', rfl⟩ := List.head?_eq_some_iff.mp hx
        exact (List.cons.inj hu).1
      cases hc : Text.isBlank c || c = '/' with
      | true => exact ⟨b, fun t => by rw [hskip, if_pos hc, hb]⟩
      | false => exact ⟨c :: a, fun t => by rw [hskip, hc]; rfl⟩

/-- Whether a gap comes first is seen before the bracket. -/
theorem startsWithGap_bracket (a t t' : Text) :
    startsWithGap (a ++ '>' :: t) = startsWithGap (a ++ '>' :: t') := by
  obtain ⟨b, hb⟩ := exists_skipGap a
  rw [Bool.eq_iff_iff, startsWithGap_iff, startsWithGap_iff, hb, hb, Ne, Ne, List.append_left_inj,
    List.append_left_inj]

/-! ## Values and attributes -/

/-- Two readings of the same piece, in front of `t` and of `t'`: they agree and leave the same
inside of the tag, or the first goes beyond the bracket. -/
inductive Value.Agree (t t' : Text) (v v' : Value) : Prop
  | inside (b : Text) (htext : v'.text = v.text) (hparted : v'.parted = v.parted)
      (hrest : v.rest = b ++ '>' :: t) (hrest' : v'.rest = b ++ '>' :: t')
  | beyond (h : v.rest.length ≤ t.length)

/-- A value without quotes ends at the bracket or before, so it is always read inside the tag. -/
theorem readBare_agree (a t t' : Text) :
    Value.Agree t t' (readBare (a ++ '>' :: t)) (readBare (a ++ '>' :: t')) := by
  have hp : (!endsBare '>') = false := by decide
  refine .inside (a.dropWhile (!endsBare ·)) ?_ rfl (dropWhile_bracket hp a t)
    (dropWhile_bracket hp a t')
  exact (takeWhile_bracket hp a t').trans (takeWhile_bracket hp a t).symm

/-- A value in quotes ends at the first such quote, which may stand beyond the bracket. Then it is
read beyond in both texts, as they have the same quotes. -/
theorem readAfterEquals_agree (hquotes : SameQuotes t t') (several parted : Bool) (b a : Text) :
    Value.Agree t t' (readAfterEquals several parted (b ++ '>' :: t) (a ++ '>' :: t))
      (readAfterEquals several parted (b ++ '>' :: t') (a ++ '>' :: t')) := by
  have hblank : Text.isBlank '>' = false := by decide
  simp only [readAfterEquals, dropWhile_bracket hblank]
  rcases a.dropWhile Text.isBlank with _ | ⟨q, body⟩
  · exact readBare_agree [] t t'
  simp only [List.cons_append]
  cases hq : isQuote q with
  | false => exact readBare_agree (q :: body) t t'
  | true =>
    have hne : q ≠ '>' := ne_bracket_of_isQuote hq
    by_cases hbody : q ∈ body
    · obtain ⟨l, r, rfl, hl⟩ := List.eq_append_cons_of_mem hbody
      simp only [List.append_assoc, List.cons_append, Text.cut?_append_cons hl, if_true]
      exact .inside r rfl rfl rfl rfl
    · -- the quote is not closed inside the tag, so it is looked for beyond
      have hinside (t : Text) (ht : q ∉ t) : Text.cut? q (body ++ '>' :: t) = none :=
        Text.cut?_eq_none (by simp [hbody, hne, ht])
      by_cases ht : q ∈ t
      · -- closed beyond the bracket, so the value takes the bracket with it
        obtain ⟨l, r, rfl, hl⟩ := List.eq_append_cons_of_mem ht
        have hcut : Text.cut? q (body ++ '>' :: (l ++ q :: r)) = some (body ++ '>' :: l, r) := by
          have hl' : q ∉ body ++ '>' :: l := by simp [hbody, hne, hl]
          simpa using Text.cut?_append_cons hl' r
        simp only [hcut, if_true]
        exact .beyond (by simp; omega)
      · simp only [hinside t ht, hinside t' (mt (hquotes q hq).mpr ht), if_true,
          head?_bracket a t' t]
        split
        · exact .inside (q :: body) rfl rfl rfl rfl
        · split
          · exact readBare_agree ('=' :: q :: body) t t'
          · exact .inside b rfl rfl rfl rfl

/-- Without an equals sign there is no value, and nothing is read at all. -/
theorem readValue_of_ne {u : Text} (h : (u.dropWhile Text.isBlank).head? ≠ some '=')
    (parted : Bool) : readValue parted u = ⟨[], parted, u⟩ := by
  rw [readValue]
  split
  next r hr => exact absurd (congrArg List.head? hr) h
  next => rfl

/-- A value is read alike in front of both texts or goes beyond the bracket, whether there is one
behind an equals sign or none. -/
theorem readValue_agree (hquotes : SameQuotes t t') (parted : Bool) (a : Text) :
    Value.Agree t t' (readValue parted (a ++ '>' :: t)) (readValue parted (a ++ '>' :: t')) := by
  have hblank : Text.isBlank '>' = false := by decide
  by_cases h : ((a ++ '>' :: t).dropWhile Text.isBlank).head? = some '='
  · rw [dropWhile_bracket hblank] at h
    obtain ⟨r, hr⟩ : ∃ r, a.dropWhile Text.isBlank = '=' :: r := by
      rcases hd : a.dropWhile Text.isBlank with _ | ⟨c, r⟩
      · rw [hd] at h
        exact absurd h (by simp)
      · rw [hd] at h
        obtain rfl : c = '=' := Option.some.inj h
        exact ⟨r, rfl⟩
    simp only [readValue, dropWhile_bracket hblank, hr, List.cons_append,
      dropWhile_bracket (p := (· = '=')) (by decide), head?_bracket r t' t]
    exact readAfterEquals_agree hquotes _ parted a _
  · have h' : ((a ++ '>' :: t').dropWhile Text.isBlank).head? ≠ some '=' := by
      rwa [dropWhile_bracket hblank, head?_bracket _ t' t, ← dropWhile_bracket hblank]
    rw [readValue_of_ne h, readValue_of_ne h']
    exact .inside a rfl rfl rfl rfl

/-- An attribute is read alike in front of both texts, or goes beyond the bracket; or there is none
in either place. -/
theorem readAttribute?_agree (hquotes : SameQuotes t t') (parted : Bool) (a : Text) :
    readAttribute? parted (a ++ '>' :: t) = none ∧ readAttribute? parted (a ++ '>' :: t') = none ∨
      ∃ x parted' rest, readAttribute? parted (a ++ '>' :: t) = some (x, parted', rest) ∧
        (rest.length ≤ t.length ∨ ∃ b : Text, rest = b ++ '>' :: t ∧ b.length < a.length ∧
          readAttribute? parted (a ++ '>' :: t') = some (x, parted', b ++ '>' :: t')) := by
  have hends : (!endsAttribute '>') = false := by decide
  rcases a with _ | ⟨c, a⟩
  · exact .inl ⟨by simp [readAttribute?], by simp [readAttribute?]⟩
  simp only [List.cons_append, readAttribute?, dropWhile_bracket (p := (!endsAttribute ·)) hends,
    takeWhile_bracket (p := (!endsAttribute ·)) hends]
  cases parted && !(Text.isBlank c || c = '/' || c = '>') with
  | false => exact .inl ⟨rfl, rfl⟩
  | true =>
    refine .inr ⟨_, _, _, rfl, ?_⟩
    rcases readValue_agree hquotes ((c :: a.takeWhile (!endsAttribute ·)).getLast?.any isQuote)
      (a.dropWhile (!endsAttribute ·)) with ⟨b, htext, hparted, hrest, hrest'⟩ | hbeyond
    · obtain ⟨b', hb'⟩ := exists_skipGap b
      refine .inr ⟨b', ?_, ?_, ?_⟩
      · rw [hrest, hb']
      · -- the attribute and the gap after it have taken a character at least
        have hle := length_rest_readValue_le
          ((c :: a.takeWhile (!endsAttribute ·)).getLast?.any isQuote)
          (a.dropWhile (!endsAttribute ·) ++ '>' :: t)
        have hskip := length_skipGap_le (b ++ '>' :: t)
        have hdrop := length_dropWhile_le (!endsAttribute ·) a
        rw [hrest] at hle
        rw [hb'] at hskip
        simp only [List.length_append, List.length_cons] at *
        omega
      · rw [htext, hparted, hrest, hrest', hb', startsWithGap_bracket b t' t]
        rfl
    · exact .inl (Nat.le_trans (length_skipGap_le _) hbeyond)

/-- What follows the attributes is no longer than the text, since each attribute takes some of
it. -/
theorem length_readAttributes_le (parted : Bool) (u : Text) :
    (readAttributes parted u).2.length ≤ u.length := by
  fun_induction readAttributes parted u with
  | case1 parted u h => exact Nat.le_refl _
  | case2 parted u a parted' rest h as rest' hrest ih =>
    have hlt := length_rest_of_readAttribute? h
    rw [hrest] at ih
    exact Nat.le_trans ih (Nat.le_of_lt hlt)

theorem readAttributes_of_none {parted : Bool} {u : Text} (h : readAttribute? parted u = none) :
    readAttributes parted u = ([], u) := by
  rw [readAttributes]
  split
  next => rfl
  next heq => cases h.symm.trans heq

theorem readAttributes_of_some {parted parted' : Bool} {u rest : Text} {x : Text × Text}
    (h : readAttribute? parted u = some (x, parted', rest)) :
    readAttributes parted u =
      (x :: (readAttributes parted' rest).1, (readAttributes parted' rest).2) := by
  rw [readAttributes]
  split
  next heq => cases h.symm.trans heq
  next heq =>
    cases h.symm.trans heq
    rfl

/-- The attributes of a tag are read alike in front of both texts, or they go beyond the bracket. By
induction over the length of what stands before the bracket, which every attribute makes shorter. -/
theorem readAttributes_agree (hquotes : SameQuotes t t') (parted : Bool) (a : Text) :
    (readAttributes parted (a ++ '>' :: t)).2.length ≤ t.length ∨
      ∃ (as : List (Text × Text)) (b : Text), readAttributes parted (a ++ '>' :: t) = (as, b ++ '>' :: t) ∧
        readAttributes parted (a ++ '>' :: t') = (as, b ++ '>' :: t') := by
  induction hn : a.length using Nat.strongRecOn generalizing a parted with
  | ind n ih =>
    subst hn
    rcases readAttribute?_agree hquotes parted a with ⟨h, h'⟩ | ⟨x, parted', rest, h, hrest⟩
    · exact .inr ⟨[], a, readAttributes_of_none h, readAttributes_of_none h'⟩
    · rw [readAttributes_of_some h]
      rcases hrest with hbeyond | ⟨b, rfl, hlt, h'⟩
      · exact .inl (Nat.le_trans (length_readAttributes_le _ _) hbeyond)
      · rw [readAttributes_of_some h']
        rcases ih _ hlt parted' b rfl with hbeyond | ⟨as, b', has, has'⟩
        · exact .inl hbeyond
        · exact .inr ⟨x :: as, b', by rw [has], by rw [has']⟩

/-! ## Tags -/

/-- Whether a text is all of a tag name that stands before `u`: no character of it ends a name, and
`u` begins with one that does. -/
structure IsName (name u : Text) : Prop where
  inside : ∀ c ∈ name, endsName c = false
  stops : ∀ c ∈ u.head?, endsName c = true

/-- The name of a tag is what is read up to the first character that ends a name. -/
theorem IsName.takeWhile_append {name u : Text} (h : IsName name u) :
    (name ++ u).takeWhile (!endsName ·) = name := by
  rw [List.takeWhile_append_of_pos (fun c hc => by simp [h.inside c hc])]
  cases u with
  | nil => simp
  | cons c u => simp [h.stops c rfl]

theorem IsName.dropWhile_append {name u : Text} (h : IsName name u) :
    (name ++ u).dropWhile (!endsName ·) = u := by
  rw [List.dropWhile_append_of_pos (fun c hc => by simp [h.inside c hc])]
  cases u with
  | nil => rfl
  | cons c u => simp [h.stops c rfl]

/-- The attributes that are read behind a tag name, and what follows them. -/
def attributesAfter (name u : Text) : List (Text × Text) × Text :=
  readAttributes (startsWithGap u || name.getLast?.any parts) (skipGap u)

/-- The end of a tag behind its attributes. -/
def closing (selfClosing : Bool) : Text := if selfClosing then ['/', '>'] else ['>']

/-- **What makes a tag**: behind its attributes it is closed. -/
theorem read_eq_tag_iff {name u : Text} (hname : IsName name u) {tag : StartTag} :
    read (name ++ u) = .tag tag t ↔
      tag.name = name.lower ∧
      tag.attributes = (attributesAfter name u).1.map (fun (n, v) => (Text.lower n, v)) ∧
      (attributesAfter name u).2 = closing tag.selfClosing ++ t := by
  obtain ⟨tagName, attributes, selfClosing⟩ := tag
  simp only [read, hname.takeWhile_append, hname.dropWhile_append, attributesAfter]
  obtain ⟨as, rest⟩ :=
    readAttributes (startsWithGap u || name.getLast?.any parts) (skipGap u)
  constructor
  · intro h
    split at h
    next r hr =>
      cases h
      exact ⟨rfl, rfl, hr⟩
    next r hr =>
      cases h
      exact ⟨rfl, rfl, hr⟩
    all_goals cases h
  · rintro ⟨rfl, rfl, rfl⟩
    cases selfClosing <;> rfl

/-- A tag without attributes: its name and the bracket. It is read in front of every text. -/
theorem read_bare {name : Text} (h : ∀ c ∈ name, endsName c = false) (t : Text) :
    read (name ++ '>' :: t) = .tag ⟨name.lower, [], false⟩ t := by
  have hname : IsName name ('>' :: t) := ⟨h, by simp [endsName]⟩
  have hskip : skipGap ('>' :: t) = '>' :: t := by
    simp [skipGap, show Text.isBlank '>' = false by decide]
  have hnone (parted : Bool) : readAttribute? parted ('>' :: t) = none := by
    simp [readAttribute?]
  rw [read_eq_tag_iff hname, attributesAfter, hskip, readAttributes_of_none (hnone _)]
  exact ⟨rfl, rfl, rfl⟩

/-- **A tag in other surroundings.** The name may be exchanged, and what follows the tag by a text
with the same quotes. -/
theorem read_exchange (hquotes : SameQuotes t t') {name name' a : Text}
    (hname : IsName name (a ++ '>' :: t)) (hname' : ∀ c ∈ name', endsName c = false)
    (hparts : name'.getLast?.any parts = name.getLast?.any parts) {tag : StartTag}
    (h : read (name ++ (a ++ '>' :: t)) = .tag tag t) :
    tag.name = name.lower ∧
      read (name' ++ (a ++ '>' :: t')) = .tag { tag with name := name'.lower } t' := by
  have hname'' : IsName name' (a ++ '>' :: t') :=
    ⟨hname', by rw [head?_bracket a t' t]; exact hname.stops⟩
  obtain ⟨b, hb⟩ := exists_skipGap a
  obtain ⟨htagname, hattributes, hrest⟩ := (read_eq_tag_iff hname).mp h
  rw [attributesAfter, hb] at hattributes hrest
  refine ⟨htagname, (read_eq_tag_iff hname'').mpr ?_⟩
  rw [attributesAfter, hb, hparts, startsWithGap_bracket a t' t]
  rcases readAttributes_agree hquotes (startsWithGap (a ++ '>' :: t) || name.getLast?.any parts) b
    with hbeyond | ⟨as, b', has, has'⟩
  · -- a tag that goes beyond its bracket leaves less than `t`
    rw [hrest, List.length_append] at hbeyond
    have hpos : 0 < (closing tag.selfClosing).length := by cases tag.selfClosing <;> decide
    omega
  · rw [has] at hattributes hrest
    rw [has']
    have hclosing : ∃ s : Text, ∀ u : Text, closing tag.selfClosing ++ u = s ++ '>' :: u := by
      cases tag.selfClosing with
      | true => exact ⟨['/'], fun u => rfl⟩
      | false => exact ⟨[], fun u => rfl⟩
    obtain ⟨s, hs⟩ := hclosing
    obtain rfl : b' = s := List.append_cancel_right (hrest.trans (hs t))
    exact ⟨rfl, hattributes, (hs t').symm⟩

end StartTag

end Markup

end StyledText
