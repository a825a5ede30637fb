import StyledText.Markup.Rename

/-!
# What is renamed

Tags are renamed by one replacement after another, over the whole markup. No replacement meets what
another has put in: every pattern begins with a bracket and holds no second one, and behind the
bracket a reserved name is like no pattern. So all of them together do what one pass would do that
looks at each bracket once: `reserveTags` puts a reserved name behind it where a renamed tag begins
(`reserveTags_start`, `reserveTags_end`) and leaves everything else as it is.
-/

namespace StyledText

namespace Text

variable {p : Pattern} {by' s t w : Text} {c : Char}

/-- Text in which no occurrence begins stays, and the replacement begins behind it. -/
theorem replace_append_of_notMem (hs : p.first ∉ s) (t : Text) :
    replace p by' (s ++ t) = s ++ replace p by' t := by
  induction s with
  | nil => rfl
  | cons c s ih =>
    obtain ⟨hc, hs⟩ := not_or.mp (mt List.mem_cons.mpr hs)
    have hmiss : p.atStart (c :: (s ++ t)) = false := by simp [Pattern.atStart, Ne.symm hc]
    rw [List.cons_append, replace_cons_of_not_atStart hmiss, ih hs, List.cons_append]

/-- Miss, at the first character of the pattern: it stays, and the search goes on behind it. -/
theorem replace_cons_of_not_prefix (h : ¬ p.rest <+: t) :
    replace p by' (p.first :: t) = p.first :: replace p by' t :=
  replace_cons_of_not_atStart (by
    simpa [Pattern.atStart, ← Bool.not_eq_true, List.isPrefixOf_iff_prefix] using h)

/-- Where what is put in begins like the pattern, replacement does not change how a text begins, up
to that character. So an occurrence of another pattern is neither made nor destroyed by it. -/
theorem prefix_replace_iff (hw : p.first ∉ w) (hby : by'.head? = some p.first) :
    w <+: replace p by' t ↔ w <+: t := by
  induction w generalizing t with
  | nil => simp
  | cons x w ih =>
    obtain ⟨hx, hw⟩ := not_or.mp (mt List.mem_cons.mpr hw)
    rcases t with _ | ⟨c, t⟩
    · simp
    cases h : p.atStart (c :: t) with
    | true =>
      -- neither text begins like `x`, since both begin like the pattern
      obtain ⟨b, rfl⟩ := List.head?_eq_some_iff.mp hby
      have hc : c = p.first := by simp_all [Pattern.atStart]
      rw [replace, if_pos h, hc, List.cons_append, List.cons_prefix_cons, List.cons_prefix_cons]
      simp [Ne.symm hx]
    | false => rw [replace_cons_of_not_atStart h, List.cons_prefix_cons, List.cons_prefix_cons, ih hw]

/-- In particular the first character stays. -/
theorem head?_replace (hby : by'.head? = some p.first) : (replace p by' t).head? = t.head? := by
  rcases t with _ | ⟨c, t⟩
  · rw [replace_nil]
  cases h : p.atStart (c :: t) with
  | true =>
    obtain ⟨b, rfl⟩ := List.head?_eq_some_iff.mp hby
    have hc : c = p.first := by simp_all [Pattern.atStart]
    rw [replace, if_pos h, hc]
    rfl
  | false =>
    rw [replace_cons_of_not_atStart h]
    rfl

/-- A character that is no part of the replacement occurs as before: it is in no occurrence of the
pattern, and in nothing that is put in. -/
theorem mem_replace_iff (hp : c ∉ p.toText) (hby : c ∉ by') : c ∈ replace p by' t ↔ c ∈ t := by
  fun_induction replace p by' t with
  | case1 => rfl
  | case2 d t h ih =>
    obtain ⟨rfl, hrest⟩ : d = p.first ∧ p.rest <+: t := by
      simpa [Pattern.atStart] using h
    obtain ⟨u, rfl⟩ := hrest
    rw [List.drop_left] at ih ⊢
    rw [Pattern.toText] at hp
    rw [List.mem_append, ih]
    simp_all
  | case3 d t h ih => rw [List.mem_cons, List.mem_cons, ih]

end Text

namespace Markup

namespace Renamed

variable {r r' : Renamed} {l : List Renamed} {s t w : Text} {q : Char}

/-- Whether a text, behind a bracket, begins with a tag of the element that is renamed. -/
def Begins (r : Renamed) (t : Text) : Prop := r.plain <+: t ∨ '/' :: r.plain ++ ['>'] <+: t

/-- Neither kind of name holds a bracket, so every tag that is renamed begins at a bracket of its
own. -/
theorem bracket_notMem_plain (r : Renamed) : '<' ∉ r.plain := by cases r <;> decide

theorem bracket_notMem_reserved (r : Renamed) : '<' ∉ r.reserved := by cases r <;> decide

/-- A plain name begins with a letter that is no capital. Reserved names begin with a capital, which
is what keeps the two apart. -/
theorem exists_plain_eq_cons (r : Renamed) : ∃ c s, r.plain = c :: s ∧ c ≠ '/' ∧ c ≠ 'H' :=
  match r with
  | unorderedList => ⟨'u', ['l'], by decide⟩
  | orderedList => ⟨'o', ['l'], by decide⟩
  | listItem => ⟨'l', ['i'], by decide⟩
  | anchor => ⟨'a', [], by decide⟩

/-- A reserved name begins with a capital letter, the same one for all of them. -/
theorem exists_reserved_eq_cons (r : Renamed) : ∃ s, r.reserved = 'H' :: s :=
  ⟨r.reserved.tail, by cases r <;> decide⟩

/-- No name that is replaced begins like the names that are put in, neither in a start tag nor in an
end tag. -/
theorem not_begins_capital (r : Renamed) (t : Text) :
    ¬ r.Begins ('H' :: t) ∧ ¬ r.Begins ('/' :: 'H' :: t) := by
  obtain ⟨c, s, hplain, hslash, hc⟩ := r.exists_plain_eq_cons
  simp [Begins, hplain, hslash, hc]

/-- So what one replacement has put in is met by none of the others, nor by itself. -/
theorem not_begins_reserved (r r' : Renamed) (t : Text) :
    ¬ r'.Begins (r.reserved ++ t) ∧ ¬ r'.Begins ('/' :: (r.reserved ++ t)) := by
  obtain ⟨s, hs⟩ := r.exists_reserved_eq_cons
  rw [hs]
  exact r'.not_begins_capital (s ++ t)

/-- No name that is replaced begins like another. For start tags this needs a look at all pairs, as
they are compared without what follows them. -/
theorem not_begins_of_ne (h : r' ≠ r) (t : Text) :
    ¬ r'.Begins (r.plain ++ t) ∧ ¬ r'.Begins ('/' :: (r.plain ++ '>' :: t)) := by
  cases r <;> cases r' <;> simp_all [Begins, plain]

/-! ## One element -/

/-- Text without a bracket in front of a markup is not looked into. -/
theorem rename_append_of_notMem (hs : '<' ∉ s) (t : Text) : r.rename (s ++ t) = s ++ r.rename t := by
  rw [rename, Text.replace_append_of_notMem hs, Text.replace_append_of_notMem hs, rename]

/-- A text begins as before, up to the first bracket, so what stands behind a bracket can be judged
before or after another element is renamed. -/
theorem prefix_rename_iff (hw : '<' ∉ w) : w <+: r.rename t ↔ w <+: t := by
  rw [rename, Text.prefix_replace_iff hw rfl, Text.prefix_replace_iff hw rfl]

/-- Whether a tag begins is not changed by what is renamed behind it. -/
theorem begins_rename_iff : r'.Begins (r.rename t) ↔ r'.Begins t := by
  have hplain := r'.bracket_notMem_plain
  rw [Begins, prefix_rename_iff hplain, prefix_rename_iff (by simp [hplain]), Begins]

/-- Miss. A bracket that begins no such tag stays, and the renaming goes on behind it. -/
theorem rename_of_not_begins (h : ¬ r.Begins t) : r.rename ('<' :: t) = '<' :: r.rename t := by
  obtain ⟨hstart, hend⟩ := not_or.mp h
  have hfirst : Text.replace r.startPattern ('<' :: r.reserved) ('<' :: t) =
      '<' :: Text.replace r.startPattern ('<' :: r.reserved) t :=
    Text.replace_cons_of_not_prefix (p := r.startPattern) hstart
  rw [rename, hfirst]
  refine Text.replace_cons_of_not_prefix (p := r.endPattern) fun hbegin => hend ?_
  have hslash : '<' ∉ '/' :: r.plain ++ ['>'] := by simp [r.bracket_notMem_plain]
  have hbegins : '/' :: r.plain ++ ['>'] <+:
      Text.replace r.startPattern ('<' :: r.reserved) t := hbegin
  rwa [Text.prefix_replace_iff hslash rfl] at hbegins

/-- A start tag gets the reserved name, with all that follows the plain one: so do tags of other
elements whose names begin like it. -/
theorem rename_start (r : Renamed) (t : Text) :
    r.rename ('<' :: (r.plain ++ t)) = '<' :: (r.reserved ++ r.rename t) := by
  have hend (u : Text) : ¬ r.endPattern.rest <+: r.reserved ++ u := by
    obtain ⟨s, hs⟩ := r.exists_reserved_eq_cons
    simp [endPattern, hs]
  have hfirst : Text.replace r.startPattern ('<' :: r.reserved) ('<' :: (r.plain ++ t)) =
      '<' :: (r.reserved ++ Text.replace r.startPattern ('<' :: r.reserved) t) :=
    Text.replace_append_of_toText (p := r.startPattern)
  rw [rename, hfirst]
  refine (Text.replace_cons_of_not_prefix (p := r.endPattern) (hend _)).trans ?_
  rw [Text.replace_append_of_notMem r.bracket_notMem_reserved]
  rfl

/-- An end tag gets the reserved name if it is written as the plain name alone. -/
theorem rename_end (r : Renamed) (t : Text) :
    r.rename ('<' :: '/' :: (r.plain ++ '>' :: t)) =
      '<' :: '/' :: (r.reserved ++ '>' :: r.rename t) := by
  have hstart : ¬ r.startPattern.rest <+: '/' :: (r.plain ++ '>' :: t) := by
    obtain ⟨c, s, hplain, hc, -⟩ := r.exists_plain_eq_cons
    simp [startPattern, hplain, hc]
  have hslash : '<' ∉ '/' :: r.plain ++ ['>'] := by simp [r.bracket_notMem_plain]
  have hinside : Text.replace r.startPattern ('<' :: r.reserved) ('/' :: r.plain ++ ['>'] ++ t) =
      '/' :: r.plain ++ ['>'] ++ Text.replace r.startPattern ('<' :: r.reserved) t :=
    Text.replace_append_of_notMem hslash t
  simp only [List.cons_append, List.append_assoc, List.nil_append] at hinside
  have hfirst : Text.replace r.startPattern ('<' :: r.reserved) ('<' :: '/' :: (r.plain ++ '>' :: t)) =
      r.endPattern.toText ++ Text.replace r.startPattern ('<' :: r.reserved) t := by
    refine (Text.replace_cons_of_not_prefix (p := r.startPattern) hstart).trans ?_
    rw [hinside]
    simp [startPattern, endPattern, Text.Pattern.toText]
  rw [rename, hfirst, Text.replace_append_of_toText, rename]
  simp

/-- A character that is in none of the patterns and names occurs as before. -/
theorem mem_rename_iff (hq : q ∉ r.startPattern.toText ∧ q ∉ r.endPattern.toText)
    (hreserved : q ∉ r.reserved) : q ∈ r.rename t ↔ q ∈ t := by
  have hbracket : q ≠ '<' ∧ q ≠ '/' ∧ q ≠ '>' := by
    have hend := hq.2
    simp only [endPattern, Text.Pattern.toText, List.mem_cons, List.mem_append, not_or] at hend
    simp_all
  rw [rename, Text.mem_replace_iff hq.2 (by simp_all), Text.mem_replace_iff hq.1 (by simp_all)]

/-! ## All elements -/

/-- The markup with the tags of some elements under their reserved names, one element after
another. -/
def renameAll (l : List Renamed) (t : Text) : Text := l.foldl (fun t r => r.rename t) t

/-- Text without a bracket in front of a markup stays, however many elements are renamed. -/
theorem renameAll_append_of_notMem (hs : '<' ∉ s) (t : Text) :
    renameAll l (s ++ t) = s ++ renameAll l t := by
  induction l generalizing t with
  | nil => rfl
  | cons r l ih => exact (congrArg (renameAll l) (rename_append_of_notMem hs t)).trans (ih _)

/-- Miss. A bracket that begins no renamed tag stays, after all replacements, since none of them
makes what follows it begin one. -/
theorem renameAll_of_not_begins (h : ∀ r ∈ l, ¬ r.Begins t) :
    renameAll l ('<' :: t) = '<' :: renameAll l t := by
  induction l generalizing t with
  | nil => rfl
  | cons r l ih =>
    rw [List.forall_mem_cons] at h
    refine (congrArg (renameAll l) (rename_of_not_begins h.1)).trans (ih fun r' hr' => ?_)
    exact mt begins_rename_iff.mp (h.2 r' hr')

/-- A start tag. One element puts in its name, and those before and after it do not meet it, so the
order of the elements is of no account. -/
theorem renameAll_start (hr : r ∈ l) (t : Text) :
    renameAll l ('<' :: (r.plain ++ t)) = '<' :: (r.reserved ++ renameAll l t) := by
  induction l generalizing t with
  | nil => exact absurd hr List.not_mem_nil
  | cons r' l ih =>
    by_cases h : r' = r
    · subst h
      refine (congrArg (renameAll l) (r'.rename_start t)).trans ?_
      rw [renameAll_of_not_begins fun r'' _ => (not_begins_reserved r' r'' _).1,
        renameAll_append_of_notMem r'.bracket_notMem_reserved]
      rfl
    · refine (congrArg (renameAll l) (rename_of_not_begins (not_begins_of_ne h t).1)).trans ?_
      rw [rename_append_of_notMem r.bracket_notMem_plain]
      exact ih ((List.mem_cons.mp hr).resolve_left (Ne.symm h)) _

/-- An end tag, for which the same holds. The bracket that ends it is part of the pattern and is put
back. -/
theorem renameAll_end (hr : r ∈ l) (t : Text) :
    renameAll l ('<' :: '/' :: (r.plain ++ '>' :: t)) =
      '<' :: '/' :: (r.reserved ++ '>' :: renameAll l t) := by
  induction l generalizing t with
  | nil => exact absurd hr List.not_mem_nil
  | cons r' l ih =>
    have hinside : '<' ∉ '/' :: r.plain ++ ['>'] := by simp [r.bracket_notMem_plain]
    by_cases h : r' = r
    · subst h
      have hreserved : '<' ∉ '/' :: r'.reserved ++ ['>'] := by simp [r'.bracket_notMem_reserved]
      refine (congrArg (renameAll l) (r'.rename_end t)).trans ?_
      rw [renameAll_of_not_begins fun r'' _ => (not_begins_reserved r' r'' _).2]
      have hpass := renameAll_append_of_notMem (l := l) hreserved (r'.rename t)
      simp only [List.cons_append, List.append_assoc, List.nil_append] at hpass
      exact congrArg ('<' :: ·) hpass
    · refine (congrArg (renameAll l) (rename_of_not_begins (not_begins_of_ne h t).2)).trans ?_
      have hpass := rename_append_of_notMem (r := r') hinside t
      simp only [List.cons_append, List.append_assoc, List.nil_append] at hpass
      rw [hpass]
      exact ih ((List.mem_cons.mp hr).resolve_left (Ne.symm h)) _

/-- A character that is in none of the patterns and names occurs as before, after any number of
replacements. -/
theorem mem_renameAll_iff (h : ∀ r ∈ l, (q ∉ r.startPattern.toText ∧ q ∉ r.endPattern.toText) ∧
    q ∉ r.reserved) : q ∈ renameAll l t ↔ q ∈ t := by
  induction l generalizing t with
  | nil => rfl
  | cons r l ih =>
    rw [List.forall_mem_cons] at h
    exact (ih h.2).trans (mem_rename_iff h.1.1 h.1.2)

/-- A markup begins with the same character as before. -/
theorem head?_renameAll : (renameAll l t).head? = t.head? := by
  induction l generalizing t with
  | nil => rfl
  | cons r l ih =>
    refine (ih (t := r.rename t)).trans ?_
    rw [rename, Text.head?_replace rfl, Text.head?_replace rfl]

/-- All elements that are renamed are renamed in a document. -/
theorem mem_all (r : Renamed) : r ∈ all := by cases r <;> decide

end Renamed

/-! ## Whole markup -/

variable {r : Renamed} {s t : Text} {q : Char}

/-- The markup with reserved names, without the placeholder. -/
def reserveTags (t : Text) : Text := Renamed.renameAll Renamed.all t

/-- Text without a bracket is not looked into, so the first bracket is where renaming begins. -/
theorem reserveTags_append_of_notMem (hs : '<' ∉ s) (t : Text) :
    reserveTags (s ++ t) = s ++ reserveTags t :=
  Renamed.renameAll_append_of_notMem hs t

/-- Text without a bracket stays. -/
theorem reserveTags_of_notMem (ht : '<' ∉ t) : reserveTags t = t := by
  have hnil : reserveTags [] = [] := by simp [reserveTags, Renamed.renameAll, Renamed.all, Renamed.rename]
  simpa [hnil] using reserveTags_append_of_notMem ht []

/-- A bracket that begins no renamed tag stays, and what follows it is renamed by itself. -/
theorem reserveTags_of_not_begins (h : ∀ r : Renamed, ¬ r.Begins t) :
    reserveTags ('<' :: t) = '<' :: reserveTags t :=
  Renamed.renameAll_of_not_begins fun r _ => h r

/-- A start tag of a list, an item or a link gets the reserved name, whatever follows the plain one
in it. -/
theorem reserveTags_start (r : Renamed) (t : Text) :
    reserveTags ('<' :: (r.plain ++ t)) = '<' :: (r.reserved ++ reserveTags t) :=
  Renamed.renameAll_start r.mem_all t

/-- An end tag gets it if it is the plain name between `</` and `>`. With `reserveTags_start` and
`reserveTags_of_not_begins` this tells all that one pass would do. -/
theorem reserveTags_end (r : Renamed) (t : Text) :
    reserveTags ('<' :: '/' :: (r.plain ++ '>' :: t)) =
      '<' :: '/' :: (r.reserved ++ '>' :: reserveTags t) :=
  Renamed.renameAll_end r.mem_all t

/-- A text begins with the same character as before. -/
theorem head?_reserveTags : (reserveTags t).head? = t.head? :=
  Renamed.head?_renameAll

/-- Renaming takes no quote away and brings none in, so a value in quotation marks ends where it has
ended. -/
theorem quote_mem_reserveTags_iff (hq : q = '"' ∨ q = '\'') : q ∈ reserveTags t ↔ q ∈ t := by
  refine Renamed.mem_renameAll_iff fun r _ => ?_
  rcases hq with rfl | rfl <;> cases r <;> decide

/-- The placeholder is not renamed itself: its name begins with a capital as well, and so it stands
in front of the renamed markup. -/
theorem reserveNames_eq (t : Text) : reserveNames t = placeholder ++ reserveTags t := by
  have hname : placeholderName = 'H' :: placeholderName.tail := by decide
  have hstart : '<' ∉ placeholderName ++ ['>'] := by decide
  have hend : '<' ∉ '/' :: placeholderName ++ ['>'] := by decide
  -- the placeholder begins with a capital, and all names that are replaced with a small letter
  have hpass (u : Text) : reserveTags ('<' :: (placeholderName ++ ['>'] ++ u)) =
      '<' :: (placeholderName ++ ['>'] ++ reserveTags u) := by
    rw [reserveTags_of_not_begins fun r => ?_, reserveTags_append_of_notMem hstart]
    rw [hname]
    exact (r.not_begins_capital _).1
  have hpass' (u : Text) : reserveTags ('<' :: ('/' :: placeholderName ++ ['>'] ++ u)) =
      '<' :: ('/' :: placeholderName ++ ['>'] ++ reserveTags u) := by
    rw [reserveTags_of_not_begins fun r => ?_, reserveTags_append_of_notMem hend]
    rw [hname]
    exact (r.not_begins_capital _).2
  have hsplit (u : Text) : placeholder ++ u = '<' :: (placeholderName ++ ['>'] ++
      '<' :: ('/' :: placeholderName ++ ['>'] ++ u)) := by
    simp [placeholder]
  calc
    reserveNames t = reserveTags (placeholder ++ t) := rfl
    _ = placeholder ++ reserveTags t := by rw [hsplit, hpass, hpass', hsplit]

end Markup

end StyledText
