import StyledText.Proofs.Flow.Element

/-!
# The text that tags and data add

Blocks, items, line breaks and images add characters of their own, all other elements of running
text add none. How many there are depends on the text before, and behind white space there may be
none; so the text before is **solid** here, which is to say that it ends with a character that is
neither a blank nor a newline.
-/

namespace StyledText

namespace Flow

/-- Whether a text ends with something else than a blank or a newline. -/
def Solid (t : Text) : Prop := lastOf t ≠ ' ' ∧ lastOf t ≠ '\n'

/-- The empty text is not solid, as it is like the start of a line. -/
theorem Solid.ne_nil {t : Text} (h : Solid t) : t ≠ [] := by
  rintro rfl
  exact h.2 rfl

/-- A solid text has a last character, and that is neither a blank nor a newline. -/
theorem Solid.exists_eq_append {t : Text} (h : Solid t) :
    ∃ s c, t = s ++ [c] ∧ c ≠ ' ' ∧ c ≠ '\n' := by
  refine ⟨t.dropLast, t.getLast h.ne_nil, (List.dropLast_concat_getLast h.ne_nil).symm, ?_⟩
  have hlast : lastOf t = t.getLast h.ne_nil := by
    rw [lastOf, List.getLastD_eq_getLast?, List.getLast?_eq_some_getLast h.ne_nil]
    rfl
  rw [← hlast]
  exact h

theorem Solid.append {s : Text} (h : Solid s) (t : Text) : Solid (t ++ s) := by
  obtain ⟨s, c, rfl, hblank, hnewline⟩ := h.exists_eq_append
  rw [← List.append_assoc]
  simp [Solid, lastOf, hblank, hnewline]

theorem Solid.endsWithNewline_eq_false {t : Text} (h : Solid t) : t.endsWithNewline = false := by
  obtain ⟨s, c, rfl, -, hc⟩ := h.exists_eq_append
  simp [Text.endsWithNewline, hc]

/-- Behind a solid text data is shown, at least in part: its first character, or a space for
that. -/
theorem collapse_ne_nil {previous : Char} (h : previous ≠ ' ' ∧ previous ≠ '\n') {t : Text}
    (ht : t ≠ []) : collapse previous t ≠ [] := by
  cases t with
  | nil => exact absurd rfl ht
  | cons c t =>
    rw [collapse]
    split
    · rw [if_neg (by simp [h])]
      exact List.cons_ne_nil _ _
    · exact List.cons_ne_nil _ _

/-- Behind a solid text the end of a line is shown, since the line has not ended yet. -/
theorem lt_length_newline {c : Canvas} (h : Solid c.text) : c.length < c.newline.length := by
  have hnew : c.newline = c.append ['\n'] := if_pos ⟨h.ne_nil, h.endsWithNewline_eq_false⟩
  rw [hnew, Buffer.length_append]
  exact Nat.lt_succ_self _

theorem lt_length_blankLine {c : Canvas} (h : Solid c.text) : c.length < (blankLine c).length := by
  obtain ⟨s, x, hs, -, hx⟩ := h.exists_eq_append
  have hblank : blankLine c = c.append ['\n', '\n'] := by
    rw [blankLine, hs, List.reverse_append]
    simp only [List.reverse_singleton, List.singleton_append]
    split
    next heq => exact absurd heq (List.cons_ne_nil _ _)
    next heq => exact absurd (List.cons.inj heq).1 hx
    next heq => exact absurd (List.cons.inj heq).1 hx
    next => rfl
  rw [hblank, Buffer.length_append]
  exact Nat.lt_add_of_pos_right (by decide)

/-- Whether an element of running text adds characters of its own. -/
def Tag.addsText : Tag → Bool
  | .lineBreak => true
  | .block => true
  | .item => true
  | .inline _ => false
  | .font => false
  | .quote => true
  | .link => false
  | .heading _ => true
  | .image => true

namespace State

variable {lookup? : Option Image.Lookup} {n m : Nat} {tag : Tag} {attributes : Markup.Attributes}
  {f f' f₁ f₂ f₃ : State}

/-- An end tag makes room, and nothing else happens to the text. -/
theorem text_endTag (h : f.canvas.Sound n) (hok : f.endTag n tag = .ok f') :
    f'.canvas.text = (tag.after f.canvas).text := by
  rw [endTag_eq] at hok
  cases hkind : tag.kind? with
  | none =>
    rw [hkind] at hok
    cases hok
    rfl
  | some kind =>
    rw [hkind] at hok
    obtain ⟨c', hc', rfl⟩ := exists_of_map_eq_ok hok
    change finish n kind (tag.after f.canvas) = _ at hc'
    obtain ⟨t, ha⟩ := tag.after_eq_append f.canvas
    have hs : Canvas.Sound n (tag.after f.canvas) := by
      rw [ha]
      exact h.append t
    -- closing attaches and removes spans, with an opening or without
    rcases hnewest : newest? kind (tag.after f.canvas) with _ | ⟨o, s⟩
    · rw [finish_of_newest?_eq_none hnewest] at hc'
      cases hc'
      rfl
    · rw [finish_of_newest? hs hnewest] at hc'
      cases hc'
      rfl

/-- A start tag makes room, and an image adds the character that it stands on. -/
theorem text_startTag (h : f.canvas.Sound n)
    (hok : f.startTag lookup? n tag attributes = .ok f') :
    f'.canvas.text = if tag = .image then f.canvas.text ++ [objectReplacement]
      else (tag.before f.canvas).text := by
  by_cases ht : tag = .image
  · subst ht
    obtain ⟨f'', source, drawable, hf'', hc⟩ := startTag_image_eq lookup? attributes h
    cases hok.symm.trans hf''
    rw [hc]
    rfl
  · rw [startTag_eq h ht] at hok
    cases hok
    rw [if_neg ht]
    cases tag.opening? attributes <;> rfl

/-- The text of an element that adds no characters is that of its content. -/
theorem text_element (ha : tag.addsText = false) (hf : f.canvas.Sound n)
    (h₁ : f.startTag lookup? n tag attributes = .ok f₁) (hf₂ : f₂.canvas.Sound m)
    (h₃ : f₂.endTag m tag = .ok f₃) :
    f₁.canvas.text = f.canvas.text ∧ f₃.canvas.text = f₂.canvas.text := by
  have hstart := text_startTag hf h₁
  have hend := text_endTag hf₂ h₃
  cases tag with
  | inline i => exact ⟨hstart, hend⟩
  | font => exact ⟨hstart, hend⟩
  | link => exact ⟨hstart, hend⟩
  | _ => cases ha

/-- Behind a solid text an element that adds characters makes the text longer. -/
theorem lt_length_element (ha : tag.addsText = true) (hf : f.canvas.Sound n)
    (hsolid : Solid f.canvas.text) (h₁ : f.startTag lookup? n tag attributes = .ok f₁)
    (h₂ : f₁.canvas.Grows f₂.canvas) (hf₂ : f₂.canvas.Sound m) (h₃ : f₂.endTag m tag = .ok f₃) :
    f.canvas.length < f₃.canvas.length := by
  have hstart := text_startTag hf h₁
  have hend := text_endTag hf₂ h₃
  have hgrows : f₁.canvas.length ≤ f₂.canvas.length := h₂.length_le
  -- neither the content nor the end tag makes the text shorter, so one character more is enough
  have hafter : f₂.canvas.length ≤ f₃.canvas.length := by
    obtain ⟨t, ht⟩ := tag.after_eq_append f₂.canvas
    rw [ht] at hend
    rw [Buffer.length, Buffer.length, hend, Buffer.text_append, List.length_append]
    exact Nat.le_add_right _ _
  have hbefore (h : f.canvas.length < (tag.before f.canvas).length) (ht : tag ≠ .image) :
      f.canvas.length < f₃.canvas.length := by
    rw [if_neg ht] at hstart
    have : f₁.canvas.length = (tag.before f.canvas).length := congrArg List.length hstart
    omega
  cases tag with
  | lineBreak =>
    have h₁len : f₁.canvas.length = f.canvas.length := congrArg List.length hstart
    have h₃len : f₃.canvas.length = f₂.canvas.length + 1 := by
      rw [Buffer.length, hend]
      exact Buffer.length_append f₂.canvas ['\n']
    omega
  | image =>
    have h₁len : f₁.canvas.length = f.canvas.length + 1 := by
      rw [Buffer.length, hstart]
      exact Buffer.length_append f.canvas [objectReplacement]
    omega
  | block => exact hbefore (lt_length_blankLine hsolid) (by simp)
  | quote => exact hbefore (lt_length_blankLine hsolid) (by simp)
  | heading level => exact hbefore (lt_length_blankLine hsolid) (by simp)
  | item => exact hbefore (lt_length_newline hsolid) (by simp)
  | inline i => cases ha
  | font => cases ha
  | link => cases ha

end State

end Flow

end StyledText
