import StyledText.Proofs.Flow.Text
import StyledText.Proofs.Table.Enclosed

/-!
# A table and what is around it

What is written inside a table depends on little of what is there: on the last two characters of the
text, since blank lines and spaces are judged by them, and on whether a list is open around an item.
The placeholder fixes the one, and the other is fixed where all items stand in lists of the table.
So two runs of one table from different drafts, in other texts and with other elements left open, go
alongside each other: each part of the content adds the same characters to both texts and the same
markup to both tables (`Draft.GainAlike`).

* `Text.EndAlike` — the part of a text that what follows depends on;
* `Draft.RunsElement.gainAlike` — an element in two runs, by the ways in which its tags can go;
* `Draft.tables_ignore_surroundings` — two outermost tables.
-/

namespace StyledText

open Markup (Event Attributes Content)

/-! ## The end of a text -/

/-- Two texts that end with the same characters, two of them at least. -/
def Text.EndAlike (s t : Text) : Prop := ∃ x : Text, 2 ≤ x.length ∧ x <:+ s ∧ x <:+ t

namespace Text.EndAlike

variable {s t : Text}

/-- Texts that end alike still do so with the same text behind them. -/
theorem append (h : s.EndAlike t) (r : Text) : Text.EndAlike (s ++ r) (t ++ r) := by
  obtain ⟨x, hx, ⟨s', rfl⟩, ⟨t', rfl⟩⟩ := h
  refine ⟨x ++ r, ?_, ⟨s', by simp⟩, ⟨t', by simp⟩⟩
  rw [List.length_append]
  exact Nat.le_trans hx (Nat.le_add_right _ _)

/-- The two characters at the end, by which the room that is missing is told. -/
theorem exists_concat (h : s.EndAlike t) :
    ∃ s' t' a b, s = s' ++ [a, b] ∧ t = t' ++ [a, b] := by
  obtain ⟨x, hx, ⟨s', rfl⟩, ⟨t', rfl⟩⟩ := h
  rcases List.eq_nil_or_concat x with rfl | ⟨x, b, rfl⟩
  · cases hx
  rcases List.eq_nil_or_concat x with rfl | ⟨x, a, rfl⟩
  · simp at hx
  · exact ⟨s' ++ x, t' ++ x, a, b, by simp, by simp⟩

/-- White space behind the two is judged alike, as it is judged by the last character. -/
theorem lastOf_eq (h : s.EndAlike t) : Flow.lastOf s = Flow.lastOf t := by
  obtain ⟨s', t', a, b, rfl, rfl⟩ := h.exists_concat
  simp [Flow.lastOf]

end Text.EndAlike

section

variable {c e : Canvas}

/-- The end of a line adds the same to both: a newline, or nothing where the texts end with one. -/
theorem Canvas.newline_endAlike (h : Text.EndAlike c.text e.text) :
    ∃ r : Text, c.newline = c.append r ∧ e.newline = e.append r := by
  obtain ⟨s, t, a, b, hs, ht⟩ := h.exists_concat
  have hline {c : Canvas} {s : Text} (hs : c.text = s ++ [a, b]) :
      c.newline = c.append (if b = '\n' then [] else ['\n']) := by
    by_cases hb : b = '\n' <;>
      simp [Canvas.newline, Buffer.endsWithNewline, Text.endsWithNewline, hs, hb]
  exact ⟨_, hline hs, hline ht⟩

/-- So does a blank line, which is told by the last two characters; neither text is empty. -/
theorem Flow.blankLine_endAlike (h : Text.EndAlike c.text e.text) :
    ∃ r : Text, blankLine c = c.append r ∧ blankLine e = e.append r := by
  obtain ⟨s, t, a, b, hs, ht⟩ := h.exists_concat
  have hblank {c : Canvas} {s : Text} (hs : c.text = s ++ [a, b]) :
      blankLine c = c.append
        (if b = '\n' then if a = '\n' then [] else ['\n'] else ['\n', '\n']) := by
    by_cases hb : b = '\n' <;> by_cases ha : a = '\n' <;> simp [blankLine, hs, ha, hb]
  exact ⟨_, hblank hs, hblank ht⟩

namespace Flow.Tag

/-- An element makes the same room before it in both, as all of it is newlines that are told by the
end. -/
theorem before_endAlike (tag : Tag) (h : Text.EndAlike c.text e.text) :
    ∃ r : Text, tag.before c = c.append r ∧ tag.before e = e.append r := by
  have hid : ∃ r : Text, c = c.append r ∧ e = e.append r := ⟨[], by simp, by simp⟩
  cases tag with
  | item => exact Canvas.newline_endAlike h
  | block => exact blankLine_endAlike h
  | quote => exact blankLine_endAlike h
  | heading level => exact blankLine_endAlike h
  | lineBreak => exact hid
  | inline i => exact hid
  | font => exact hid
  | link => exact hid
  | image => exact hid

theorem after_endAlike (tag : Tag) (h : Text.EndAlike c.text e.text) :
    ∃ r : Text, tag.after c = c.append r ∧ tag.after e = e.append r := by
  by_cases htag : tag = .lineBreak
  · subst htag
    exact ⟨_, rfl, rfl⟩
  · have hafter (c : Canvas) : tag.after c = tag.before c := by
      unfold after
      split
      next => exact absurd rfl htag
      next => rfl
    rw [hafter, hafter]
    exact tag.before_endAlike h

end Flow.Tag

end

/-! ## Ranges of one event -/

namespace Canvas

/-- The styled ranges that event `n` has attached, in their order. -/
def madeBy (n : Nat) (c : Canvas) : List (Span Object) := c.ranges.filter (·.what.made = n)

/-- All earlier ranges are of earlier events, so those of the event are just the styles that it
attaches. -/
theorem madeBy_styled {n start stop : Nat} {styles : List Style} {c : Canvas} (hc : c.Sound n) :
    (c.styled n styles start stop).madeBy n = spread n styles start stop := by
  have hold : c.ranges.filter (·.what.made = n) = [] := by
    rw [List.filter_eq_nil_iff]
    intro s hs
    have hlt := (hc s (List.mem_filter.mp hs).1).made_lt
    simp [Nat.ne_of_lt hlt]
  have hnew : (spread n styles start stop).filter (·.what.made = n) =
      spread n styles start stop := by
    rw [List.filter_eq_self]
    intro s hs
    obtain ⟨-, style, -, rfl⟩ := mem_spread hs
    simp [Object.made]
  rw [madeBy, ranges_styled, List.filter_append, hold, hnew, List.nil_append]

end Canvas

/-! ## Items in lists -/

/-- Whether an element of this name is a list of the interceptor. -/
def Intercept.IsList (name : Text) : Prop := ∃ kind, Tag.ofName? name = some (.list kind)

/-- Whether every item of the interceptor stands in a list of the content, or in one around it. -/
def Markup.Content.Listed : Prop → Content → Prop
  | _, empty => True
  | inList, data _ _ rest => rest.Listed inList
  | inList, element name _ inner rest =>
    (Intercept.Tag.ofName? name = some .item → inList) ∧
      inner.Listed (inList ∨ Intercept.IsList name) ∧ rest.Listed inList

namespace Draft

variable {lookup? : Option Image.Lookup} {n m : Nat} {name : Text} {attributes : Attributes}
  {inner : Content} {d d' d'' d₁ d₂ d₃ e e' e'' e₁ e₂ e₃ : Draft} {r r' w w' : Text}

/-! ## What is gained -/

/-- `d'` has `r` more at the end of its text than `d`, and `w` more at the end of its markup. -/
structure Gains (d : Draft) (r w : Text) (d' : Draft) : Prop where
  text : d'.canvas.text = d.canvas.text ++ r
  html : d'.tags.html = d.tags.html ++ w

theorem Gains.trans (h : d.Gains r w d') (h' : d'.Gains r' w' d'') :
    d.Gains (r ++ r') (w ++ w') d'' :=
  ⟨by rw [h'.text, h.text, List.append_assoc], by rw [h'.html, h.html, List.append_assoc]⟩

/-- What two runs gain is the same. -/
def GainAlike (d d' e e' : Draft) : Prop := ∃ r w, d.Gains r w d' ∧ e.Gains r w e'

theorem GainAlike.refl (d e : Draft) : GainAlike d d e e :=
  ⟨[], [], ⟨(List.append_nil _).symm, (List.append_nil _).symm⟩,
    ⟨(List.append_nil _).symm, (List.append_nil _).symm⟩⟩

theorem GainAlike.trans (h : GainAlike d d' e e') (h' : GainAlike d' d'' e' e'') :
    GainAlike d d'' e e'' := by
  obtain ⟨r, w, hd, he⟩ := h
  obtain ⟨r', w', hd', he'⟩ := h'
  exact ⟨_, _, hd.trans hd', he.trans he'⟩

theorem GainAlike.endAlike (h : GainAlike d d' e e')
    (halike : Text.EndAlike d.canvas.text e.canvas.text) :
    Text.EndAlike d'.canvas.text e'.canvas.text := by
  obtain ⟨r, w, hd, he⟩ := h
  rw [hd.text, he.text]
  exact halike.append r

/-- Data adds the same to both texts, since it is collapsed behind the same character. -/
theorem gainAlike_receive_data {ev : Event} (hdata : ev.isTag = false)
    (halike : Text.EndAlike d.canvas.text e.canvas.text)
    (hd : (intercepted lookup?).receive n ev d = .ok d')
    (he : (intercepted lookup?).receive m ev e = .ok e') : GainAlike d d' e e' := by
  cases ev with
  | startElement name attributes => cases hdata
  | endElement name => cases hdata
  | characters t =>
    cases hd
    cases he
    refine ⟨Flow.collapse (Flow.lastOf d.canvas.text) t, [], ⟨rfl, (List.append_nil _).symm⟩,
      ⟨?_, (List.append_nil _).symm⟩⟩
    rw [halike.lastOf_eq]
    rfl
  | _ =>
    cases hd
    cases he
    exact .refl _ _

/-! ## Elements, in one run -/

/-- A start tag opens its element and is recorded behind all that is written. -/
theorem exists_openElement {tag : Intercept.Tag} (htag : Intercept.Tag.ofName? name = some tag)
    (h : (intercepted lookup?).receive n (.startElement name attributes) d = .ok d') :
    ∃ t, d.tags.openElement n tag attributes d.canvas = .ok (t, d'.canvas) ∧
      d'.tags = t.record tag.startText := by
  rw [receive_startElement_of_ofName? htag] at h
  obtain ⟨⟨t', c'⟩, hstart, rfl⟩ := exists_of_map_eq_ok h
  obtain ⟨⟨t, c⟩, hopen, heq⟩ := exists_of_map_eq_ok hstart
  cases heq
  exact ⟨t, hopen, rfl⟩

/-- So does an end tag, behind all that closing its element has written. -/
theorem exists_closeElement {tag : Intercept.Tag} (htag : Intercept.Tag.ofName? name = some tag)
    (h : (intercepted lookup?).receive n (.endElement name) d = .ok d') :
    ∃ t, d.tags.closeElement n tag d.canvas = .ok (t, d'.canvas) ∧
      d'.tags = t.record tag.endText := by
  rw [receive_endElement_of_ofName? htag] at h
  obtain ⟨⟨t', c'⟩, hend, rfl⟩ := exists_of_map_eq_ok h
  obtain ⟨⟨t, c⟩, hclose, heq⟩ := exists_of_map_eq_ok hend
  cases heq
  exact ⟨t, hclose, rfl⟩

/-- An enclosing element writes the text of its content between its tags, since the end tag finds
the marker of the element. -/
theorem RunsElement.gains_enclosing {tag : Intercept.Tag} {kind : MarkerKind}
    (h : RunsElement lookup? n name attributes inner d d₁ d₂ d₃) (hd : d.Sound n)
    (hdepth : 0 < d.tags.depth) (htag : Intercept.Tag.ofName? name = some tag)
    (hkind : tag.kind? = some kind) :
    d.Gains [] tag.startText d₁ ∧ ∀ r w, d₁.Gains r w d₂ →
      d.Gains [] (tag.startText ++ w ++ r ++ tag.endText) d₃ := by
  have h₁ := h.start
  have h₃ := h.stop
  rw [receive_startElement_of_ofName? htag,
    Intercept.State.startTag_inside hkind hd.canvas hdepth] at h₁
  cases h₁
  refine ⟨⟨(List.append_nil _).symm, rfl⟩, fun r w hgains => ?_⟩
  rw [receive_endElement_of_ofName? htag, Intercept.State.endTag_inside hkind hd.canvas
    h.inside.grows h.sound₂.canvas h.inside.sameOpen.markers hdepth h.inside.sameOpen.depth] at h₃
  cases h₃
  -- what stands behind the marker is the text that the content has added
  have hdrop : d₂.canvas.text.drop d.canvas.length = r := by
    rw [hgains.text]
    exact List.drop_left
  refine ⟨(List.append_nil _).symm, ?_⟩
  change (d₂.tags.html ++ d₂.canvas.text.drop d.canvas.length) ++ tag.endText = _
  rw [hdrop, hgains.html]
  change (d.tags.html ++ tag.startText ++ w ++ r) ++ tag.endText = _
  simp

/-- A list writes its tags and leaves the text of its content to the element around it. -/
theorem RunsElement.gains_list {kind : Intercept.ListKind}
    (h : RunsElement lookup? n name attributes inner d d₁ d₂ d₃)
    (hdepth : 0 < d.tags.depth) (htag : Intercept.Tag.ofName? name = some (.list kind)) :
    d.Gains [] (Intercept.Tag.list kind).startText d₁ ∧ ∀ r w, d₁.Gains r w d₂ →
      d.Gains r ((Intercept.Tag.list kind).startText ++ w ++ (Intercept.Tag.list kind).endText)
        d₃ := by
  obtain ⟨t₁, hopen, ht₁⟩ := exists_openElement htag h.start
  obtain ⟨t₃, hclose, ht₃⟩ := exists_closeElement htag h.stop
  obtain ⟨rfl, hc₁⟩ := Prod.mk.inj (Except.ok.inj hopen)
  obtain ⟨rfl, hc₃⟩ := Prod.mk.inj (Except.ok.inj hclose)
  have hdepth₁ : 0 < (d.tags.openList kind).depth := hdepth
  have hstart : d.Gains [] (Intercept.Tag.list kind).startText d₁ := by
    refine ⟨by rw [← hc₁, List.append_nil], ?_⟩
    rw [ht₁]
    exact Intercept.State.html_record hdepth₁ _
  have hdepth₃ : 0 < d₂.tags.closeList.depth := by
    rw [Intercept.State.depth_closeList, h.inside.sameOpen.depth, ht₁,
      (Intercept.State.sameOpen_record _ _).depth]
    exact hdepth₁
  refine ⟨hstart, fun r w hgains => ⟨?_, ?_⟩⟩
  · rw [← hc₃, hgains.text, ← hc₁]
  · rw [ht₃, Intercept.State.html_record hdepth₃, Intercept.State.html_closeList, hgains.html,
      hstart.html]
    simp

/-- An item in a list begins and ends a line and writes all between, its own newline at the end
included. -/
theorem RunsElement.gains_item {r₁ : Text}
    (h : RunsElement lookup? n name attributes inner d d₁ d₂ d₃) (hd : d.Sound n)
    (hdepth : 0 < d.tags.depth) (htag : Intercept.Tag.ofName? name = some .item)
    (hlist : d.tags.lists ≠ []) (hr₁ : d.canvas.newline = d.canvas.append r₁) :
    d.Gains r₁ Intercept.Tag.item.startText d₁ ∧ ∀ r w r₃, d₁.Gains r w d₂ →
      d₂.canvas.newline = d₂.canvas.append r₃ →
      d.Gains r₁ (Intercept.Tag.item.startText ++ w ++ (r ++ r₃) ++ Intercept.Tag.item.endText)
        d₃ := by
  obtain ⟨t₁, hopen, ht₁⟩ := exists_openElement htag h.start
  obtain ⟨t₃, hclose, ht₃⟩ := exists_closeElement htag h.stop
  obtain ⟨kind, lists, hl⟩ := List.exists_cons_of_ne_nil hlist
  obtain ⟨counters, -, hitem⟩ := Intercept.State.openItem_eq hl hd.balanced hd.canvas
  obtain ⟨hopened, hc₁⟩ := Prod.mk.inj (Except.ok.inj (hitem.symm.trans hopen))
  have hdepth₁ : 0 < t₁.depth := by
    rw [← hopened]
    exact hdepth
  have hhtml₁ : t₁.html = d.tags.html := by rw [← hopened]
  have hstart : d.Gains r₁ Intercept.Tag.item.startText d₁ := by
    refine ⟨by rw [← hc₁, Canvas.text_marked, hr₁]; rfl, ?_⟩
    rw [ht₁, Intercept.State.html_record hdepth₁, hhtml₁]
  refine ⟨hstart, fun r w r₃ hgains hr₃ => ?_⟩
  -- the marker that the end tag finds is the one of the start tag
  have hsame : t₁.SameOpen d₂.tags :=
    (Intercept.State.sameOpen_record _ t₁).trans (ht₁ ▸ h.inside.sameOpen)
  rw [← hopened] at hsame
  have hinside := h.inside.grows
  rw [← hc₁] at hinside
  have hshut := (Intercept.State.closeItem_eq (hsame.lists.trans hl) h.sound₂.balanced).trans
    (Intercept.State.finish_inside hd.canvas (Canvas.grows_newline d.canvas).text
      (Canvas.spans_newline d.canvas) rfl (hinside.trans (Canvas.grows_newline d₂.canvas))
      h.sound₂.canvas.newline hsame.markers
      (Nat.lt_of_lt_of_le hdepth (Nat.le_of_eq hsame.depth.symm)))
  obtain ⟨hshut, hc₃⟩ := Prod.mk.inj (Except.ok.inj (hshut.symm.trans hclose))
  have htext₁ : d₁.canvas.text = d.canvas.newline.text := by rw [← hc₁, Canvas.text_marked]
  have hdrop : d₂.canvas.newline.text.drop d.canvas.newline.length = r ++ r₃ := by
    rw [hr₃, Buffer.text_append, hgains.text, htext₁, List.append_assoc]
    exact List.drop_left
  rw [hdrop] at hshut
  have hdepth₃ : 0 < t₃.depth := by
    rw [← hshut]
    exact Nat.lt_of_lt_of_le hdepth (Nat.le_of_eq hsame.depth.symm)
  have hhtml₃ : t₃.html = d₂.tags.html ++ (r ++ r₃) := by
    rw [← hshut]
    rfl
  refine ⟨?_, ?_⟩
  · rw [← hc₃, hr₁]
    rfl
  · rw [ht₃, Intercept.State.html_record hdepth₃, hhtml₃, hgains.html, hstart.html]
    simp

/-- An element of running text makes room before and after its content and writes nothing into the
markup. -/
theorem RunsElement.gains_flow {tag : Flow.Tag} {r₁ : Text}
    (h : RunsElement lookup? n name attributes inner d d₁ d₂ d₃) (hd : d.Sound n)
    (hdeclined : Intercept.Tag.ofName? name = none) (htag : Flow.Tag.ofName? name = some tag)
    (hr₁ : if tag = .image then r₁ = [objectReplacement]
      else tag.before d.canvas = d.canvas.append r₁) :
    d.Gains r₁ [] d₁ ∧ ∀ r w r₃, d₁.Gains r w d₂ → tag.after d₂.canvas = d₂.canvas.append r₃ →
      d.Gains (r₁ ++ r ++ r₃) w d₃ := by
  have h₁ := h.start
  have h₃ := h.stop
  rw [receive_of_declined (by rintro _ ⟨⟩; exact hdeclined)] at h₁ h₃
  obtain ⟨f₁, hf₁, rfl⟩ := exists_of_map_eq_ok h₁
  obtain ⟨f₃, hf₃, rfl⟩ := exists_of_map_eq_ok h₃
  simp only [Flow.State.receive, htag] at hf₁ hf₃
  have hstart : d.Gains r₁ [] (d.tags, f₁) := by
    refine ⟨(Flow.State.text_startTag hd.canvas hf₁).trans ?_, (List.append_nil _).symm⟩
    split at hr₁
    next himage => rw [if_pos himage, hr₁]
    next himage =>
      rw [if_neg himage, hr₁]
      rfl
  refine ⟨hstart, fun r w r₃ hgains hr₃ => ⟨?_, ?_⟩⟩
  · refine (Flow.State.text_endTag h.sound₂.canvas hf₃).trans ?_
    rw [hr₃, Buffer.text_append, hgains.text, hstart.text]
    simp
  · exact hgains.html

/-- An element that neither side knows does nothing by its tags. -/
theorem RunsElement.gains_unknown
    (h : RunsElement lookup? n name attributes inner d d₁ d₂ d₃)
    (hdeclined : Intercept.Tag.ofName? name = none) (hunknown : Flow.Tag.ofName? name = none) :
    d₁ = d ∧ d₃ = d₂ := by
  have h₁ := h.start
  have h₃ := h.stop
  rw [receive_of_declined (by rintro _ ⟨⟩; exact hdeclined)] at h₁ h₃
  simp only [Flow.State.receive, hunknown] at h₁ h₃
  cases h₁
  cases h₃
  exact ⟨rfl, rfl⟩

/-! ## Elements, in two runs -/

/-- Inside a table, a table is around the content of an element, and so is a list that is around the
element or is the element. -/
theorem RunsElement.around_content (h : RunsElement lookup? n name attributes inner d d₁ d₂ d₃)
    (hd : d.Sound n) (hdepth : 0 < d.tags.depth) :
    0 < d₁.tags.depth ∧ (d.tags.lists ≠ [] ∨ Intercept.IsList name → d₁.tags.lists ≠ []) := by
  cases receives_of_receive hd h.start with
  | declined hnone =>
    refine ⟨hdepth, fun hlists => hlists.resolve_right ?_⟩
    rintro ⟨kind, hkind⟩
    cases (hnone name rfl).symm.trans hkind
  | @startTag _ _ tag t _ htag hopens =>
    have hother (hlists : d.tags.lists ≠ [] ∨ Intercept.IsList name)
        (hne : ∀ kind, tag ≠ .list kind) : d.tags.lists ≠ [] := by
      refine hlists.resolve_right ?_
      rintro ⟨kind, hkind⟩
      exact hne kind (Option.some.inj (htag.symm.trans hkind))
    change 0 < (t.record _).depth ∧ (_ → (t.record _).lists ≠ [])
    have hrecord := Intercept.State.sameOpen_record tag.startText t
    rw [hrecord.depth, hrecord.lists]
    cases hopens with
    | list kind => exact ⟨hdepth, fun _ => List.cons_ne_nil _ _⟩
    | root hroot => omega
    | inner => exact ⟨Nat.succ_pos _, fun hlists => hother hlists (by simp)⟩
    | _ => exact ⟨hdepth, fun hlists => hother hlists (by simp)⟩

/-- **An element in two runs.** Where both texts end alike, and an item stands in a list in both,
the start tags gain the same, and if the contents do, so do the elements. -/
theorem RunsElement.gainAlike (h : RunsElement lookup? n name attributes inner d d₁ d₂ d₃)
    (h' : RunsElement lookup? m name attributes inner e e₁ e₂ e₃) (hd : d.Sound n) (he : e.Sound m)
    (hdepth : 0 < d.tags.depth) (hdepth' : 0 < e.tags.depth)
    (hitem : Intercept.Tag.ofName? name = some .item → d.tags.lists ≠ [] ∧ e.tags.lists ≠ [])
    (halike : Text.EndAlike d.canvas.text e.canvas.text) :
    GainAlike d d₁ e e₁ ∧ (GainAlike d₁ d₂ e₁ e₂ → GainAlike d d₃ e e₃) := by
  rcases htag : Intercept.Tag.ofName? name with _ | tag
  · rcases hflow : Flow.Tag.ofName? name with _ | tag
    · -- declined by both sides
      obtain ⟨rfl, rfl⟩ := h.gains_unknown htag hflow
      obtain ⟨rfl, rfl⟩ := h'.gains_unknown htag hflow
      exact ⟨.refl _ _, id⟩
    · -- running text: the room before the element is the same in both runs, since both texts end
      -- alike
      have hbefore : ∃ r₁ : Text,
          (if tag = .image then r₁ = [objectReplacement]
            else tag.before d.canvas = d.canvas.append r₁) ∧
          (if tag = .image then r₁ = [objectReplacement]
            else tag.before e.canvas = e.canvas.append r₁) := by
        by_cases himage : tag = .image
        · exact ⟨_, by rw [if_pos himage], by rw [if_pos himage]⟩
        · obtain ⟨r₁, hr₁, hr₁'⟩ := tag.before_endAlike halike
          exact ⟨r₁, by rw [if_neg himage]; exact hr₁, by rw [if_neg himage]; exact hr₁'⟩
      obtain ⟨r₁, hr₁, hr₁'⟩ := hbefore
      obtain ⟨hstart, hstop⟩ := h.gains_flow hd htag hflow hr₁
      obtain ⟨hstart', hstop'⟩ := h'.gains_flow he htag hflow hr₁'
      have halike₁ : GainAlike d d₁ e e₁ := ⟨_, _, hstart, hstart'⟩
      refine ⟨halike₁, fun hinner => ?_⟩
      obtain ⟨r₃, hr₃, hr₃'⟩ := tag.after_endAlike (hinner.endAlike (halike₁.endAlike halike))
      obtain ⟨r, w, hgains, hgains'⟩ := hinner
      exact ⟨_, _, hstop r w r₃ hgains hr₃, hstop' r w r₃ hgains' hr₃'⟩
  -- intercepted: lists and items have no kind of marker of their own
  rcases hkind : tag.kind? with _ | kind
  · cases tag with
    | list kind =>
      obtain ⟨hstart, hstop⟩ := h.gains_list hdepth htag
      obtain ⟨hstart', hstop'⟩ := h'.gains_list hdepth' htag
      refine ⟨⟨_, _, hstart, hstart'⟩, ?_⟩
      rintro ⟨r, w, hgains, hgains'⟩
      exact ⟨_, _, hstop r w hgains, hstop' r w hgains'⟩
    | item =>
      -- both runs have a list around the item, so its end tag closes it in both
      obtain ⟨hlist, hlist'⟩ := hitem htag
      obtain ⟨r₁, hr₁, hr₁'⟩ := Canvas.newline_endAlike halike
      obtain ⟨hstart, hstop⟩ := h.gains_item hd hdepth htag hlist hr₁
      obtain ⟨hstart', hstop'⟩ := h'.gains_item he hdepth' htag hlist' hr₁'
      have halike₁ : GainAlike d d₁ e e₁ := ⟨_, _, hstart, hstart'⟩
      refine ⟨halike₁, fun hinner => ?_⟩
      obtain ⟨r₃, hr₃, hr₃'⟩ :=
        Canvas.newline_endAlike (hinner.endAlike (halike₁.endAlike halike))
      obtain ⟨r, w, hgains, hgains'⟩ := hinner
      exact ⟨_, _, hstop r w r₃ hgains hr₃, hstop' r w r₃ hgains' hr₃'⟩
    | link => cases hkind
    | bare b => cases hkind
    | table => cases hkind
  · obtain ⟨hstart, hstop⟩ := h.gains_enclosing hd hdepth htag hkind
    obtain ⟨hstart', hstop'⟩ := h'.gains_enclosing he hdepth' htag hkind
    refine ⟨⟨_, _, hstart, hstart'⟩, ?_⟩
    rintro ⟨r, w, hgains, hgains'⟩
    exact ⟨_, _, hstop r w hgains, hstop' r w hgains'⟩

/-! ## Content, in two runs -/

/-- **Content in two runs.** Inside of tables and behind texts that end alike, content gains the
same in both runs, if every item stands in a list. -/
theorem run_gainAlike (lookup? : Option Image.Lookup) (content : Content) :
    ∀ {inList : Prop} {n m : Nat} {d d' e e' : Draft}, content.Listed inList →
      d.Sound n → e.Sound m → 0 < d.tags.depth → 0 < e.tags.depth →
      (inList → d.tags.lists ≠ [] ∧ e.tags.lists ≠ []) →
      Text.EndAlike d.canvas.text e.canvas.text →
      (intercepted lookup?).runFrom n content.events d = .ok d' →
      (intercepted lookup?).runFrom m content.events e = .ok e' → GainAlike d d' e e' := by
  induction content with
  | empty =>
    intro inList n m d d' e e' _ _ _ _ _ _ _ hok hok'
    cases hok
    cases hok'
    exact .refl d e
  | data ev hdata rest ih =>
    intro inList n m d d' e e' hlisted hd he hdepth hdepth' hlists halike hok hok'
    obtain ⟨d₁, hok₁, hs₁, -⟩ := receive_sound lookup? hd ev
    obtain ⟨e₁, hok₁', hs₁', -⟩ := receive_sound lookup? he ev
    obtain ⟨d₁', hok₂, h₁⟩ := exists_receive_data lookup? n hdata d
    obtain ⟨e₁', hok₂', h₁'⟩ := exists_receive_data lookup? m hdata e
    cases hok₁.symm.trans hok₂
    cases hok₁'.symm.trans hok₂'
    rw [Content.events, Consumer.runFrom_cons_of_ok hok₁] at hok
    rw [Content.events, Consumer.runFrom_cons_of_ok hok₁'] at hok'
    have hfirst := gainAlike_receive_data hdata halike hok₁ hok₁'
    refine hfirst.trans (ih hlisted hs₁ hs₁' ?_ ?_ ?_ (hfirst.endAlike halike) hok hok')
    · rw [h₁.sameOpen.depth]
      exact hdepth
    · rw [h₁'.sameOpen.depth]
      exact hdepth'
    · rw [h₁.sameOpen.lists, h₁'.sameOpen.lists]
      exact hlists
  | element name attributes inner rest ihi ihr =>
    intro inList n m d d' e e' hlisted hd he hdepth hdepth' hlists halike hok hok'
    obtain ⟨hitem, hinner, hrest⟩ := hlisted
    obtain ⟨d₁, d₂, d₃, h⟩ := exists_runsElement lookup? hd name attributes inner
    obtain ⟨e₁, e₂, e₃, h'⟩ := exists_runsElement lookup? he name attributes inner
    obtain ⟨hok, -⟩ := h.rest hok
    obtain ⟨hok', -⟩ := h'.rest hok'
    obtain ⟨hstart, hstop⟩ :=
      h.gainAlike h' hd he hdepth hdepth' (fun htag => hlists (hitem htag)) halike
    obtain ⟨hdepth₁, hlists₁⟩ := h.around_content hd hdepth
    obtain ⟨hdepth₁', hlists₁'⟩ := h'.around_content he hdepth'
    -- an item in the content stands in a list that was open before, or in the element
    have hcontent : GainAlike d₁ d₂ e₁ e₂ := by
      refine ihi hinner h.sound₁ h'.sound₁ hdepth₁ hdepth₁' ?_ (hstart.endAlike halike)
        h.content h'.content
      rintro (hin | hlist)
      · exact ⟨hlists₁ (.inl (hlists hin).1), hlists₁' (.inl (hlists hin).2)⟩
      · exact ⟨hlists₁ (.inr hlist), hlists₁' (.inr hlist)⟩
    have helement := hstop hcontent
    refine helement.trans (ihr hrest h.sound₃ h'.sound₃ ?_ ?_ ?_ (helement.endAlike halike) hok hok')
    · rw [h.around.sameOpen.depth]
      exact hdepth
    · rw [h'.around.sameOpen.depth]
      exact hdepth'
    · rw [h.around.sameOpen.lists, h'.around.sameOpen.lists]
      exact hlists

/-! ## Outermost tables -/

/-- The tags of an outermost table around its content: the start tag begins the markup and writes
the placeholder, the end tag closes the markup and styles all that has been added. -/
theorem RunsElement.root (h : RunsElement lookup? n name attributes inner d d₁ d₂ d₃)
    (hd : d.Sound n) (hdepth : d.tags.depth = 0) (hname : name.lower = "table".toList) :
    (d₁.tags.depth = 1 ∧ d₁.tags.html = Intercept.Tag.table.startText ∧
      d₁.canvas.text = d.canvas.text ++ Intercept.placeholder) ∧
    d₃.tags.html = d₂.tags.html ++ Intercept.Tag.table.endText ∧
      d₃.canvas.text = d₂.canvas.text ∧
      d₃.canvas.madeBy (n + 1 + inner.events.length) =
        Canvas.spread (n + 1 + inner.events.length) d₃.tags.shownStyles d.canvas.length
          d₂.canvas.length := by
  obtain ⟨d₁', d₂', d₃', hok₁, hok₂, hok₃, hc₁, hdepth₁, -, hc₃⟩ :=
    run_table lookup? hname hd hdepth attributes inner
  cases h.start.symm.trans hok₁
  cases h.content.symm.trans hok₂
  cases h.stop.symm.trans hok₃
  have htag := Intercept.ofName?_of_lower_eq_table hname
  rw [receive_startElement_of_ofName? htag,
    Intercept.State.startTag_root hd.canvas hdepth] at hok₁
  cases hok₁
  have hhtml₃ : d₃.tags.html = d₂.tags.html ++ Intercept.Tag.table.endText := by
    obtain ⟨c₃, -, hend, -⟩ := Intercept.State.endTag_root hd.canvas
      ((Canvas.grows_append _ _).trans h.inside.grows) h.sound₂.canvas h.inside.sameOpen.markers
      h.inside.sameOpen.depth
    rw [receive_endElement_of_ofName? htag, hend] at hok₃
    rw [← Except.ok.inj hok₃]
    exact Intercept.State.html_countClick _
  refine ⟨⟨hdepth₁, rfl, rfl⟩, hhtml₃, ?_, ?_⟩
  · rw [hc₃]
    rfl
  · rw [hc₃]
    exact Canvas.madeBy_styled (h.sound₂.canvas.remove _)

/-- **Tables do not depend on what is around them.** From any two reachable drafts outside of tables
and with one setup, a table whose items all stand in lists of the table is collected alike: the
markup is the same, and so is the text that is added; the styles of the table, which differ only in
the number of the table, come over just that text. -/
theorem tables_ignore_surroundings {lookup? : Option Image.Lookup} {n m : Nat} {d e : Draft}
    (hd : Reachable lookup? n d) (he : Reachable lookup? m e) (hdepth : d.tags.depth = 0)
    (hdepth' : e.tags.depth = 0) (hsetup : e.tags.setup = d.tags.setup) {name : Text}
    (hname : name.lower = "table".toList) (attributes : Attributes) {inner : Content}
    (hlisted : inner.Listed False) :
    ∃ (d' e' : Draft) (added : Text),
      (intercepted lookup?).runFrom n (Content.element name attributes inner .empty).events d =
        .ok d' ∧
      (intercepted lookup?).runFrom m (Content.element name attributes inner .empty).events e =
        .ok e' ∧
      e'.tags.html = d'.tags.html ∧
      d'.canvas.text = d.canvas.text ++ added ∧ e'.canvas.text = e.canvas.text ++ added ∧
      e'.tags.shownStyles = { d'.tags with clicks := e'.tags.clicks }.shownStyles ∧
      (d'.canvas.madeBy (n + 1 + inner.events.length) =
        d'.tags.shownStyles.map fun s => ⟨.style (n + 1 + inner.events.length) s,
          d.canvas.length, d.canvas.length + added.length, .exclusive⟩) ∧
      e'.canvas.madeBy (m + 1 + inner.events.length) =
        e'.tags.shownStyles.map fun s => ⟨.style (m + 1 + inner.events.length) s,
          e.canvas.length, e.canvas.length + added.length, .exclusive⟩ := by
  obtain ⟨d₁, d₂, d₃, h⟩ := exists_runsElement lookup? hd.sound name attributes inner
  obtain ⟨e₁, e₂, e₃, h'⟩ := exists_runsElement lookup? he.sound name attributes inner
  obtain ⟨⟨hdepth₁, hhtml₁, htext₁⟩, hhtml₃, htext₃, hmade⟩ := h.root hd.sound hdepth hname
  obtain ⟨⟨hdepth₁', hhtml₁', htext₁'⟩, hhtml₃', htext₃', hmade'⟩ := h'.root he.sound hdepth' hname
  -- the placeholder is long enough for both texts to end alike
  have halike : Text.EndAlike d₁.canvas.text e₁.canvas.text :=
    ⟨Intercept.placeholder, by decide, ⟨_, htext₁.symm⟩, ⟨_, htext₁'.symm⟩⟩
  obtain ⟨r, w, hgains, hgains'⟩ := run_gainAlike lookup? inner hlisted h.sound₁ h'.sound₁
    (by rw [hdepth₁]; exact Nat.one_pos) (by rw [hdepth₁']; exact Nat.one_pos) False.elim halike
    h.content h'.content
  have hhtml : e₃.tags.html = d₃.tags.html := by
    rw [hhtml₃', hhtml₃, hgains'.html, hgains.html, hhtml₁', hhtml₁]
  have htext : d₂.canvas.text = d.canvas.text ++ (Intercept.placeholder ++ r) := by
    rw [hgains.text, htext₁, List.append_assoc]
  have htext' : e₂.canvas.text = e.canvas.text ++ (Intercept.placeholder ++ r) := by
    rw [hgains'.text, htext₁', List.append_assoc]
  have hspread {k : Nat} {styles : List Style} {c c' : Canvas}
      (hc : c'.text = c.text ++ (Intercept.placeholder ++ r)) :
      Canvas.spread k styles c.length c'.length = styles.map fun s => ⟨.style k s, c.length,
        c.length + (Intercept.placeholder ++ r).length, .exclusive⟩ := by
    have hlen : c'.length = c.length + (Intercept.placeholder ++ r).length := by
      rw [Buffer.length, hc, List.length_append]
      rfl
    have hpos : 0 < (Intercept.placeholder ++ r).length :=
      List.length_pos_of_ne_nil (List.append_ne_nil_of_left_ne_nil (by decide) r)
    rw [hlen, Canvas.spread, if_neg (by omega)]
  refine ⟨d₃, e₃, Intercept.placeholder ++ r,
    Consumer.runFrom_element_of_ok h.start h.content h.stop .empty,
    Consumer.runFrom_element_of_ok h'.start h'.content h'.stop .empty, hhtml, htext₃.trans htext,
    htext₃'.trans htext', ?_, hmade.trans (hspread htext), hmade'.trans (hspread htext')⟩
  have hsetup₃ : e₃.tags.setup = d₃.tags.setup := by
    rw [h'.around.sameOpen.setup, h.around.sameOpen.setup, hsetup]
  simp only [Intercept.State.shownStyles, hhtml, hsetup₃]

/-- Text, a list, a code element and a heading that are left open when the table comes. -/
def leftOpen : List Event := [
  .characters "x".toList, .startElement Markup.Renamed.orderedList.reserved [],
  .startElement "code".toList [], .startElement "h1".toList [], .characters "y".toList]

/-- A list of one item, in a cell. -/
def listInCell : Content :=
  .element "td".toList []
    (.element Markup.Renamed.unorderedList.reserved []
      (.element Markup.Renamed.listItem.reserved [] (.characters "a".toList .empty) .empty) .empty)
    .empty

theorem tables_ignore_surroundings_listInCell :
    ∃ (e d' e' : Draft) (added : Text), Reachable none 5 e ∧
      e.canvas.text = "x\n\ny".toList ∧ e.tags.lists = [.ordered] ∧ listInCell.Listed False ∧
      (intercepted none).runFrom 0 (Content.element "table".toList [] listInCell .empty).events
        ({ setup := { tableLink := some {} } }, {}) = .ok d' ∧
      (intercepted none).runFrom 5 (Content.element "table".toList [] listInCell .empty).events e =
        .ok e' ∧
      e'.tags.html = d'.tags.html ∧ d'.canvas.text = added ∧
      e'.canvas.text = e.canvas.text ++ added := by
  have hd : Reachable none 0 ({ setup := { tableLink := some {} } }, {}) := .start _
  obtain ⟨e, hrun, -, -⟩ := run_sound none leftOpen hd.sound
  have hshown : ((intercepted none).runFrom 0 leftOpen
      ({ setup := { tableLink := some {} } }, {})).toOption.map (fun e : Draft =>
        (e.tags.depth, e.tags.setup, e.canvas.text, e.tags.lists)) =
      some (0, { tableLink := some {} }, "x\n\ny".toList, [.ordered]) := by decide +kernel
  rw [hrun] at hshown
  obtain ⟨hdepth, hsetup, htext, hlists⟩ : e.tags.depth = 0 ∧
      e.tags.setup = { tableLink := some {} } ∧ e.canvas.text = "x\n\ny".toList ∧
      e.tags.lists = [.ordered] := by
    simpa [Except.toOption] using hshown
  have hlisted : listInCell.Listed False := by
    have hcell : ¬ Intercept.Tag.ofName? "td".toList = some .item := by decide +kernel
    have hlist : Intercept.Tag.ofName? Markup.Renamed.unorderedList.reserved =
        some (.list .unordered) := by decide +kernel
    refine ⟨fun h => absurd h hcell, ⟨?_, ⟨fun _ => .inr ⟨.unordered, hlist⟩, trivial, trivial⟩,
      trivial⟩, trivial⟩
    rw [hlist]
    rintro ⟨⟩
  obtain ⟨d', e', added, hok, hok', hhtml, hadded, hadded', -⟩ :=
    tables_ignore_surroundings hd (hd.run hrun) rfl hdepth hsetup
      (show Text.lower "table".toList = "table".toList from rfl) [] hlisted
  exact ⟨e, d', e', added, hd.run hrun, htext, hlists, hlisted, hok, hok', hhtml, hadded, hadded'⟩

end Draft

end StyledText
