import StyledText.Proofs.Flow.Text
import StyledText.Proofs.Table.Enclosed

/-!
# Text that a table leaves behind

Where an outermost table ends nothing takes its text out any more: only the end tags of enclosing
elements do that, and the table itself is closed as if it were outside. So what stands loose in it,
outside of every enclosing element, stays behind the placeholder and under the styles of the table.
Loose text is one source; the others are the elements that add characters of their own.
-/

namespace StyledText

open Markup (Event Attributes Content)

/-- Whether an element of this name adds characters of its own: an item of a list ends a line, and
running text makes room for blocks, items, line breaks and images. -/
def addsText (name : Text) : Bool :=
  match Intercept.Tag.ofName? name with
  | some tag => tag = .item
  | none =>
    match Flow.Tag.ofName? name with
    | some tag => tag.addsText
    | none => false

namespace Markup.Content

/-- Whether some text or some element that adds characters stands outside of every enclosing
element. -/
def Leaks : Content → Prop
  | empty => False
  | data e _ rest => (∃ t, e = .characters t ∧ t ≠ []) ∨ rest.Leaks
  | element name _ inner rest =>
    (¬ Intercept.Encloses name ∧ (addsText name = true ∨ inner.Leaks)) ∨ rest.Leaks

end Markup.Content

namespace Draft

variable {lookup? : Option Image.Lookup} {n m : Nat} {d d₁ d₂ d₃ : Draft} {name : Text}
  {attributes : Attributes}

/-- Inside a table and behind a solid text, an element that does not enclose its text adds
characters of its own, or its text is that of its content. -/
theorem text_element (hname : ¬ Intercept.Encloses name) (hd : d.Sound n)
    (hdepth : 0 < d.tags.depth) (hsolid : Flow.Solid d.canvas.text)
    (h₁ : (intercepted lookup?).receive n (.startElement name attributes) d = .ok d₁)
    (h₂ : d₁.Extends d₂) (hd₂ : d₂.Sound m)
    (h₃ : (intercepted lookup?).receive m (.endElement name) d₂ = .ok d₃) :
    (addsText name = true → d.canvas.length < d₃.canvas.length) ∧
      (addsText name = false →
        d₁.canvas.text = d.canvas.text ∧ d₃.canvas.text = d₂.canvas.text) := by
  rcases htag : Intercept.Tag.ofName? name with _ | tag
  · -- running text, or an element that nobody handles
    rw [receive_of_declined (by rintro _ ⟨⟩; exact htag)] at h₁ h₃
    obtain ⟨f₁, hf₁, rfl⟩ := exists_of_map_eq_ok h₁
    obtain ⟨f₃, hf₃, rfl⟩ := exists_of_map_eq_ok h₃
    rcases hflow : Flow.Tag.ofName? name with _ | tag
    · simp only [Flow.State.receive, hflow] at hf₁ hf₃
      cases hf₁
      cases hf₃
      simp [addsText, htag, hflow]
    · simp only [Flow.State.receive, hflow] at hf₁ hf₃
      simp only [addsText, htag, hflow]
      exact ⟨fun ha => Flow.State.lt_length_element ha hd.canvas hsolid hf₁ h₂.grows hd₂.canvas hf₃,
        fun ha => Flow.State.text_element ha hd.canvas hf₁ hd₂.canvas hf₃⟩
  · rw [receive_startElement_of_ofName? htag] at h₁
    rw [receive_endElement_of_ofName? htag] at h₃
    obtain ⟨⟨t₁, c₁⟩, hstart, rfl⟩ := exists_of_map_eq_ok h₁
    obtain ⟨⟨t₃, c₃⟩, hend, rfl⟩ := exists_of_map_eq_ok h₃
    obtain ⟨t', hopen, hsame⟩ := Intercept.State.exists_openElement hstart
    obtain ⟨⟨t'', c''⟩, hclose, hrecord⟩ := exists_of_map_eq_ok hend
    cases hrecord
    simp only [addsText, htag]
    cases tag with
    -- neither tag of a list touches the canvas
    | list kind =>
      cases hopen
      cases hclose
      exact ⟨fun ha => absurd ha Bool.false_ne_true, fun _ => ⟨rfl, rfl⟩⟩
    | item =>
      refine ⟨fun _ => ?_, fun ha => absurd ha.symm Bool.false_ne_true⟩
      have hs := hsame.trans h₂.sameOpen
      have hlt := Flow.lt_length_newline hsolid
      rcases hl : d.tags.lists with _ | ⟨kind, lists⟩
      · -- outside of lists the newline of the start tag stays
        cases (Intercept.State.openItem_of_lists_eq_nil hl).symm.trans hopen
        cases (Intercept.State.closeItem_of_lists_eq_nil (hs.lists.trans hl)).symm.trans hclose
        exact Nat.lt_of_lt_of_le hlt h₂.grows.length_le
      · -- in a list the content is taken back, but not the newline before it
        obtain ⟨t, hok, -⟩ := Intercept.State.closeItem_inside hl hd.balanced hd.canvas hdepth
          hopen hs h₂.grows hd₂.canvas
        cases hok.symm.trans hclose
        exact hlt
    | link => exact absurd (Intercept.encloses_of_ofName? htag rfl) hname
    | bare b => exact absurd (Intercept.encloses_of_ofName? htag rfl) hname
    | table => exact absurd (Intercept.encloses_of_ofName? htag rfl) hname

/-- A canvas that has grown has the same text as before or a longer one. -/
theorem Extends.text_eq_iff {d d' : Draft} (h : d.Extends d') :
    d'.canvas.text = d.canvas.text ↔ d'.canvas.length ≤ d.canvas.length := by
  constructor
  · intro he
    exact Nat.le_of_eq (congrArg List.length he)
  · intro hle
    exact (h.grows.text.eq_of_length_le hle).symm

/-- Data that is not text, or empty, leaves the text alone. -/
theorem text_receive_data {e : Event} (he : e.isTag = false)
    (hnone : ¬ ∃ t, e = .characters t ∧ t ≠ []) {d d' : Draft}
    (hok : (intercepted lookup?).receive n e d = .ok d') : d'.canvas.text = d.canvas.text := by
  cases e with
  | startElement name attributes => cases he
  | endElement name => cases he
  | characters t =>
    have ht : t = [] := by
      by_contra hne
      exact hnone ⟨t, rfl, hne⟩
    subst ht
    cases hok
    exact List.append_nil _
  | _ =>
    cases hok
    rfl

/-- **Loose text.** Inside a table and behind a solid text, well nested content leaves the text as
it was if and only if nothing stands loose in it. -/
theorem run_text_eq_iff (lookup? : Option Image.Lookup) (content : Content) :
    ∀ {n : Nat} {d d' : Draft}, d.Sound n → 0 < d.tags.depth → Flow.Solid d.canvas.text →
      (intercepted lookup?).runFrom n content.events d = .ok d' →
      (d'.canvas.text = d.canvas.text ↔ ¬ content.Leaks) := by
  induction content with
  | empty =>
    intro n d d' _ _ _ hok
    cases hok
    simp [Content.Leaks]
  | data e he rest ih =>
    intro n d d' hd hdepth hsolid hok
    obtain ⟨d₁, hok₁, hs₁, -⟩ := receive_sound lookup? hd e
    obtain ⟨d₁', hok₁', h₁⟩ := exists_receive_data lookup? n he d
    cases hok₁.symm.trans hok₁'
    rw [Content.events, Consumer.runFrom_cons_of_ok hok₁] at hok
    obtain ⟨d'', hok'', -, h'⟩ := run_content lookup? rest hs₁
    cases hok.symm.trans hok''
    by_cases hshown : ∃ t, e = .characters t ∧ t ≠ []
    · obtain ⟨t, rfl, ht⟩ := hshown
      have hlt : d.canvas.length < d₁.canvas.length := by
        cases hok₁
        have hpos := List.length_pos_of_ne_nil (Flow.collapse_ne_nil hsolid ht)
        change _ < Buffer.length (Buffer.append _ _)
        rw [Buffer.length_append]
        exact Nat.lt_add_of_pos_right hpos
      rw [(h₁.trans h').text_eq_iff]
      have := h'.grows.length_le
      exact iff_of_false (by omega) (not_not_intro (.inl ⟨t, rfl, ht⟩))
    · have htext : d₁.canvas.text = d.canvas.text := text_receive_data he hshown hok₁
      rw [← htext] at hsolid ⊢
      rw [ih hs₁ (by rw [h₁.sameOpen.depth]; exact hdepth) hsolid hok]
      simp only [Content.Leaks, hshown, false_or]
  | element name attributes inner rest ihi ihr =>
    intro n d d' hd hdepth hsolid hok
    obtain ⟨d₁, d₂, d₃, h⟩ := exists_runsElement lookup? hd name attributes inner
    obtain ⟨hok, h'⟩ := h.rest hok
    have hrest (htext : d₃.canvas.text = d.canvas.text) :
        d'.canvas.text = d.canvas.text ↔ ¬ rest.Leaks := by
      rw [← htext] at hsolid ⊢
      exact ihr h.sound₃ (by rw [h.around.sameOpen.depth]; exact hdepth) hsolid hok
    -- the text never gets shorter again, so one element that has added to it decides
    have hlonger (hlt : d.canvas.length < d₃.canvas.length) : ¬ d'.canvas.text = d.canvas.text := by
      rw [(h.around.trans h').text_eq_iff]
      have := h'.grows.length_le
      omega
    by_cases hname : Intercept.Encloses name
    · obtain ⟨tag, htag, henc⟩ := Intercept.exists_tag_of_encloses hname
      obtain ⟨d₃', hok₃', hcanvas⟩ :=
        exists_endElement_enclosing htag henc hd hdepth h.start h.inside h.sound₂
      cases h.stop.symm.trans hok₃'
      rw [hrest (by rw [hcanvas])]
      simp [Content.Leaks, hname]
    · obtain ⟨hadds, hloose⟩ := text_element hname hd hdepth hsolid h.start h.inside h.sound₂ h.stop
      by_cases ha : addsText name = true
      · exact iff_of_false (hlonger (hadds ha)) (not_not_intro (.inl ⟨hname, .inl ha⟩))
      · obtain ⟨htext₁, htext₃⟩ := hloose (eq_false_of_ne_true ha)
        -- the start tag has added nothing, so the content begins behind a solid text as well
        have hinner : d₃.canvas.text = d.canvas.text ↔ ¬ inner.Leaks := by
          rw [htext₃, ← htext₁]
          have hdepth₁ : d₁.tags.depth = d.tags.depth :=
            h.depth₁ fun htable => hname (by rw [Intercept.Encloses, htable]; decide +kernel)
          exact ihi h.sound₁ (by rw [hdepth₁]; exact hdepth) (by rw [htext₁]; exact hsolid)
            h.content
        by_cases hleaks : inner.Leaks
        · have hne : ¬ d₃.canvas.text = d.canvas.text := fun he => hinner.mp he hleaks
          rw [h.around.text_eq_iff] at hne
          exact iff_of_false (hlonger (Nat.lt_of_not_le hne))
            (not_not_intro (.inl ⟨hname, .inr hleaks⟩))
        · rw [hrest (hinner.mpr hleaks)]
          simp [Content.Leaks, ha, hleaks]

theorem solid_placeholder : Flow.Solid Intercept.placeholder := by
  constructor <;> decide

/-- **Text behind a placeholder.** From every reachable draft outside of tables, a table with well
nested content adds its placeholder and what is loose in the content; it adds the placeholder alone
if and only if nothing is. -/
theorem table_adds_placeholder_iff {lookup? : Option Image.Lookup} {n : Nat} {d : Draft}
    (h : Reachable lookup? n d) (hdepth : d.tags.depth = 0) {name : Text}
    (hname : name.lower = "table".toList) (attributes : Attributes) (inner : Content) :
    ∃ (d' : Draft) (loose : Text), (intercepted lookup?).runFrom n
        (Content.element name attributes inner .empty).events d = .ok d' ∧
      d'.canvas.text = d.canvas.text ++ Intercept.placeholder ++ loose ∧
      (loose = [] ↔ ¬ inner.Leaks) := by
  obtain ⟨d₁, d₂, d₃, hok₁, hok₂, hok₃, hc₁, hdepth₁, hgrows, hc₃⟩ :=
    run_table lookup? hname h.sound hdepth attributes inner
  obtain ⟨d₁', hok₁', hs₁, -⟩ := receive_sound lookup? h.sound (.startElement name attributes)
  cases hok₁.symm.trans hok₁'
  have htext₁ : d₁.canvas.text = d.canvas.text ++ Intercept.placeholder := by
    rw [hc₁]
    rfl
  have hsolid : Flow.Solid d₁.canvas.text := by
    rw [htext₁]
    exact solid_placeholder.append _
  have hiff := run_text_eq_iff lookup? inner hs₁ (by rw [hdepth₁]; exact Nat.one_pos) hsolid hok₂
  obtain ⟨loose, hloose⟩ := hgrows.text
  refine ⟨d₃, loose, Consumer.runFrom_element_of_ok hok₁ hok₂ hok₃ .empty, ?_, ?_⟩
  · rw [hc₃, ← htext₁]
    exact hloose.symm
  · rw [← hiff, ← hloose, List.append_right_eq_self]

/-- A row with a break behind it. -/
def rowThenBreak : Content :=
  .element "tr".toList [] (.characters "a".toList .empty) (.element "br".toList [] .empty .empty)

theorem table_adds_placeholder_iff_rowThenBreak :
    Reachable none 0 ({}, {}) ∧ Text.lower "table".toList = "table".toList ∧
      ∃ (d' : Draft) (loose : Text), (intercepted none).runFrom 0
          (Content.element "table".toList [] rowThenBreak .empty).events ({}, {}) = .ok d' ∧
        d'.canvas.text = [] ++ Intercept.placeholder ++ loose ∧
        (loose = [] ↔ ¬ rowThenBreak.Leaks) :=
  ⟨.start {}, rfl, table_adds_placeholder_iff (.start {}) rfl rfl [] rowThenBreak⟩

/-- **Loose text stays.** A table does not always add its placeholder alone. -/
theorem not_table_adds_placeholder :
    ¬ ∀ (inner : Content) (d' : Draft), (intercepted none).runFrom 0
        (Content.element "table".toList [] inner .empty).events ({}, {}) = .ok d' →
      d'.canvas.text = Intercept.placeholder := by
  intro h
  have hx := h (.characters "x".toList .empty) _ rfl
  exact absurd hx (by decide +kernel)

end Draft

end StyledText
