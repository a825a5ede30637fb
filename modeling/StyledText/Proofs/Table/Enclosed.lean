import StyledText.Proofs.Buffer.View
import StyledText.Proofs.Draft

/-!
# Elements that take their text out of a table

Inside a table an element that keeps a marker wherever it stands takes back everything: its text
goes to the markup with all that running text has made of it, and so do the styles over that text.
What stands between its tags may be anything.

So an outermost table with nothing but such elements side by side shows its placeholder alone, and
its own styles cover just that: one for the label and one for what reacts to clicks, each of them if
it was asked for. The tables inside it are part of its markup and get none.
-/

namespace StyledText

open Markup (Event Attributes Content)

namespace Intercept

/-- The lower case names of the elements that keep a marker wherever they stand. -/
def enclosingNames : List Text := [
  "tr".toList, "td".toList, "th".toList, "code".toList, "center".toList, "s".toList,
  "strike".toList, Markup.Renamed.anchor.reserved.lower, "table".toList]

/-- Whether an element of this name keeps a marker wherever it stands. -/
def Encloses (name : Text) : Prop := name.lower ∈ enclosingNames

instance (name : Text) : Decidable (Encloses name) := inferInstanceAs (Decidable (_ ∈ _))

theorem exists_tag_of_encloses {name : Text} (h : Encloses name) :
    ∃ tag, Tag.ofName? name = some tag ∧ tag.encloses = true := by
  have hall : ∀ lower ∈ enclosingNames,
      ((Tag.all.find? (·.eventName = lower)).any (·.encloses)) = true := by decide +kernel
  have hfound := hall _ h
  rcases htag : Tag.all.find? (·.eventName = name.lower) with _ | tag
  · rw [htag] at hfound
    cases hfound
  · rw [htag] at hfound
    exact ⟨tag, htag, hfound⟩

theorem encloses_of_ofName? {name : Text} {tag : Tag} (h : Tag.ofName? name = some tag)
    (henc : tag.encloses = true) : Encloses name := by
  rw [Encloses, ← Tag.eventName_of_ofName? h]
  cases tag with
  | list kind => cases henc
  | item => cases henc
  | link => decide +kernel
  | bare b => cases b <;> decide +kernel
  | table => decide +kernel

theorem ofName?_of_lower_eq_table {name : Text} (h : name.lower = "table".toList) :
    Tag.ofName? name = some .table := by
  rw [Tag.ofName?, h]
  decide +kernel

namespace State

/-- The styles that show the markup of the last outermost table, told after it has ended. -/
def shownStyles (t : State) : List Style :=
  (t.setup.tableLink.map fun link => Style.tableLink (link.attachedTo t.html)).toList
    ++ if t.setup.clickable then [.tableClick t.clicks (some t.html)] else []

theorem shownStyles_countClick (t : State) (markers : List Marker) :
    { t.countClick with markers := markers }.shownStyles = t.tableStyles := by
  unfold countClick shownStyles tableStyles
  cases h : t.setup.clickable <;> simp [h]

/-! ## The tables that are counted -/

variable {n : Nat} {attributes : Attributes} {tag : Tag} {t t' : State} {c c' : Canvas}

/-- No start tag makes anything that reacts to clicks: that is made when a table is complete. -/
theorem Opens.clicks_eq (h : Opens n attributes t c tag t' c') : t'.clicks = t.clicks := by
  cases h with
  | list kind => cases kind <;> rfl
  | _ => rfl

theorem Opens.setup_eq (h : Opens n attributes t c tag t' c') : t'.setup = t.setup := by
  cases h with
  | list kind => cases kind <;> rfl
  | _ => rfl

/-- A start tag inside a table can only lead further into it. -/
theorem Opens.depth_eq (h : Opens n attributes t c tag t' c') (hdepth : 0 < t.depth) :
    t'.depth = t.depth + tag.levels := by
  cases h with
  | list kind => cases kind <;> rfl
  | root hzero => exact absurd hzero (Nat.ne_of_gt hdepth)
  | _ => rfl

/-- The styles of an element are made before it is closed, so closing counts nothing. -/
theorem Closes.clicks_eq {kind : MarkerKind} {isParagraph : Bool} {styles : List Style}
    (h : Closes n kind isParagraph styles t c t' c') : t'.clicks = t.clicks := by
  cases h <;> rfl

/-- No end tag counts, but for the one that completes an outermost table. -/
theorem Shuts.clicks_eq (h : Shuts n t c tag t' c') (hinner : tag = .table → t.depth ≠ 1) :
    t'.clicks = t.clicks := by
  cases h with
  | list kind => rw [closeList_eq]
  | strayItem => rfl
  | strayTable => rfl
  | item hl h => exact h.clicks_eq
  | link h => exact h.clicks_eq
  | bare h => exact h.clicks_eq
  | root hdepth ht₀ h => exact absurd hdepth (hinner rfl)
  | inner hdepth h => exact h.clicks_eq

theorem clicks_countClick (t : State) :
    t.countClick.clicks = t.clicks + if t.setup.clickable then 1 else 0 := by
  rw [countClick_eq]

/-- The end tag of an outermost table counts it, if something is to react to its clicks. -/
theorem Shuts.clicks_table (h : Shuts n t c .table t' c') (hdepth : t.depth = 1) :
    t'.clicks = t.clicks + if t.setup.clickable then 1 else 0 := by
  cases h with
  | strayTable hzero => omega
  | root _ ht₀ h =>
    subst ht₀
    exact h.clicks_eq.trans (clicks_countClick _)
  | inner hinner => omega

theorem clicks_record (text : Text) (t : State) : (t.record text).clicks = t.clicks := by
  rw [record_eq]

end State

end Intercept

namespace Draft

variable {lookup? : Option Image.Lookup} {n m : Nat} {d d₁ d₂ : Draft} {name : Text}
  {attributes : Attributes}

/-! ## Enclosing elements -/

/-- The end tag of an enclosing element brings back the canvas that the element began on. -/
theorem exists_endElement_enclosing {tag : Intercept.Tag}
    (htag : Intercept.Tag.ofName? name = some tag) (henc : tag.encloses = true) (hd : d.Sound n)
    (hdepth : 0 < d.tags.depth)
    (h₁ : (intercepted lookup?).receive n (.startElement name attributes) d = .ok d₁)
    (h₂ : d₁.Extends d₂) (hd₂ : d₂.Sound m) :
    ∃ d₃ : Draft, (intercepted lookup?).receive m (.endElement name) d₂ = .ok d₃ ∧
      d₃.canvas = d.canvas := by
  obtain ⟨kind, hkind⟩ := Intercept.Tag.exists_kind_of_encloses henc
  rw [receive_startElement_of_ofName? htag,
    Intercept.State.startTag_inside hkind hd.canvas hdepth] at h₁
  cases h₁
  rw [receive_endElement_of_ofName? htag, Intercept.State.endTag_inside hkind hd.canvas h₂.grows
    hd₂.canvas h₂.sameOpen.markers hdepth h₂.sameOpen.depth]
  exact ⟨_, rfl, rfl⟩

/-- Inside a table an enclosing element with its content leaves the canvas as it was. -/
theorem run_enclosing (lookup? : Option Image.Lookup) (hname : Intercept.Encloses name)
    (hd : d.Sound n) (hdepth : 0 < d.tags.depth) (attributes : Attributes) (inner : Content) :
    ∃ d' : Draft, (intercepted lookup?).runFrom n
        (Content.element name attributes inner .empty).events d = .ok d' ∧
      d'.canvas = d.canvas := by
  obtain ⟨tag, htag, henc⟩ := Intercept.exists_tag_of_encloses hname
  obtain ⟨d₁, hok₁, hs₁, -⟩ := receive_sound lookup? hd (.startElement name attributes)
  obtain ⟨d₂, hok₂, hs₂, h₂⟩ := run_content lookup? inner hs₁
  obtain ⟨d₃, hok₃, hcanvas⟩ := exists_endElement_enclosing htag henc hd hdepth hok₁ h₂ hs₂
  exact ⟨d₃, Consumer.runFrom_element_of_ok hok₁ hok₂ hok₃ .empty, hcanvas⟩

/-- So do several of them side by side, by induction over the content. -/
theorem run_enclosing_elements (lookup? : Option Image.Lookup) (content : Content)
    (hnames : content.OnlyElements Intercept.Encloses) :
    ∀ {n : Nat} {d : Draft}, d.Sound n → 0 < d.tags.depth →
      ∃ d' : Draft, (intercepted lookup?).runFrom n content.events d = .ok d' ∧
        d'.canvas = d.canvas := by
  induction content with
  | empty =>
    intro n d hd _
    exact ⟨d, rfl, rfl⟩
  | data e he rest => exact absurd hnames id
  | element name attributes inner rest _ ih =>
    intro n d hd hdepth
    obtain ⟨d₁, hok₁, hcanvas₁⟩ := run_enclosing lookup? hnames.1 hd hdepth attributes inner
    obtain ⟨d₁', hok₁', hs₁, h₁⟩ :=
      run_content lookup? (.element name attributes inner .empty) hd
    cases hok₁.symm.trans hok₁'
    obtain ⟨d₂, hok₂, hcanvas₂⟩ := ih hnames.2 hs₁ (by rw [h₁.sameOpen.depth]; exact hdepth)
    refine ⟨d₂, ?_, hcanvas₂.trans hcanvas₁⟩
    have hevents : (Content.element name attributes inner rest).events =
        (Content.element name attributes inner .empty).events ++ rest.events := by
      simp [Content.events]
    rw [hevents, Consumer.runFrom_append_of_ok hok₁]
    exact hok₂

/-! ## An outermost table -/

/-- An outermost table with its content: the text of the content stays behind the placeholder, and
the styles of the table cover both. -/
theorem run_table (lookup? : Option Image.Lookup) (hname : name.lower = "table".toList)
    (hd : d.Sound n) (hdepth : d.tags.depth = 0) (attributes : Attributes) (inner : Content) :
    ∃ d₁ d₂ d₃ : Draft,
      (intercepted lookup?).receive n (.startElement name attributes) d = .ok d₁ ∧
      (intercepted lookup?).runFrom (n + 1) inner.events d₁ = .ok d₂ ∧
      (intercepted lookup?).receive (n + 1 + inner.events.length) (.endElement name) d₂ = .ok d₃ ∧
      d₁.canvas = Intercept.State.placeTable n d.canvas ∧
      d₁.tags.depth = 1 ∧ d₁.canvas.Grows d₂.canvas ∧
      d₃.canvas = Canvas.styled (n + 1 + inner.events.length) d₃.tags.shownStyles d.canvas.length
        d₂.canvas.length (Buffer.remove d₂.canvas (.marker ⟨n, .table, none⟩)) := by
  have htag := Intercept.ofName?_of_lower_eq_table hname
  obtain ⟨d₁, hok₁, hs₁, -⟩ := receive_sound lookup? hd (.startElement name attributes)
  obtain ⟨d₂, hok₂, hs₂, h₂⟩ := run_content lookup? inner hs₁
  have hstart := hok₁
  rw [receive_startElement_of_ofName? htag, Intercept.State.startTag_root hd.canvas hdepth] at hstart
  cases hstart
  have hgrows := (Canvas.grows_append _ _).trans h₂.grows
  obtain ⟨d₃, hok₃, -⟩ := receive_sound lookup? hs₂ (.endElement name)
  obtain ⟨c₃, hc₃, hend, -⟩ := Intercept.State.endTag_root hd.canvas hgrows hs₂.canvas
    h₂.sameOpen.markers h₂.sameOpen.depth
  refine ⟨_, d₂, d₃, hok₁, hok₂, hok₃, rfl, rfl, h₂.grows, ?_⟩
  rw [receive_endElement_of_ofName? htag, hend] at hok₃
  cases hok₃
  change c₃ = _
  rw [hc₃, Intercept.State.closed_inline]
  exact congrArg (fun styles => Canvas.styled _ styles _ _ _)
    (Intercept.State.shownStyles_countClick ..).symm

/-- Well nested content of a table makes nothing that reacts to clicks. The tables in it end inside
another table, so no end tag in it completes an outermost one. -/
theorem clicks_of_run_inside (lookup? : Option Image.Lookup) (content : Content) :
    ∀ {n : Nat} {d d' : Draft}, d.Sound n → 0 < d.tags.depth →
      (intercepted lookup?).runFrom n content.events d = .ok d' →
        d'.tags.clicks = d.tags.clicks := by
  induction content with
  | empty =>
    intro n d d' _ _ hok
    cases hok
    rfl
  | data e he rest ih =>
    intro n d d' hd hdepth hok
    obtain ⟨d₁, hok₁, hs₁, -⟩ := receive_sound lookup? hd e
    rw [Content.events, Consumer.runFrom_cons_of_ok hok₁] at hok
    have hnone : e.name? = none := by
      rwa [Event.isTag, Option.isSome_eq_false_iff, Option.isNone_iff_eq_none] at he
    have htags : d₁.tags = d.tags :=
      tags_of_declined (by rw [hnone]; rintro _ ⟨⟩) hok₁
    rw [ih hs₁ (by rw [htags]; exact hdepth) hok, htags]
  | element name attributes inner rest ihi ihr =>
    intro n d d' hd hdepth hok
    obtain ⟨d₁, d₂, d₃, h⟩ := exists_runsElement lookup? hd name attributes inner
    obtain ⟨hrest, -⟩ := h.rest hok
    have hdepth₃ : 0 < d₃.tags.depth := by
      rw [h.around.sameOpen.depth]
      exact hdepth
    refine (ihr h.sound₃ hdepth₃ hrest).trans ?_
    rcases htag : Intercept.Tag.ofName? name with _ | tag
    · -- neither tag comes to the interceptor
      have htags₁ := tags_of_declined (by rintro _ ⟨⟩; exact htag) h.start
      have htags₃ := tags_of_declined (by rintro _ ⟨⟩; exact htag) h.stop
      rw [htags₃, ihi h.sound₁ (by rw [htags₁]; exact hdepth) h.content, htags₁]
    · obtain ⟨t₁, hopens, ht₁⟩ := opens_of_receive htag hd h.start
      obtain ⟨t₃, hshuts, ht₃⟩ := shuts_of_receive htag h.sound₂ h.stop
      have hdepth₁ : d₁.tags.depth = d.tags.depth + tag.levels := by
        rw [ht₁, (Intercept.State.sameOpen_record _ t₁).depth, hopens.depth_eq hdepth]
      have hinner : tag = .table → d₂.tags.depth ≠ 1 := by
        rintro rfl
        rw [h.inside.sameOpen.depth, hdepth₁, Intercept.Tag.levels]
        omega
      rw [ht₃, Intercept.State.clicks_record, hshuts.clicks_eq hinner,
        ihi h.sound₁ (by omega) h.content, ht₁, Intercept.State.clicks_record, hopens.clicks_eq]

/-- What is shown for an outermost table is what was asked for at the start: the label, if there is
to be one, and what reacts to clicks, which has the next number. -/
theorem RunsElement.shownStyles_eq {inner : Content} {d₃ : Draft}
    (h : RunsElement lookup? n name attributes inner d d₁ d₂ d₃) (hd : d.Sound n)
    (hname : name.lower = "table".toList) (hdepth₁ : d₁.tags.depth = 1) :
    d₃.tags.shownStyles =
      d.tags.setup.tableLink.toList.map (fun link => .tableLink (link.attachedTo d₃.tags.html))
        ++ if d.tags.setup.clickable then
          [.tableClick (d.tags.clicks + 1) (some d₃.tags.html)] else [] := by
  have htag := Intercept.ofName?_of_lower_eq_table hname
  obtain ⟨t₁, hopens, ht₁⟩ := opens_of_receive htag hd h.start
  obtain ⟨t₃, hshuts, ht₃⟩ := shuts_of_receive htag h.sound₂ h.stop
  have hclicks₂ : d₂.tags.clicks = d.tags.clicks := by
    rw [clicks_of_run_inside lookup? inner h.sound₁ (by omega) h.content, ht₁,
      Intercept.State.clicks_record, hopens.clicks_eq]
  have hsetup₂ : d₂.tags.setup = d.tags.setup := by
    rw [h.inside.sameOpen.setup, ht₁, (Intercept.State.sameOpen_record _ t₁).setup, hopens.setup_eq]
  have hclicks₃ : d₃.tags.clicks = d.tags.clicks + if d.tags.setup.clickable then 1 else 0 := by
    rw [ht₃, Intercept.State.clicks_record,
      hshuts.clicks_table (h.inside.sameOpen.depth.trans hdepth₁), hclicks₂, hsetup₂]
  rw [Intercept.State.shownStyles, h.around.sameOpen.setup, hclicks₃]
  cases d.tags.setup.tableLink <;> cases d.tags.setup.clickable <;> rfl

/-- **Enclosed text.** On every reachable draft, an enclosing element inside a table leaves the
text, the styled ranges and the marks of the canvas as they were, whatever its content. So an
outermost table of such elements alone adds its placeholder to the text, and to the ranges one over
the placeholder for the label and then one for what reacts to clicks, each of them if the setup asks
for it. -/
theorem enclosed_text_is_taken_out {lookup? : Option Image.Lookup} {n : Nat} {d : Draft}
    (h : Reachable lookup? n d) (name : Text) (attributes : Attributes) (inner : Content) :
    (0 < d.tags.depth → Intercept.Encloses name →
      ∃ d' : Draft, (intercepted lookup?).runFrom n
          (Content.element name attributes inner .empty).events d = .ok d' ∧
        d'.canvas = d.canvas) ∧
    (d.tags.depth = 0 → name.lower = "table".toList → inner.OnlyElements Intercept.Encloses →
      ∃ d' : Draft, (intercepted lookup?).runFrom n
          (Content.element name attributes inner .empty).events d = .ok d' ∧
        d'.tags.setup = d.tags.setup ∧
        d'.canvas.text = d.canvas.text ++ Intercept.placeholder ∧
        d'.canvas.marks = d.canvas.marks ∧
        d'.canvas.annotations = d.canvas.annotations ++
          (d.tags.setup.tableLink.toList.map (fun link =>
              Style.tableLink (link.attachedTo d'.tags.html))
            ++ if d.tags.setup.clickable then
              [Style.tableClick (d.tags.clicks + 1) (some d'.tags.html)] else []).map fun s =>
            ⟨.style (n + 1 + inner.events.length) s, d.canvas.length,
              d.canvas.length + Intercept.placeholder.length, .exclusive⟩) := by
  refine ⟨fun hdepth hname => run_enclosing lookup? hname h.sound hdepth attributes inner, ?_⟩
  intro hdepth hname honly
  obtain ⟨d₁, d₂, d₃, hruns⟩ := exists_runsElement lookup? h.sound name attributes inner
  obtain ⟨d₁', d₂', d₃', hok₁, hok₂, hok₃, hc₁, hdepth₁, -, hc₃⟩ :=
    run_table lookup? hname h.sound hdepth attributes inner
  cases hok₁.symm.trans hruns.start
  cases hok₂.symm.trans hruns.content
  cases hok₃.symm.trans hruns.stop
  obtain ⟨d₂', hok₂', hc₂⟩ := run_enclosing_elements lookup? inner honly hruns.sound₁
    (by rw [hdepth₁]; exact Nat.one_pos)
  cases hok₂.symm.trans hok₂'
  have hremove : Buffer.remove d₂.canvas (.marker ⟨n, .table, none⟩) =
      Buffer.append d.canvas Intercept.placeholder := by
    rw [hc₂, hc₁, Intercept.State.remove_placeTable h.sound.canvas]
  have hlen : d₂.canvas.length = d.canvas.length + Intercept.placeholder.length := by
    rw [hc₂, hc₁, Intercept.State.length_placeTable]
  have hspread : Canvas.spread (n + 1 + inner.events.length) d₃.tags.shownStyles d.canvas.length
      d₂.canvas.length = d₃.tags.shownStyles.map fun s =>
        ⟨.style (n + 1 + inner.events.length) s, d.canvas.length,
          d.canvas.length + Intercept.placeholder.length, .exclusive⟩ := by
    have hpos : 0 < Intercept.placeholder.length := by decide
    rw [hlen, Canvas.spread, if_neg (by omega)]
  rw [hremove] at hc₃
  refine ⟨d₃, Consumer.runFrom_element_of_ok hok₁ hok₂ hok₃ .empty,
    hruns.around.sameOpen.setup, by rw [hc₃]; rfl, hruns.around.grows.marks_eq, ?_⟩
  rw [← hruns.shownStyles_eq h.sound hname hdepth₁, ← hspread]
  exact Canvas.annotations_eq_append h.sound.canvas (Nat.le_refl _) (by rw [hc₃]; rfl)

/-- A cell with a heading and an image in it. -/
def mixedCell : Content :=
  .element "td".toList []
    (.element "h1".toList [] (.characters "a".toList .empty)
      (.element "img".toList [] .empty .empty)) .empty

theorem enclosed_text_is_taken_out_mixedCell :
    (∃ d d' : Draft, Reachable none 1 d ∧ 0 < d.tags.depth ∧
      (intercepted none).runFrom 1 (Content.element "tr".toList [] mixedCell .empty).events d =
        .ok d' ∧ d'.canvas = d.canvas) ∧
    ∃ d' : Draft, (intercepted none).runFrom 0
        (Content.element "table".toList [] mixedCell .empty).events
        ({ setup := { tableLink := some {}, clickable := true } }, {}) = .ok d' ∧
      d'.canvas.text = Intercept.placeholder ∧
      d'.tags.html = "<table><td>\n\na\n\n\uFFFC</td></table>".toList ∧
      d'.canvas.annotations = [
        ⟨.style 8 (.tableLink (({} : TableLink).attachedTo d'.tags.html)), 0, 17, .exclusive⟩,
        ⟨.style 8 (.tableClick 1 (some d'.tags.html)), 0, 17, .exclusive⟩] := by
  have hstart : Reachable none 0
      ({ setup := { tableLink := some {}, clickable := true } }, {}) := .start _
  refine ⟨?_, ?_⟩
  · obtain ⟨d, -, -, hok, -, -, -, hdepth, -⟩ :=
      run_table none (show Text.lower "table".toList = "table".toList from rfl) hstart.sound rfl []
        .empty
    have hreach : Reachable none 1 d := .event hstart hok
    have hpos : 0 < d.tags.depth := by rw [hdepth]; exact Nat.one_pos
    obtain ⟨d', hrun, hcanvas⟩ :=
      (enclosed_text_is_taken_out hreach "tr".toList [] mixedCell).1 hpos (by decide +kernel)
    exact ⟨d, d', hreach, hpos, hrun, hcanvas⟩
  · obtain ⟨d', hrun, -, htext, -, hranges⟩ :=
      (enclosed_text_is_taken_out hstart "table".toList [] mixedCell).2 rfl (by decide +kernel)
        ⟨by decide +kernel, trivial⟩
    have hhtml : ((intercepted none).runFrom 0
        (Content.element "table".toList [] mixedCell .empty).events
        ({ setup := { tableLink := some {}, clickable := true } }, {})).toOption.map
          (fun d : Draft => d.tags.html) =
        some "<table><td>\n\na\n\n\uFFFC</td></table>".toList := by decide +kernel
    rw [hrun] at hhtml
    exact ⟨d', hrun, htext, Option.some.inj hhtml, hranges.trans rfl⟩

end Draft

end StyledText
