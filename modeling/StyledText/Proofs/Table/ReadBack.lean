import StyledText.Proofs.Markup.Inert
import StyledText.Proofs.Table.Recorded
import StyledText.Proofs.Table.Surroundings

/-!
# Reading the markup of a table back

The markup of a table can be read again, and then it should have the tags that were recorded. The
texts between them are written down as they are, though, with nothing in them escaped. So a text of
a cell that looks like a tag is read as a tag, and what can be said is what holds of texts that look
like none: where all data in the table is inert, the tags that are read are those that were
recorded, as far as reading goes; and it goes to the end if there is no ampersand in the data.

* `Draft.Records` — what part of a table adds to the text and to the markup, from one run;
* `Draft.run_records` — all well nested content inside a table;
* `Markup.Reading.reports_woven` — tags with inert text before each of them, read again;
* `Draft.recorded_tags_read_back` — an outermost table.
-/

namespace StyledText

open Markup (Event Attributes Content)

/-! ## Tags that were recorded -/

namespace Markup

open Text (AtBracket)

/-- The tag that is recorded for an event that is intercepted: without attributes, and under the
name of the document. -/
def Event.recorded? : Event → Option Event
  | startElement name _ => (Intercept.Tag.ofName? name).map fun tag => startElement tag.name []
  | endElement name => (Intercept.Tag.ofName? name).map fun tag => endElement tag.name
  | _ => none

/-- Whether a text is read as a tag, whatever stands behind it. -/
structure ReadsAs (w : Text) (e : Event) : Prop where
  isTag : e.isTag = true
  head_eq : w.head? = some '<'
  reads : ∀ u p, ∃ q,
    Reading.startingAt p none (w ++ u) = (Reading.startingAt q none u).prepend [e]

theorem ReadsAs.atBracket {w : Text} {e : Event} (h : ReadsAs w e) (u : Text) :
    AtBracket (w ++ u) := by
  obtain ⟨w', rfl⟩ := List.head?_eq_some_iff.mp h.head_eq
  exact Text.atBracket_cons _

/-- **Woven tags.** A text that is made of tags with inert text before each reports just these
tags. -/
theorem Reading.reports_woven {ws : List Text} {es : List Event} (h : List.Forall₂ ReadsAs ws es) :
    ∀ {s : Text}, Text.Woven (·.isInert = true) ws s →
      ∀ p, Reports s es (startingAt p none s) := by
  induction h with
  | nil =>
    intro s hs p
    rw [hs.eq_nil, startingAt_nil]
    exact reports_nil []
  | @cons w e ws es hw _ ih =>
    intro s hs p
    obtain ⟨x, s', rfl, hx, hs'⟩ := hs.exists_cons
    refine reports_inert (hw.atBracket s') (fun p => ?_) x hx p
    obtain ⟨q, hq⟩ := hw.reads s' p
    have hrest := ((ih hs' q).of_suffix w).prepend [e]
    rw [List.filter_cons_of_pos hw.isTag] at hrest
    rw [hq]
    exact hrest

/-- The same for a whole document: reading begins at the first character, with no raw text and no
data before it. -/
theorem reports_read {ws : List Text} {es : List Event} {s : Text}
    (h : List.Forall₂ ReadsAs ws es) (hs : Text.Woven (·.isInert = true) ws s) :
    Reading.Reports s es (read s) := by
  have hreports := Reading.reports_woven h hs Position.start
  refine ⟨?_, fun hf => ?_, hreports.cause⟩
  · rw [tags_read]
    exact hreports.begins
  · rw [tags_read]
    exact hreports.tags_eq hf

end Markup

namespace Intercept.Tag

open Markup (IsBareName ReadsAs Reading Construct RawElement)

/-- All names are plain: letters only, so a recorded start tag is a name and a bracket, with no gap
and no attribute in it. -/
theorem isBareName_name (tag : Tag) : IsBareName tag.name := by
  cases tag with
  | list kind => cases kind <;> exact ⟨by decide, by decide⟩
  | bare b => cases b <;> exact ⟨by decide, by decide⟩
  | _ => exact ⟨by decide, by decide⟩

/-- All names are in lower case, so the reader gives them back as they were recorded. -/
theorem lower_name (tag : Tag) : tag.name.lower = tag.name := by
  have hall : ∀ t ∈ all, t.name.lower = t.name := by decide +kernel
  exact hall tag tag.mem_all

/-- All elements have content, and it is no raw text: their start tags are read without an end tag
of their own, and what follows them is read as markup. -/
theorem name_notMem_voidElements (tag : Tag) :
    tag.name ∉ Markup.voidElements ∧ RawElement.ofName? tag.name = none := by
  have hall : ∀ t ∈ all, t.name ∉ Markup.voidElements ∧ RawElement.ofName? t.name = none := by
    decide +kernel
  exact hall tag tag.mem_all

/-- A recorded start tag is read as the start of its element without attributes, whatever stands
behind it. -/
theorem readsAs_startText (tag : Tag) : ReadsAs tag.startText (.startElement tag.name []) := by
  refine ⟨rfl, rfl, fun u p => ⟨p.after tag.startText, ?_⟩⟩
  obtain ⟨hvoid, hraw⟩ := tag.name_notMem_voidElements
  have hread := Reading.startingAt_bareTag tag.isBareName_name u p
  have htext : tag.startText ++ u = '<' :: (tag.name ++ '>' :: u) := by simp [startText]
  rwa [tag.lower_name, Construct.startEvents_of_notMem hvoid, hraw, ← htext] at hread

/-- A recorded end tag is read as the end of its element, whatever stands behind it. -/
theorem readsAs_endText (tag : Tag) : ReadsAs tag.endText (.endElement tag.name) := by
  refine ⟨rfl, rfl, fun u p => ⟨p.after tag.endText, ?_⟩⟩
  have hevents := Construct.endEvents_of_isBareName tag.isBareName_name
    (by rw [tag.lower_name]; exact tag.name_notMem_voidElements.1)
  have hread := Reading.startingAt_endTag tag.isBareName_name.bracket_notMem u p
  have htext : tag.endText ++ u = '<' :: '/' :: (tag.name ++ '>' :: u) := by simp [endText]
  rwa [hevents, tag.lower_name, ← htext] at hread

theorem ampersand_notMem (tag : Tag) : '&' ∉ tag.startText ∧ '&' ∉ tag.endText := by
  have hall : ∀ t ∈ all, '&' ∉ t.startText ∧ '&' ∉ t.endText := by decide
  exact hall tag tag.mem_all

end Intercept.Tag

namespace Markup

/-- No tag that is recorded brings an ampersand into the markup, so only data can. -/
theorem Event.ampersand_notMem_of_handledText? {e : Event} {w : Text}
    (h : e.handledText? = some w) : '&' ∉ w := by
  cases e with
  | startElement name attributes =>
    obtain ⟨tag, -, rfl⟩ := Option.map_eq_some_iff.mp h
    exact tag.ampersand_notMem.1
  | endElement name =>
    obtain ⟨tag, -, rfl⟩ := Option.map_eq_some_iff.mp h
    exact tag.ampersand_notMem.2
  | _ => cases h

/-- What is recorded for an event is read as the tag that is recorded; for an event that is not
intercepted there is neither. -/
theorem Event.readsAs_recorded (e : Event) :
    (e.handledText? = none ∧ e.recorded? = none) ∨
      ∃ w e', e.handledText? = some w ∧ e.recorded? = some e' ∧ ReadsAs w e' := by
  cases e with
  | startElement name attributes =>
    rcases htag : Intercept.Tag.ofName? name with _ | tag
    · exact .inl ⟨congrArg (Option.map _) htag, congrArg (Option.map _) htag⟩
    · exact .inr ⟨_, _, congrArg (Option.map _) htag, congrArg (Option.map _) htag,
        tag.readsAs_startText⟩
  | endElement name =>
    rcases htag : Intercept.Tag.ofName? name with _ | tag
    · exact .inl ⟨congrArg (Option.map _) htag, congrArg (Option.map _) htag⟩
    · exact .inr ⟨_, _, congrArg (Option.map _) htag, congrArg (Option.map _) htag,
        tag.readsAs_endText⟩
  | _ => exact .inl ⟨rfl, rfl⟩

/-- So the recorded tags of many events, one by one, are read as those that should be found
again. -/
theorem readsAs_filterMap (events : List Event) :
    List.Forall₂ ReadsAs (events.filterMap (·.handledText?)) (events.filterMap (·.recorded?)) := by
  induction events with
  | nil => exact .nil
  | cons e events ih =>
    rcases e.readsAs_recorded with ⟨htext, hevent⟩ | ⟨w, e', htext, hevent, hreads⟩
    · rwa [List.filterMap_cons_none htext, List.filterMap_cons_none hevent]
    · rw [List.filterMap_cons_some htext, List.filterMap_cons_some hevent]
      exact .cons hreads ih

end Markup

/-! ## What a part of a table adds -/

namespace Text

/-- A property that data keeps when it is collapsed and put together, with room in between. -/
structure Lasting (p : Text → Prop) : Prop where
  append : ∀ {s t : Text}, p s → p t → p (s ++ t)
  collapse : ∀ {t : Text}, p t → ∀ previous, p (Flow.collapse previous t)
  of_room : ∀ {t : Text}, (∀ x ∈ t, x = '\n' ∨ x = objectReplacement) → p t

/-- Newlines are room, and a lasting property holds of all room. -/
theorem Lasting.of_newlines {p : Text → Prop} (h : Lasting p) {t : Text} (ht : ∀ x ∈ t, x = '\n') :
    p t :=
  h.of_room fun x hx => .inl (ht x hx)

theorem Lasting.nil {p : Text → Prop} (h : Lasting p) : p [] := h.of_newlines (by simp)

/-- That a character does not occur is lasting, if it is none of those that collapsing and making
room can bring in. -/
theorem lasting_notMem {a : Char} (h : a ∉ [' ', '\n', objectReplacement]) :
    Lasting fun t => a ∉ t where
  append := List.not_mem_append
  collapse := fun ht => Flow.notMem_collapse (fun he => h (by simp [he])) ht
  of_room := fun ht ha => h (by rcases ht a ha with rfl | rfl <;> simp)

/-- That a text is inert is lasting: neither a blank nor a newline nor the character of an image
makes a tag out of a text that holds none. -/
theorem lasting_isInert : Lasting (·.isInert = true) where
  append := isInert_append
  collapse := isInert_collapse
  of_room := fun ht => isInert_of_notMem ((lasting_notMem (by decide)).of_room ht)

end Text

namespace Draft

variable {p : Text → Prop} {lookup? : Option Image.Lookup} {n : Nat} {name : Text}
  {attributes : Attributes} {events events' : List Event} {inner : Content}
  {d d' d'' d₁ d₂ d₃ : Draft}

/-- From `d` to `d'` the text has grown by some with `p`, and the markup by the tags of the events
that are intercepted, with text with `p` before each of them. -/
def Records (p : Text → Prop) (events : List Event) (d d' : Draft) : Prop :=
  ∃ r w, d.Gains r w d' ∧ p r ∧ Text.Woven p (events.filterMap (·.handledText?)) w

/-- Parts of a table that come one after the other record one after the other; text that the first
leaves behind stands before the tags of the second. -/
theorem Records.trans (hp : Text.Lasting p) (h : Records p events d d')
    (h' : Records p events' d' d'') : Records p (events ++ events') d d'' := by
  obtain ⟨r, w, hgains, hr, hw⟩ := h
  obtain ⟨r', w', hgains', hr', hw'⟩ := h'
  refine ⟨r ++ r', w ++ w', hgains.trans hgains', hp.append hr hr', ?_⟩
  rw [List.filterMap_append]
  exact hw.append_woven hw'

/-- Data adds to the text and records nothing: collapsed data has the property that the data has. -/
theorem records_receive_data (hp : Text.Lasting p) {e : Event} (hdata : e.isTag = false)
    (he : ∀ t, e = .characters t → p t) (hok : (intercepted lookup?).receive n e d = .ok d') :
    Records p [e] d d' := by
  cases e with
  | startElement => cases hdata
  | endElement => cases hdata
  | characters t =>
    cases hok
    exact ⟨_, [], ⟨rfl, (List.append_nil _).symm⟩, hp.collapse (he t rfl) _, .nil⟩
  | _ =>
    cases hok
    exact ⟨[], [], ⟨(List.append_nil _).symm, (List.append_nil _).symm⟩, hp.nil, .nil⟩

/-- An item outside of lists begins a line and leaves the text of its content. Its end tag finds no
list to close an item of, and so only its tags are recorded. -/
theorem RunsElement.gains_looseItem {r₁ : Text}
    (h : RunsElement lookup? n name attributes inner d d₁ d₂ d₃)
    (hdepth : 0 < d.tags.depth) (htag : Intercept.Tag.ofName? name = some .item)
    (hlist : d.tags.lists = []) (hr₁ : d.canvas.newline = d.canvas.append r₁) :
    d.Gains r₁ Intercept.Tag.item.startText d₁ ∧ ∀ r w, d₁.Gains r w d₂ →
      d.Gains (r₁ ++ r) (Intercept.Tag.item.startText ++ w ++ Intercept.Tag.item.endText) d₃ := by
  obtain ⟨t₁, hopen, ht₁⟩ := exists_openElement htag h.start
  obtain ⟨t₃, hclose, ht₃⟩ := exists_closeElement htag h.stop
  obtain ⟨rfl, hc₁⟩ := Prod.mk.inj
    (Except.ok.inj ((Intercept.State.openItem_of_lists_eq_nil hlist).symm.trans hopen))
  have hrecord := Intercept.State.sameOpen_record Intercept.Tag.item.startText d.tags
  -- the content leaves no list open, so the end tag finds none either
  have hlist₂ : d₂.tags.lists = [] := by
    rw [h.inside.sameOpen.lists, ht₁, hrecord.lists, hlist]
  have hdepth₂ : 0 < d₂.tags.depth := by
    rw [h.inside.sameOpen.depth, ht₁, hrecord.depth]
    exact hdepth
  obtain ⟨rfl, hc₃⟩ := Prod.mk.inj
    (Except.ok.inj ((Intercept.State.closeItem_of_lists_eq_nil hlist₂).symm.trans hclose))
  have hstart : d.Gains r₁ Intercept.Tag.item.startText d₁ := by
    refine ⟨by rw [← hc₁, hr₁]; rfl, ?_⟩
    rw [ht₁, Intercept.State.html_record hdepth]
  refine ⟨hstart, fun r w hgains => ⟨?_, ?_⟩⟩
  · rw [← hc₃, hgains.text, hstart.text, List.append_assoc]
  · rw [ht₃, Intercept.State.html_record hdepth₂, hgains.html, hstart.html]
    simp

/-- The tags of an element that is intercepted are recorded around those of its content, the start
tag before them and the end tag behind them. -/
theorem filterMap_element {tag : Intercept.Tag} (htag : Intercept.Tag.ofName? name = some tag)
    (attributes : Attributes) (inner : Content) :
    (Content.element name attributes inner .empty).events.filterMap (·.handledText?) =
      tag.startText :: inner.events.filterMap (·.handledText?) ++ [tag.endText] := by
  have hstart : (Event.startElement name attributes).handledText? = some tag.startText :=
    congrArg (Option.map Intercept.Tag.startText) htag
  have hend : (Event.endElement name).handledText? = some tag.endText :=
    congrArg (Option.map Intercept.Tag.endText) htag
  rw [Content.events, List.cons_append, List.filterMap_cons_some hstart, List.filterMap_append,
    List.filterMap_cons_some hend]
  rfl

/-- Of an element that is not intercepted only the tags of the content are recorded. -/
theorem filterMap_element_of_declined (htag : Intercept.Tag.ofName? name = none)
    (attributes : Attributes) (inner : Content) :
    (Content.element name attributes inner .empty).events.filterMap (·.handledText?) =
      inner.events.filterMap (·.handledText?) := by
  have hstart : (Event.startElement name attributes).handledText? = none :=
    congrArg (Option.map Intercept.Tag.startText) htag
  have hend : (Event.endElement name).handledText? = none :=
    congrArg (Option.map Intercept.Tag.endText) htag
  rw [Content.events, List.cons_append, List.filterMap_cons_none hstart, List.filterMap_append,
    List.filterMap_cons_none hend]
  exact List.append_nil _

/-- An element that is not intercepted leaves the text of its content, with the room that it makes
before and behind it. -/
theorem RunsElement.records_declined (h : RunsElement lookup? n name attributes inner d d₁ d₂ d₃)
    (hp : Text.Lasting p) (hd : d.Sound n) (htag : Intercept.Tag.ofName? name = none)
    (hinner : Records p inner.events d₁ d₂) :
    Records p (Content.element name attributes inner .empty).events d d₃ := by
  obtain ⟨r, w, hgains, hr, hw⟩ := hinner
  rw [Records, filterMap_element_of_declined htag]
  rcases hflow : Flow.Tag.ofName? name with _ | tag
  · obtain ⟨rfl, rfl⟩ := h.gains_unknown htag hflow
    exact ⟨r, w, hgains, hr, hw⟩
  · have hbefore : ∃ r₁ : Text, (if tag = .image then r₁ = [objectReplacement]
        else tag.before d.canvas = d.canvas.append r₁) ∧ p r₁ := by
      by_cases himage : tag = .image
      · exact ⟨[objectReplacement], by rw [if_pos himage], hp.of_room (by simp)⟩
      · obtain ⟨r₁, hr₁, hroom⟩ := tag.before_eq_room d.canvas
        exact ⟨r₁, by rw [if_neg himage]; exact hr₁, hp.of_newlines hroom⟩
    obtain ⟨r₁, hr₁, hp₁⟩ := hbefore
    obtain ⟨r₃, hr₃, hroom⟩ := tag.after_eq_room d₂.canvas
    exact ⟨_, w, (h.gains_flow hd htag hflow hr₁).2 r w r₃ hgains hr₃,
      hp.append (hp.append hp₁ hr) (hp.of_newlines hroom), hw⟩

/-- **An element inside a table** records its tags around what its content records. Its text is
written before the end tag, or left, with the room that the element makes. -/
theorem RunsElement.records (h : RunsElement lookup? n name attributes inner d d₁ d₂ d₃)
    (hp : Text.Lasting p) (hd : d.Sound n) (hdepth : 0 < d.tags.depth)
    (hinner : Records p inner.events d₁ d₂) :
    Records p (Content.element name attributes inner .empty).events d d₃ := by
  rcases htag : Intercept.Tag.ofName? name with _ | tag
  · exact h.records_declined hp hd htag hinner
  obtain ⟨r, w, hgains, hr, hw⟩ := hinner
  rw [Records, filterMap_element htag]
  -- what is written before the end tag is the text that the element takes out, if it does
  have hwoven (x : Text) (hx : p x) :
      Text.Woven p (tag.startText :: inner.events.filterMap (·.handledText?) ++ [tag.endText])
        (tag.startText ++ w ++ x ++ tag.endText) :=
    ((Text.Woven.nil.append hp.nil tag.startText).append_woven hw).concat hx tag.endText
  rcases hkind : tag.kind? with _ | kind
  · cases tag with
    | list kind =>
      have hlist := (h.gains_list hdepth htag).2 r w hgains
      exact ⟨_, _, hlist, hr, by simpa using hwoven [] hp.nil⟩
    | item =>
      obtain ⟨r₁, hr₁, hroom₁⟩ := d.canvas.newline_eq_room
      by_cases hlists : d.tags.lists = []
      · have hitem := (h.gains_looseItem hdepth htag hlists hr₁).2 r w hgains
        exact ⟨_, _, hitem, hp.append (hp.of_newlines hroom₁) hr, by simpa using hwoven [] hp.nil⟩
      · obtain ⟨r₃, hr₃, hroom₃⟩ := d₂.canvas.newline_eq_room
        have hitem := (h.gains_item hd hdepth htag hlists hr₁).2 r w r₃ hgains hr₃
        exact ⟨_, _, hitem, hp.of_newlines hroom₁,
          hwoven _ (hp.append hr (hp.of_newlines hroom₃))⟩
    | link => cases hkind
    | bare b => cases hkind
    | table => cases hkind
  · exact ⟨_, _, (h.gains_enclosing hd hdepth htag hkind).2 r w hgains, hp.nil, hwoven r hr⟩

/-- **Content inside a table**, by induction over it: data and elements record for themselves, and
what they record adds up. -/
theorem run_records (lookup? : Option Image.Lookup) (hp : Text.Lasting p) (content : Content) :
    ∀ {n : Nat} {d d' : Draft}, d.Sound n → 0 < d.tags.depth →
      (∀ t, Event.characters t ∈ content.events → p t) →
      (intercepted lookup?).runFrom n content.events d = .ok d' →
      Records p content.events d d' := by
  induction content with
  | empty =>
    intro n d d' _ _ _ hok
    cases hok
    exact ⟨[], [], ⟨(List.append_nil _).symm, (List.append_nil _).symm⟩, hp.nil, .nil⟩
  | data e hdata rest ih =>
    intro n d d' hd hdepth htexts hok
    obtain ⟨d₁, hok₁, hs₁, -⟩ := receive_sound lookup? hd e
    obtain ⟨d₁', hok₁', h₁⟩ := exists_receive_data lookup? n hdata d
    cases hok₁.symm.trans hok₁'
    rw [Content.events, Consumer.runFrom_cons_of_ok hok₁] at hok
    have hfirst : Records p [e] d d₁ := by
      refine records_receive_data hp hdata ?_ hok₁
      rintro t rfl
      exact htexts t (List.mem_cons_self ..)
    refine hfirst.trans hp (ih hs₁ ?_ (fun t ht => htexts t (List.mem_cons_of_mem _ ht)) hok)
    rw [h₁.sameOpen.depth]
    exact hdepth
  | element name attributes inner rest ihi ihr =>
    intro n d d' hd hdepth htexts hok
    obtain ⟨d₁, d₂, d₃, h⟩ := exists_runsElement lookup? hd name attributes inner
    obtain ⟨hok, -⟩ := h.rest hok
    have hinner := ihi h.sound₁ (h.around_content hd hdepth).1
      (fun t ht => htexts t (by simp [Content.events, ht])) h.content
    have hrest := ihr h.sound₃ (by rw [h.around.sameOpen.depth]; exact hdepth)
      (fun t ht => htexts t (by simp [Content.events, ht])) hok
    have hall := (h.records hp hd hdepth hinner).trans hp hrest
    simpa [Content.events] using hall

/-! ## Outermost tables -/

/-- The markup of an outermost table has the tags that are recorded, with text with `p` before each:
those of its own at both ends, and those of the content in between. -/
theorem RunsElement.woven_root (h : RunsElement lookup? n name attributes inner d d₁ d₂ d₃)
    (hp : Text.Lasting p) (hd : d.Sound n) (hdepth : d.tags.depth = 0)
    (hname : name.lower = "table".toList)
    (htexts : ∀ t, Event.characters t ∈ inner.events → p t) :
    Text.Woven p ((Content.element name attributes inner .empty).events.filterMap (·.handledText?))
      d₃.tags.html := by
  obtain ⟨⟨hdepth₁, hhtml₁, -⟩, hhtml₃, -⟩ := h.root hd hdepth hname
  obtain ⟨r, w, hgains, -, hw⟩ := run_records lookup? hp inner h.sound₁
    (by rw [hdepth₁]; exact Nat.one_pos) htexts h.content
  rw [filterMap_element (Intercept.ofName?_of_lower_eq_table hname), hhtml₃, hgains.html, hhtml₁]
  exact ((Text.Woven.nil.append hp.nil _).append_woven hw).append hp.nil _

/-- **The markup of a table can be read back** where all data in the table is inert: the tags that
are read in it, up to a numeral that is too long if there is one, are those that were recorded; and
without an ampersand in the data there is none. The table may stand anywhere outside of tables, and
any content may be in it. -/
theorem recorded_tags_read_back {lookup? : Option Image.Lookup} {n : Nat} {d : Draft}
    (hd : Reachable lookup? n d) (hdepth : d.tags.depth = 0) {name : Text}
    (hname : name.lower = "table".toList) (attributes : Attributes) {inner : Content}
    (hinert : ∀ t, Event.characters t ∈ inner.events → t.isInert = true) :
    ∃ d' : Draft,
      (intercepted lookup?).runFrom n (Content.element name attributes inner .empty).events d =
        .ok d' ∧
      (Markup.read d'.tags.html).tags <+:
        (Content.element name attributes inner .empty).events.filterMap (·.recorded?) ∧
      ((Markup.read d'.tags.html).fault = none →
        (Markup.read d'.tags.html).tags =
          (Content.element name attributes inner .empty).events.filterMap (·.recorded?)) ∧
      (∀ f, (Markup.read d'.tags.html).fault = some f → ∃ k, f.cause = .longNumeral k) ∧
      ((∀ t, Event.characters t ∈ inner.events → '&' ∉ t) →
        (Markup.read d'.tags.html).fault = none) := by
  obtain ⟨d₁, d₂, d₃, h⟩ := exists_runsElement lookup? hd.sound name attributes inner
  have hwoven := h.woven_root Text.lasting_isInert hd.sound hdepth hname hinert
  have hreports := Markup.reports_read (Markup.readsAs_filterMap _) hwoven
  refine ⟨d₃, Consumer.runFrom_element_of_ok h.start h.content h.stop .empty, hreports.begins,
    hreports.tags_eq, fun f hf => ?_, fun hplain => ?_⟩
  · obtain ⟨s, -, hdecode⟩ := hreports.cause f hf
    exact Reference.exists_of_decode_eq_error hdecode
  · have hplain : '&' ∉ d₃.tags.html := by
      refine (h.woven_root (Text.lasting_notMem (by decide)) hd.sound hdepth hname hplain).notMem ?_
      intro w hw
      obtain ⟨e, -, he⟩ := List.mem_filterMap.mp hw
      exact Markup.Event.ampersand_notMem_of_handledText? he
    exact hreports.fault_eq_none hplain

/-- A cell with this text in it and nothing else. -/
def textInCell (t : Text) : Content :=
  .element "td".toList [] (.characters t .empty) .empty

/-- A bracket that begins no tag is inert, and so the tags around it are found again. -/
theorem recorded_tags_read_back_lessThan :
    ∃ d' : Draft, (intercepted none).runFrom 0
        (Content.element "table".toList [] (textInCell "1 < 2".toList) .empty).events ({}, {}) =
          .ok d' ∧
      d'.tags.html = "<table><td>1 < 2</td></table>".toList ∧
      (Markup.read d'.tags.html).tags = [.startElement "table".toList [],
        .startElement "td".toList [], .endElement "td".toList, .endElement "table".toList] := by
  have hdata : ∀ t, Event.characters t ∈ (textInCell "1 < 2".toList).events →
      t.isInert = true ∧ '&' ∉ t := by
    intro t ht
    obtain rfl : t = "1 < 2".toList := by simpa [textInCell, Content.events, Content.characters] using ht
    decide
  obtain ⟨d', hok, -, htags, -, hfault⟩ := recorded_tags_read_back (Reachable.start {}) rfl
    (show Text.lower "table".toList = "table".toList from rfl) [] fun t ht => (hdata t ht).1
  refine ⟨d', hok, ?_, (htags (hfault fun t ht => (hdata t ht).2)).trans (by decide +kernel)⟩
  have hhtml : ((intercepted none).runFrom 0
      (Content.element "table".toList [] (textInCell "1 < 2".toList) .empty).events
        ({}, {})).toOption.map (fun d : Draft => d.tags.html) =
      some "<table><td>1 < 2</td></table>".toList := by decide +kernel
  rw [hok] at hhtml
  exact Option.some.inj hhtml

/-- **Texts are not escaped.** In the markup of a table a text can be read as a tag: here the text
of a cell is the name of an element between brackets. -/
theorem not_recorded_tags_read_back :
    ¬ ∀ (inner : Content) (d' : Draft),
      inner.All (fun name => (Intercept.Tag.ofName? name).isSome) →
      (intercepted none).runFrom 0 (Content.element "table".toList [] inner .empty).events
        ({}, {}) = .ok d' →
      (Markup.read d'.tags.html).tags =
        (Content.element "table".toList [] inner .empty).events.filterMap (·.recorded?) := by
  intro h
  obtain ⟨d', hok, hhtml⟩ : ∃ d' : Draft, (intercepted none).runFrom 0
      (Content.element "table".toList [] (textInCell "<b>".toList) .empty).events ({}, {}) =
        .ok d' ∧ d'.tags.html = "<table><td><b></td></table>".toList :=
    ⟨_, rfl, by decide +kernel⟩
  have htags := h (textInCell "<b>".toList) d' ⟨by decide +kernel, trivial, trivial⟩ hok
  rw [hhtml] at htags
  exact absurd htags (by decide +kernel)

end Draft

end StyledText
