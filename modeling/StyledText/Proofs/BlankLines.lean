import StyledText.Proofs.Draft
import StyledText.Proofs.Flow.Text

/-!
# Blank lines

Tags make room around blocks and items: they end the last line, or put a blank line behind it. How
much is still missing is told by the end of the text each time, so room does not add up. Outside of
tables, tags without data between them lead to one blank line at most, unless there was more of it
before, and to nothing at all where there is no text yet (`Text.MakesRoom`, a preorder).

* `Intercept.State.Opens.makesRoom`, `Intercept.State.Shuts.makesRoom`,
  `Flow.State.receive_makesRoom` — what one tag does;
* `Draft.tags_make_room_once` — any tags in any order.
-/

namespace StyledText

open Markup (Event)

/-! ## Room at the end of a text -/

namespace Text

/-- The number of newlines that a text ends with, which is all that room depends on. -/
def closingNewlines (t : Text) : Nat := (t.reverse.takeWhile (· = '\n')).length

/-- Whether `t` is `s` with newlines at its end: none where `s` is empty, and together with those of
`s` no more than two, unless `s` ends with more itself. -/
structure MakesRoom (s t : Text) : Prop where
  exists_eq : ∃ k, t = s ++ List.replicate k '\n'
  eq_nil : s = [] → t = []
  le : t.closingNewlines ≤ max 2 s.closingNewlines

variable {s t u : Text} {k : Nat}

/-- Newlines at the end are counted together with those that are there. -/
theorem closingNewlines_append_replicate (s : Text) (k : Nat) :
    closingNewlines (s ++ List.replicate k '\n') = s.closingNewlines + k := by
  have hall : ∀ x ∈ List.replicate k '\n', decide (x = '\n') = true := by simp
  rw [closingNewlines, List.reverse_append, List.reverse_replicate,
    List.takeWhile_append_of_pos hall, List.length_append, List.length_replicate, closingNewlines,
    Nat.add_comm]

theorem closingNewlines_eq_zero (h : t.endsWithNewline = false) : t.closingNewlines = 0 := by
  rcases List.eq_nil_or_concat' t with rfl | ⟨t, x, rfl⟩
  · rfl
  · have hx : x ≠ '\n' := by simpa [endsWithNewline] using h
    simp [closingNewlines, hx]

theorem MakesRoom.refl (t : Text) : t.MakesRoom t := ⟨⟨0, by simp⟩, id, Nat.le_max_right _ _⟩

theorem MakesRoom.trans (h : s.MakesRoom t) (h' : t.MakesRoom u) : s.MakesRoom u := by
  obtain ⟨k, rfl⟩ := h.exists_eq
  obtain ⟨k', rfl⟩ := h'.exists_eq
  refine ⟨⟨k + k', by rw [List.append_assoc, List.replicate_append_replicate]⟩,
    fun hs => h'.eq_nil (h.eq_nil hs), ?_⟩
  have hle := h.le
  have hle' := h'.le
  omega

/-- A few newlines behind some text, no more than two with those that are there. -/
theorem makesRoom_append (hs : s ≠ []) (h : s.closingNewlines + k ≤ 2) :
    s.MakesRoom (s ++ List.replicate k '\n') := by
  refine ⟨⟨k, rfl⟩, fun hnil => absurd hnil hs, ?_⟩
  rw [closingNewlines_append_replicate]
  omega

end Text

namespace Canvas

/-- Ending a line takes one newline where there is none, and nothing where the text is empty. -/
theorem newline_makesRoom (c : Canvas) : c.text.MakesRoom c.newline.text := by
  unfold newline
  split
  next h =>
    refine Text.makesRoom_append (k := 1) h.1 ?_
    rw [Text.closingNewlines_eq_zero h.2]
    omega
  next => exact .refl _

/-- A blank line takes two newlines where there is none, and one where there is one. -/
theorem blankLine_makesRoom (c : Canvas) : c.text.MakesRoom (Flow.blankLine c).text := by
  have hne {x : Char} {r : Text} (h : c.text.reverse = x :: r) : c.text ≠ [] := by
    rintro hnil
    simp [hnil] at h
  rw [Flow.blankLine]
  split
  next => exact .refl _
  next => exact .refl _
  next r hr h =>
    refine Text.makesRoom_append (k := 1) (hne h) ?_
    -- the text does not end with two newlines
    have hone : c.text.closingNewlines = 1 := by
      rw [Text.closingNewlines, h]
      rcases r with _ | ⟨x, r⟩
      · rfl
      · have hx : x ≠ '\n' := fun hx => hr r (by rw [hx])
        simp [hx]
    omega
  next hnil htwo hone =>
    rcases h : c.text.reverse with _ | ⟨x, r⟩
    · exact absurd h hnil
    have hx : x ≠ '\n' := fun hx => hone r (by rw [h, hx])
    refine Text.makesRoom_append (k := 2) (hne h) ?_
    have hzero : c.text.closingNewlines = 0 := by simp [Text.closingNewlines, h, hx]
    omega

end Canvas

/-! ## Tags of running text -/

namespace Flow

variable {lookup? : Option Image.Lookup} {n : Nat} {tag : Tag} {e : Event} {f f' : State}

namespace Tag

theorem before_makesRoom (tag : Tag) (c : Canvas) : c.text.MakesRoom (tag.before c).text := by
  cases tag with
  | item => exact c.newline_makesRoom
  | block => exact c.blankLine_makesRoom
  | quote => exact c.blankLine_makesRoom
  | heading level => exact c.blankLine_makesRoom
  | _ => exact .refl _

theorem after_makesRoom (h : tag ≠ .lineBreak) (c : Canvas) :
    c.text.MakesRoom (tag.after c).text := by
  unfold after
  split
  · exact absurd rfl h
  · exact before_makesRoom _ c

/-- A name is in the table of names under its tag, so what holds of all names there holds of it. -/
theorem mem_names_of_ofName? {name : Text} (h : ofName? name = some tag) :
    (name.lower, tag) ∈ names := by
  obtain ⟨l, r, hnames, -⟩ := List.lookup_eq_some_iff.mp h
  rw [hnames]
  simp

/-- Line breaks and images have one name each, so leaving out the names leaves out the tags. -/
theorem lower_eq_of_ofName? {name : Text} (h : ofName? name = some tag) :
    (tag = .lineBreak → name.lower = "br".toList) ∧ (tag = .image → name.lower = "img".toList) := by
  have hnames : ∀ p ∈ names, (p.2 = .lineBreak → p.1 = "br".toList) ∧
      (p.2 = .image → p.1 = "img".toList) := by
    decide
  exact hnames _ (mem_names_of_ofName? h)

end Tag

/-- A tag of running text makes room, unless it is a line break or an image, which write a character
of their own. -/
theorem State.receive_makesRoom (hf : f.canvas.Sound n) (he : e.isTag = true)
    (hname : ∀ name, e.name? = some name → name.lower ≠ "br".toList ∧ name.lower ≠ "img".toList)
    (h : f.receive lookup? n e = .ok f') : f.canvas.text.MakesRoom f'.canvas.text := by
  cases receives_of_receive h with
  | @startTag name _ tag _ htag hstart =>
    have himage : tag ≠ .image := fun ht =>
      (hname name rfl).2 ((Tag.lower_eq_of_ofName? htag).2 ht)
    rw [text_startTag hf hstart, if_neg himage]
    exact tag.before_makesRoom f.canvas
  | @endTag name tag _ htag hend =>
    have hbreak : tag ≠ .lineBreak := fun ht =>
      (hname name rfl).1 ((Tag.lower_eq_of_ofName? htag).1 ht)
    rw [text_endTag hf hend]
    exact Tag.after_makesRoom hbreak f.canvas
  | characters t => cases he
  | ignored => exact .refl _

end Flow

/-! ## Intercepted tags -/

namespace Intercept.State

variable {n : Nat} {tag : Tag} {attributes : Markup.Attributes} {t t' : State} {c c' : Canvas}

/-- Only a table begins with a text of its own; of the others an item ends a line. -/
theorem Opens.makesRoom (h : Opens n attributes t c tag t' c') (htag : tag ≠ .table) :
    c.text.MakesRoom c'.text := by
  cases h with
  | looseItem => exact c.newline_makesRoom
  | bullet => exact c.newline_makesRoom
  | number => exact c.newline_makesRoom
  | root => exact absurd rfl htag
  | _ => exact .refl _

/-- Outside of tables closing an element ends a line at most, since no text is taken off there. -/
theorem Closes.makesRoom {kind : MarkerKind} {isParagraph : Bool} {styles : List Style}
    (h : Closes n kind isParagraph styles t c t' c') (hdepth : t.depth = 0) :
    c.text.MakesRoom c'.text := by
  cases h with
  | nothing => exact .refl _
  | elsewhere => exact .refl _
  | inside _ _ hpos => exact absurd hdepth (Nat.ne_of_gt hpos)
  | @outside m a =>
    unfold closed
    by_cases he : a = (Buffer.remove c (.marker m)).length
    · rw [if_pos he]
      exact .refl _
    · rw [if_neg he]
      cases isParagraph with
      | true => exact Canvas.newline_makesRoom (Buffer.remove c (.marker m))
      | false => exact .refl _

theorem Shuts.makesRoom (h : Shuts n t c tag t' c') (hdepth : t.depth = 0) :
    c.text.MakesRoom c'.text := by
  cases h with
  | list kind => exact .refl _
  | strayItem => exact .refl _
  | strayTable => exact .refl _
  | item hl h => exact c.newline_makesRoom.trans (h.makesRoom hdepth)
  | link h => exact h.makesRoom hdepth
  | bare h => exact h.makesRoom hdepth
  | root hone => exact absurd (hdepth.symm.trans hone) (by decide)
  | inner hmore => exact absurd (hdepth.symm.trans hmore) (Nat.succ_ne_zero _).symm

end Intercept.State

/-! ## Drafts -/

namespace Markup

/-- The names of the tags that write something of their own. -/
def writingTags : List Text := ["br".toList, "img".toList, "table".toList]

/-- Whether the event is a tag that writes nothing of its own but room. Names are the same in upper
and in lower case, as they are wherever tags are handled. -/
def Event.onlyMakesRoom (e : Event) : Bool := e.name?.any (·.lower ∉ writingTags)

/-- Such an event is a tag, and its name is none of those that write. -/
theorem Event.lower_notMem_of_onlyMakesRoom {e : Event} (h : e.onlyMakesRoom = true) :
    e.isTag = true ∧ ∀ name, e.name? = some name → name.lower ∉ writingTags := by
  rw [onlyMakesRoom] at h
  rcases hname : e.name? with _ | name
  · rw [hname] at h
    cases h
  · rw [hname] at h
    refine ⟨by rw [isTag, hname]; rfl, fun name' hname' => ?_⟩
    cases hname'
    exact of_decide_eq_true h

end Markup

namespace Draft

variable {lookup? : Option Image.Lookup} {n : Nat} {d d' : Draft} {e : Event}

/-- **Each tag makes room**, and no table is opened. This is the step of the induction over the
tags. -/
theorem receive_makesRoom (hd : d.Sound n) (hdepth : d.tags.depth = 0)
    (he : e.onlyMakesRoom = true) (h : (intercepted lookup?).receive n e d = .ok d') :
    d'.tags.depth = 0 ∧ d.canvas.text.MakesRoom d'.canvas.text := by
  obtain ⟨htag, hname⟩ := Event.lower_notMem_of_onlyMakesRoom he
  simp only [Markup.writingTags, List.mem_cons, List.not_mem_nil, or_false, not_or] at hname
  obtain ⟨d'', hok, -, hkeeps⟩ := receive_sound lookup? hd e
  cases hok.symm.trans h
  refine ⟨(hkeeps fun name hn => (hname name hn).2.2).trans hdepth, ?_⟩
  cases receives_of_receive hd h with
  | declined _ hreceive =>
    exact Flow.State.receive_makesRoom hd.canvas htag
      (fun name hn => ⟨(hname name hn).1, (hname name hn).2.1⟩) hreceive
  | @startTag name attributes tag t c hof hopens =>
    refine hopens.makesRoom ?_
    rintro rfl
    exact (hname name rfl).2.2 (Consumer.lower_eq_of_ofName?_table hof)
  | endTag _ hshuts => exact hshuts.makesRoom hdepth

/-- **Room is made once.** In every draft outside of tables, tags without data between them, in any
order and whether or not they match, only add newlines to the text: none where it is empty, and so
many at most that it ends with two, unless it has ended with more before. Line breaks, images and
tables are left out, which write something of their own. -/
theorem tags_make_room_once (hd : Reachable lookup? n d) (hdepth : d.tags.depth = 0)
    (events : List Event) (hevents : ∀ e ∈ events, e.onlyMakesRoom = true) :
    ∃ d' : Draft, (intercepted lookup?).runFrom n events d = .ok d' ∧
      (∃ k, d'.canvas.text = d.canvas.text ++ List.replicate k '\n') ∧
      (d.canvas.text = [] → d'.canvas.text = []) ∧
      d'.canvas.text.closingNewlines ≤ max 2 d.canvas.text.closingNewlines := by
  obtain ⟨d', hok, -, -⟩ := run_sound lookup? events hd.sound
  have hroom : d'.tags.depth = 0 ∧ d.canvas.text.MakesRoom d'.canvas.text := by
    refine runFrom_invariant (d := d)
      (P := fun _ d' => d'.tags.depth = 0 ∧ d.canvas.text.MakesRoom d'.canvas.text)
      (fun e he m d₁ d₂ hd₁ h₁ hok => ?_) hd.sound ⟨hdepth, .refl _⟩ hok
    obtain ⟨hdepth₂, h₂⟩ := receive_makesRoom hd₁ h₁.1 (hevents e he) hok
    exact ⟨hdepth₂, h₁.2.trans h₂⟩
  exact ⟨d', hok, hroom.2.exists_eq, hroom.2.eq_nil, hroom.2.le⟩

/-- A numbered item in centered text. -/
def centeredItem : List Event :=
  [.startElement "center".toList [],
    .startElement Markup.Renamed.orderedList.reserved.lower [],
    .startElement Markup.Renamed.listItem.reserved.lower [], .characters "a".toList]

/-- Ends of what is open and of what is not, among starts of blocks. -/
def crossedBlocks : List Event :=
  [.endElement "Center".toList, .endElement Markup.Renamed.listItem.reserved.lower,
    .startElement "h1".toList [], .endElement "li".toList, .endElement "p".toList,
    .startElement "blockquote".toList [], .endElement "h2".toList,
    .startElement Markup.Renamed.listItem.reserved.lower [], .endElement "div".toList]

theorem tags_make_room_once_crossedBlocks :
    ∃ d d' : Draft, Reachable none 4 d ∧ d.tags.depth = 0 ∧ d.canvas.text = "a".toList ∧
      (∀ e ∈ crossedBlocks, e.onlyMakesRoom = true) ∧
      (intercepted none).runFrom 4 crossedBlocks d = .ok d' ∧
      d'.canvas.text = "a\n\n".toList ∧
      (∃ k, d'.canvas.text = d.canvas.text ++ List.replicate k '\n') ∧
      d'.canvas.text.closingNewlines ≤ max 2 d.canvas.text.closingNewlines := by
  have hevents : ∀ e ∈ crossedBlocks, e.onlyMakesRoom = true := by decide +kernel
  have hshown : ((intercepted none).runFrom 0 centeredItem ({}, {})).toOption.bind (fun d : Draft =>
      ((intercepted none).runFrom 4 crossedBlocks d).toOption.map fun d' : Draft =>
        (d.tags.depth, d.canvas.text, d'.canvas.text)) =
      some (0, "a".toList, "a\n\n".toList) := by
    decide +kernel
  have hstart : Reachable none 0 ({}, {}) := .start {}
  obtain ⟨d, hok, -, -⟩ := run_sound none centeredItem hstart.sound
  have hd : Reachable none 4 d := hstart.run hok
  rw [hok] at hshown
  have hdepth : d.tags.depth = 0 := by
    obtain ⟨d', -, heq⟩ := Option.map_eq_some_iff.mp hshown
    exact (Prod.mk.inj heq).1
  obtain ⟨d', hok', hgains, -, hle⟩ := tags_make_room_once hd hdepth crossedBlocks hevents
  rw [Except.toOption, Option.bind_some, hok'] at hshown
  obtain ⟨-, htexts⟩ := Prod.mk.inj (Option.some.inj hshown)
  obtain ⟨htext, htext'⟩ := Prod.mk.inj htexts
  exact ⟨d, d', hd, hdepth, htext, hevents, hok', htext', hgains, hle⟩

end Draft

end StyledText
