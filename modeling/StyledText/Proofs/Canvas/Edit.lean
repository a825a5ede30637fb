import Mathlib.Logic.Relation
import StyledText.Proofs.Flow.Element
import StyledText.Proofs.Intercept.Element

/-!
# Edits of a canvas

What an event does to a canvas it does by a few kinds of **edit** (`Canvas.Edit`): it adds text at
the end or takes text off there, puts a mark down or takes an object off, and puts styles over a
range. An image comes with the character that it stands on. So a property that each edit keeps is
kept by all events, in whatever order they come.

* `Intercept.State.startTag_edits`, `Intercept.State.endTag_edits` — the edits of an intercepted
  tag;
* `Flow.State.receive_edits` — those of an event of running text;
* `Canvas.Pictured` — a property that edits keep: an image covers one character, and that is the one
  that stands for images.
-/

namespace StyledText

/-- Whether the style is that of an image. -/
def Style.isImage : Style → Bool
  | image .. => true
  | _ => false

/-- Whether an object is the style of an image. -/
def Object.isImage : Object → Bool
  | style _ s => s.isImage
  | _ => false

namespace Canvas

variable {n : Nat} {c c' c'' : Canvas}

/-- What event `n` can do to a canvas at once. -/
inductive Edit (n : Nat) (c : Canvas) : Canvas → Prop
  | append (t : Text) : Edit n c (c.append t)
  | mark {o : Object} (hflag : o.flag = .mark) : Edit n c (c.marked o)
  | remove (o : Object) : Edit n c (c.remove o)
  | cutEnd {a : Nat} (hle : a ≤ c.length) : Edit n c (c.cut a c.length)
  | style {styles : List Style} (hplain : ∀ s ∈ styles, s.isImage = false) {start stop : Nat}
      (hle : start ≤ stop) (hlen : stop ≤ c.length) : Edit n c (c.styled n styles start stop)
  | image (s : Style) :
      Edit n c (Canvas.styled n [s] c.length (c.length + 1) (c.append [objectReplacement]))

/-- What event `n` can do to a canvas by some edits. -/
def Edits (n : Nat) : Canvas → Canvas → Prop := Relation.ReflTransGen (Edit n)

theorem Edits.refl (n : Nat) (c : Canvas) : c.Edits n c := Relation.ReflTransGen.refl

theorem Edit.edits (h : c.Edit n c') : c.Edits n c' := Relation.ReflTransGen.single h

theorem Edits.tail (h : c.Edits n c') (h' : c'.Edit n c'') : c.Edits n c'' :=
  Relation.ReflTransGen.tail h h'

theorem Edits.trans (h : c.Edits n c') (h' : c'.Edits n c'') : c.Edits n c'' :=
  Relation.ReflTransGen.trans h h'

/-- What each edit keeps is kept by all. It is by this that a property of canvases has to be shown
for six kinds of edit only, and for no tag. -/
theorem Edits.induction {P : Canvas → Prop} (h : c.Edits n c')
    (hstep : ∀ c c', Edit n c c' → P c → P c') (hc : P c) : P c' := by
  induction h with
  | refl => exact hc
  | tail _ hedit ih => exact hstep _ _ hedit ih

/-- A style of another event has been there before the edit, though its range may have moved. So
styles only come from the event whose number they have. -/
theorem Edit.exists_style {m : Nat} {style : Style} {s : Span Object} (h : c.Edit n c')
    (hne : m ≠ n) (hs : s ∈ c'.spans) (hwhat : s.what = .style m style) :
    ∃ r ∈ c.spans, r.what = .style m style := by
  -- styles of this event are told from the one in question by their number
  have hstyled {styles start stop} {c : Canvas} (hs : s ∈ (c.styled n styles start stop).spans) :
      ∃ r ∈ c.spans, r.what = .style m style := by
    rcases List.mem_append.mp hs with hs | hs
    · exact ⟨s, hs, hwhat⟩
    · obtain ⟨-, style, -, rfl⟩ := mem_spread hs
      cases hwhat
      exact absurd rfl hne
  cases h with
  | append t => exact ⟨s, hs, hwhat⟩
  | @mark o hflag =>
    rcases List.mem_append.mp hs with hs | hs
    · exact ⟨s, hs, hwhat⟩
    · obtain rfl := List.mem_singleton.mp hs
      obtain rfl : o = .style m style := hwhat
      cases hflag
  | remove o => exact ⟨s, (List.mem_filter.mp hs).1, hwhat⟩
  | cutEnd =>
    obtain ⟨r, hr, hcut⟩ := List.mem_filterMap.mp hs
    exact ⟨r, hr, (Span.what_of_cut? hcut).symm.trans hwhat⟩
  | style => exact hstyled hs
  | image => exact hstyled (c := c.append [objectReplacement]) hs

/-- So has every style that is there after some edits of one event and was made by another one. -/
theorem Edits.exists_style {m : Nat} {style : Style} {s : Span Object} (h : c.Edits n c')
    (hne : m ≠ n) (hs : s ∈ c'.spans) (hwhat : s.what = .style m style) :
    ∃ r ∈ c.spans, r.what = .style m style := by
  induction h generalizing s with
  | refl => exact ⟨s, hs, hwhat⟩
  | tail _ hedit ih =>
    obtain ⟨r, hr, hwhat'⟩ := hedit.exists_style hne hs hwhat
    exact ih hr hwhat'

/-- Ending the last line is one edit, or none if there is nothing to end. -/
theorem edits_newline (n : Nat) (c : Canvas) : c.Edits n c.newline := by
  obtain ⟨t, ht⟩ := c.newline_eq_append
  rw [ht]
  exact (Edit.append t).edits

end Canvas

/-! ## The edits of an intercepted tag -/

namespace Intercept

/-- No element that only puts a marker down is an image, which is what an edit by styles asks
for. -/
theorem BareTag.isImage_of_mem_styles {b : BareTag} {s : Style} (hs : s ∈ b.styles) :
    s.isImage = false := by
  cases b <;> simp_all [BareTag.styles, Style.isImage]

namespace State

variable {n : Nat} {kind : MarkerKind} {isParagraph : Bool} {styles : List Style} {tag : Tag}
  {attributes : Markup.Attributes} {t t' : State} {c c' : Canvas}

/-- Items are indented and get a bullet or a number, and no image. -/
theorem isImage_of_mem_itemStyles {s : Style} (hs : s ∈ t.itemStyles) : s.isImage = false := by
  unfold itemStyles at hs
  split at hs
  next => exact absurd hs List.not_mem_nil
  next =>
    simp only [bulletStyles, List.mem_cons, List.not_mem_nil, or_false] at hs
    rcases hs with rfl | rfl <;> rfl
  next =>
    simp only [numberStyles, List.mem_cons, List.not_mem_nil, or_false] at hs
    rcases hs with rfl | rfl <;> rfl

/-- Nor is a table shown as an image: it is a label over the placeholder, and what reacts to a
click. -/
theorem isImage_of_mem_tableStyles {s : Style} (hs : s ∈ t.tableStyles) : s.isImage = false := by
  rcases List.mem_append.mp hs with hs | hs
  · obtain ⟨link, -, rfl⟩ := Option.map_eq_some_iff.mp (Option.mem_toList.mp hs)
    rfl
  · split at hs
    · obtain rfl := List.mem_singleton.mp hs
      rfl
    · exact absurd hs List.not_mem_nil

/-- An element that ends takes its text off the canvas inside a table; outside it takes its mark
off, may end the line, and puts its styles over the text. -/
theorem Closes.edits (h : Closes n kind isParagraph styles t c t' c') (hc : c.Sound n)
    (hplain : ∀ s ∈ styles, s.isImage = false) : c.Edits n c' := by
  cases h with
  | nothing => exact .refl n c
  | elsewhere => exact .refl n c
  | inside hm ha hdepth =>
    exact (Canvas.Edit.cutEnd (le_length_of_start? hc ha)).edits.tail (.remove _)
  | @outside m a hm ha hdepth =>
    have hle := le_length_of_start? hc ha
    obtain ⟨r, hr⟩ := closed_eq n isParagraph styles m a c
    rw [hr]
    refine ((Canvas.Edit.remove _).edits.tail (.append r)).tail (.style hplain ?_ ?_)
    · exact Nat.le_trans hle (Nat.le_add_right _ _)
    · rw [Buffer.length_append]
      exact Nat.le_refl _

/-- The same of `State.finish` that has succeeded, for the callers that have not told how it
went. -/
theorem finish_edits (hc : c.Sound n) (hd : styles.Nodup)
    (hplain : ∀ s ∈ styles, s.isImage = false)
    (h : t.finish n kind isParagraph styles c = .ok (t', c')) : c.Edits n c' :=
  (closes_of_finish hc hd h).edits hc hplain

/-- An element that begins puts a mark down. An item ends the line before that, and an outermost
table adds its placeholder behind it. -/
theorem Opens.edits (h : Opens n attributes t c tag t' c') : c.Edits n c' := by
  have hmark {c : Canvas} (m : Marker) : c.Edit n (c.marked (.marker m)) := .mark rfl
  cases h with
  | list kind => exact .refl n c
  | looseItem => exact c.edits_newline n
  | bullet => exact (c.edits_newline n).tail (hmark _)
  | number => exact (c.edits_newline n).tail (hmark _)
  | link => exact (hmark _).edits
  | bare b => exact (hmark _).edits
  | root => exact (hmark _).edits.tail (.append _)
  | inner => exact (hmark _).edits

/-- An end tag does what closing its element does, after the line has been ended if the element is
an item. -/
theorem closeElement_edits (ht : t.Balanced) (hc : c.Sound n)
    (h : t.closeElement n tag c = .ok (t', c')) : c.Edits n c' := by
  cases tag with
  | list kind =>
    cases h
    exact .refl n c
  | item =>
    rcases hl : t.lists with _ | ⟨kind, lists⟩
    · cases (closeItem_of_lists_eq_nil hl).symm.trans h
      exact .refl n c
    · exact (c.edits_newline n).trans (finish_edits hc.newline (nodup_itemStyles t)
        (fun _ hs => isImage_of_mem_itemStyles hs) ((closeItem_eq hl ht).symm.trans h))
  | link => exact finish_edits hc (by simp) (by simp [Style.isImage]) h
  | bare b => exact finish_edits hc b.nodup_styles (fun _ hs => b.isImage_of_mem_styles hs) h
  | table =>
    simp only [closeElement, closeTable] at h
    split at h
    next =>
      cases h
      exact .refl n c
    next =>
      exact finish_edits hc (nodup_tableStyles _) (fun _ hs => isImage_of_mem_tableStyles hs) h
    next => exact finish_edits hc List.nodup_nil (fun _ hs => absurd hs List.not_mem_nil) h

/-- **The edits of a start tag.** What is recorded of the tag goes to the markup of the table and
not to the canvas. -/
theorem startTag_edits (ht : t.Balanced) (hc : c.Sound n)
    (h : t.startTag n tag attributes c = .ok (t', c')) : c.Edits n c' := by
  obtain ⟨t₁, hopens, -⟩ := opens_of_startTag ht hc h
  exact hopens.edits

/-- **The edits of an end tag**, which are those of its element. -/
theorem endTag_edits (ht : t.Balanced) (hc : c.Sound n)
    (h : t.endTag n tag c = .ok (t', c')) : c.Edits n c' := by
  obtain ⟨⟨t'', c''⟩, hok, heq⟩ := exists_of_map_eq_ok h
  cases heq
  exact closeElement_edits ht hc hok

end State

end Intercept

/-! ## The edits of running text -/

namespace Flow

variable {n : Nat} {c c' : Canvas}

/-- An element of running text with an opening gets no image for it: images have no content, so none
is open between two tags. -/
theorem isImage_of_mem_styles {o : Opening} {s : Style} (hs : s ∈ o.styles) : s.isImage = false := by
  cases o with
  | font color face =>
    rcases List.mem_append.mp hs with hs | hs <;>
      · obtain ⟨_, -, rfl⟩ := Option.map_eq_some_iff.mp (Option.mem_toList.mp hs)
        rfl
  | «inline» i =>
    obtain rfl := List.mem_singleton.mp hs
    cases i <;> rfl
  | heading level =>
    simp only [Opening.styles, List.mem_cons, List.not_mem_nil, or_false] at hs
    rcases hs with rfl | rfl <;> rfl
  | _ => simp_all [Opening.styles, Style.isImage]

/-- Making room in front of an element adds newlines at most. -/
theorem Tag.edits_before (tag : Tag) (n : Nat) (c : Canvas) : c.Edits n (tag.before c) := by
  obtain ⟨t, ht⟩ := tag.before_eq_append c
  rw [ht]
  exact (Canvas.Edit.append t).edits

/-- And so does making room behind it. -/
theorem Tag.edits_after (tag : Tag) (n : Nat) (c : Canvas) : c.Edits n (tag.after c) := by
  obtain ⟨t, ht⟩ := tag.after_eq_append c
  rw [ht]
  exact (Canvas.Edit.append t).edits

/-- An element of running text that ends takes its mark off and puts its styles over the text, or
over what is left of it without newlines. -/
theorem finish_edits {kind : Opening.Kind} (hc : c.Sound n) (h : finish n kind c = .ok c') :
    c.Edits n c' := by
  rcases hnewest : newest? kind c with _ | ⟨o, s⟩
  · cases (finish_of_newest?_eq_none hnewest).symm.trans h
    exact .refl n c
  · cases (finish_of_newest? hc hnewest).symm.trans h
    have hfit := hc s (newest?_eq_some hnewest).1
    have hstop : s.start ≤ stopOf kind s.start c ∧ stopOf kind s.start c ≤ c.length :=
      le_stopOf (Nat.le_trans hfit.start_le hfit.stop_le)
    exact (Canvas.Edit.remove _).edits.tail
      (.style (fun _ hs => isImage_of_mem_styles hs) hstop.1 hstop.2)

namespace State

variable {lookup? : Option Image.Lookup} {tag : Tag} {attributes : Markup.Attributes}
  {f f' : State}

/-- A start tag of running text makes room and puts a mark down, or it is that of an image, which
comes with its character. -/
theorem startTag_edits (hc : f.canvas.Sound n)
    (h : f.startTag lookup? n tag attributes = .ok f') : f.canvas.Edits n f'.canvas := by
  by_cases ht : tag = .image
  · subst ht
    obtain ⟨f'', source, drawable, hok, hcanvas⟩ := startTag_image_eq lookup? attributes hc
    cases hok.symm.trans h
    rw [hcanvas]
    exact (Canvas.Edit.image _).edits
  · cases (startTag_eq hc ht).symm.trans h
    cases tag.opening? attributes with
    | none => exact tag.edits_before n _
    | some o => exact (tag.edits_before n _).tail (.mark rfl)

/-- An end tag of running text makes room first, so that the newlines before its element are not
styled with it. -/
theorem endTag_edits (hc : f.canvas.Sound n) (h : f.endTag n tag = .ok f') :
    f.canvas.Edits n f'.canvas := by
  obtain ⟨t, ha⟩ := tag.after_eq_append f.canvas
  have hs : Canvas.Sound n (tag.after f.canvas) := by
    rw [ha]
    exact hc.append t
  rw [endTag_eq] at h
  cases hkind : tag.kind? with
  | none =>
    rw [hkind] at h
    cases h
    exact tag.edits_after n _
  | some kind =>
    rw [hkind] at h
    obtain ⟨c', hfinish, rfl⟩ := exists_of_map_eq_ok h
    exact (tag.edits_after n _).trans (finish_edits hs hfinish)

/-- **The edits of an event** of running text. Other events than tags and characters leave the
canvas alone. -/
theorem receive_edits (hc : f.canvas.Sound n) {e : Markup.Event}
    (h : f.receive lookup? n e = .ok f') : f.canvas.Edits n f'.canvas := by
  cases receives_of_receive h with
  | startTag _ hstart => exact startTag_edits hc hstart
  | endTag _ hend => exact endTag_edits hc hend
  | characters t => exact (Canvas.Edit.append _).edits
  | ignored => exact .refl n _

end State

end Flow

/-! ## Images -/

/-- A range over the one character that stands for an image. -/
structure Span.Pictures (t : Text) (s : Span Object) : Prop where
  flag_eq : s.flag = .exclusive
  stop_eq : s.stop = s.start + 1
  char_eq : t[s.start]? = some objectReplacement

namespace Canvas

variable {n : Nat} {c c' : Canvas}

/-- Every image covers the character that stands for it. -/
def Pictured (c : Canvas) : Prop := ∀ s ∈ c.spans, s.what.isImage = true → s.Pictures c.text

/-- There is no image on an empty canvas. -/
theorem pictured_blank : blank.Pictured := fun _ hs => absurd hs List.not_mem_nil

/-- Adding to the text and attaching what is no image: the characters that images cover stay where
they are. -/
theorem Pictured.extend (h : c.Pictured) (ht : c.text <+: c'.text)
    (hs : ∀ s ∈ c'.spans, s.what.isImage = true → s ∈ c.spans) : c'.Pictured := by
  intro s hm himage
  obtain ⟨hflag, hstop, hchar⟩ := h s (hs s hm himage) himage
  refine ⟨hflag, hstop, ?_⟩
  obtain ⟨r, hr⟩ := ht
  rw [← hr, List.getElem?_append_left (List.getElem?_eq_some_iff.mp hchar).1]
  exact hchar

/-- An image is on one side of the place where the text is cut off, since it covers a single
character; so it stays whole or it goes. -/
theorem Pictured.cutEnd {a : Nat} (h : c.Pictured) : Pictured (c.cut a c.length) := by
  intro s hs himage
  obtain ⟨r, hr, hcut⟩ := List.mem_filterMap.mp hs
  obtain ⟨rfl, hkeep⟩ := Span.cut?_eq_some_iff.mp hcut
  obtain ⟨hflag, hstop, hchar⟩ := h r hr himage
  have hlt : r.start < c.length := (List.getElem?_eq_some_iff.mp hchar).1
  have hstart' : shift a c.length r.start = min r.start a := shift_eq_min (by omega)
  have hstop' : shift a c.length r.stop = min r.stop a := shift_eq_min (by omega)
  have hbefore : r.stop ≤ a := by
    -- otherwise both ends of the range move to the place of the cut
    apply Nat.le_of_not_lt
    intro hbehind
    refine hkeep ⟨hflag, ?_, by omega⟩
    simp only [hstart', hstop']
    omega
  have hleft : r.start < (c.text.take a).length := by
    rw [List.length_take]
    exact Nat.lt_min.mpr ⟨by omega, hlt⟩
  rw [Nat.min_eq_left (by omega)] at hstart' hstop'
  simp only [hstart', hstop']
  refine ⟨hflag, hstop, ?_⟩
  rw [Buffer.text_cut, List.getElem?_append_left hleft,
    List.getElem?_take_of_lt (by omega)]
  exact hchar

/-- An image that is new stands on the new character, and those before it keep theirs. -/
theorem Pictured.image (h : c.Pictured) (s : Style) :
    (Canvas.styled n [s] c.length (c.length + 1) (c.append [objectReplacement])).Pictured := by
  intro r hr himage
  rcases List.mem_append.mp hr with hr | hr
  · have happend : Pictured (c.append [objectReplacement]) :=
      h.extend (List.prefix_append _ _) fun _ hs _ => hs
    exact happend r hr himage
  · obtain ⟨-, style, -, rfl⟩ := mem_spread hr
    exact ⟨rfl, rfl, by simp [Buffer.length]⟩

/-- **Each edit keeps the images on their characters.** There is a case for each of the six kinds,
and only two of them touch what images cover. -/
theorem Edit.pictured (h : c.Edit n c') (hc : c.Pictured) : c'.Pictured := by
  cases h with
  | append t => exact hc.extend (List.prefix_append _ _) fun _ hs _ => hs
  | @mark o hflag =>
    refine hc.extend (List.prefix_refl _) fun s hs himage => ?_
    rcases List.mem_append.mp hs with hs | hs
    · exact hs
    · obtain rfl := List.mem_singleton.mp hs
      cases o with
      | style made s => cases hflag
      | _ => cases himage
  | remove o => exact hc.extend (List.prefix_refl _) fun _ hs _ => (List.mem_filter.mp hs).1
  | cutEnd => exact hc.cutEnd
  | style hplain =>
    refine hc.extend (List.prefix_refl _) fun s hs himage => ?_
    rcases List.mem_append.mp hs with hs | hs
    · exact hs
    · obtain ⟨-, style, hstyle, rfl⟩ := mem_spread hs
      cases (hplain style hstyle).symm.trans himage
  | image s => exact hc.image s

/-- So does what an event does, and with it every run from an empty canvas. -/
theorem Edits.pictured (h : c.Edits n c') (hc : c.Pictured) : c'.Pictured :=
  h.induction (fun _ _ hedit => hedit.pictured) hc

end Canvas

end StyledText
