import StyledText.Proofs.Buffer.View
import StyledText.Proofs.Draft

/-!
# Whole lines

The styles of lists, quotes and centered text are drawn for whole lines. Outside of tables, where
nothing is taken off the text, they cover whole lines: each of them ends behind a newline, and each
but that of centered text begins where a line does. No order of the tags can break this, since it is
kept for what is open as well as for what has been styled: the marks of items and quotes stand where
a line begins (`Canvas.Lined`), and before such an element is closed the line is ended.

* `Text.LineStart`, `Text.BehindNewline` — the places of lines in a text;
* `Intercept.State.startTag_lined`, `Intercept.State.endTag_lined`, `Flow.State.receive_lined` —
  what one event keeps;
* `Draft.paragraphs_on_whole_lines` — all events without the start tag of a table.
-/

namespace StyledText

open Markup (Event)

/-! ## Places of lines -/

namespace Text

/-- Whether an offset is right behind a newline. -/
def BehindNewline (t : Text) (i : Nat) : Prop := 0 < i ∧ t[i - 1]? = some '\n'

/-- Whether a line begins at an offset. -/
def LineStart (t : Text) (i : Nat) : Prop := i = 0 ∨ t.BehindNewline i

instance (t : Text) (i : Nat) : Decidable (t.BehindNewline i) :=
  inferInstanceAs (Decidable (_ ∧ _))

instance (t : Text) (i : Nat) : Decidable (t.LineStart i) := inferInstanceAs (Decidable (_ ∨ _))

variable {s t : Text} {i : Nat}

/-- Text that is added leaves the newlines where they are. -/
theorem BehindNewline.mono (h : s.BehindNewline i) (hst : s <+: t) : t.BehindNewline i := by
  obtain ⟨r, rfl⟩ := hst
  have hlt : i - 1 < s.length := (List.getElem?_eq_some_iff.mp h.2).1
  exact ⟨h.1, (List.getElem?_append_left hlt).trans h.2⟩

/-- So it leaves the places where lines begin. Outside of tables text is only added, which is why
what is on whole lines stays there. -/
theorem LineStart.mono (h : s.LineStart i) (hst : s <+: t) : t.LineStart i :=
  h.imp_right fun hbehind => hbehind.mono hst

/-- A line begins at the end of a text that has no last character or a newline there. -/
theorem lineStart_length (h : ∀ x, t.getLast? = some x → x = '\n') : t.LineStart t.length := by
  rw [List.getLast?_eq_getElem?] at h
  rcases Nat.eq_zero_or_pos t.length with hzero | hpos
  · exact .inl hzero
  · have hget : t[t.length - 1]? = some t[t.length - 1] := List.getElem?_eq_getElem (by omega)
    exact .inr ⟨hpos, hget.trans (congrArg some (h _ hget))⟩

/-- In particular one begins behind every newline that is added. -/
theorem lineStart_length_append_newline (t : Text) :
    (t ++ ['\n']).LineStart (t ++ ['\n']).length :=
  lineStart_length fun x hx => by simpa using hx.symm

end Text

/-! ## What is on lines -/

/-- Whether the style is one of lines, which ends with a line. -/
def Style.endsLine : Style → Bool
  | margin .. => true
  | bullet _ => true
  | number .. => true
  | quote => true
  | align _ => true
  | _ => false

/-- Whether the style also begins with a line. Text can be centered from the middle of one. -/
def Style.beginsLine : Style → Bool
  | align _ => false
  | s => s.endsLine

/-- A style that begins with a line ends with one. Only centered text does the second without the
first. -/
theorem Style.endsLine_of_beginsLine {s : Style} (h : s.beginsLine = true) :
    s.endsLine = true := by
  cases s with
  | align a => cases h
  | _ => exact h

/-- Whether the element is an item of a list. -/
def MarkerKind.isItem : MarkerKind → Bool
  | unorderedItem => true
  | orderedItem => true
  | _ => false

/-- Whether the element begins on a line of its own, and ends one. -/
def Opening.Kind.isLine : Opening.Kind → Bool
  | quote => true
  | bullet => true
  | _ => false

namespace Object

/-- Whether the object begins with a line. -/
def beginsLine : Object → Bool
  | marker m => m.kind.isItem
  | opening _ o => o.kind.isLine
  | style _ s => s.beginsLine

/-- Whether the object ends with a line. -/
def endsLine : Object → Bool
  | style _ s => s.endsLine
  | _ => false

end Object

/-- A span that begins and ends with a line where its object does. -/
structure Span.Lined (t : Text) (s : Span Object) : Prop where
  start : s.what.beginsLine = true → t.LineStart s.start
  stop : s.what.endsLine = true → t.BehindNewline s.stop

namespace Canvas

variable {n : Nat} {c c' : Canvas}

/-- Every span begins and ends with a line where its object does. -/
def Lined (c : Canvas) : Prop := ∀ s ∈ c.spans, s.Lined c.text

/-- Whether a line begins at the end of the text. -/
def AtLineStart (c : Canvas) : Prop := c.text.LineStart c.length

theorem lined_blank : blank.Lined := fun _ hs => absurd hs List.not_mem_nil

/-- Where a line has been ended, one begins, or there is no text. -/
theorem atLineStart_newline (c : Canvas) : c.newline.AtLineStart :=
  Text.lineStart_length fun _ => getLast?_newline

/-- The same holds behind a blank line. -/
theorem atLineStart_blankLine (c : Canvas) : (Flow.blankLine c).AtLineStart := by
  have hlast : c.text.getLast? = c.text.reverse.head? := List.head?_reverse.symm
  rw [Flow.blankLine]
  split
  next h =>
    refine Text.lineStart_length fun x hx => ?_
    rw [hlast, h] at hx
    cases hx
  next h =>
    refine Text.lineStart_length fun x hx => ?_
    rw [hlast, h] at hx
    exact (Option.some.inj hx).symm
  next => exact Text.lineStart_length_append_newline c.text
  next =>
    have hsplit : c.text ++ ['\n', '\n'] = (c.text ++ ['\n']) ++ ['\n'] := by simp
    refine Text.lineStart_length fun x hx => ?_
    rw [Buffer.text_append, hsplit, List.getLast?_append] at hx
    exact (Option.some.inj hx).symm

/-! ## What keeps a canvas lined -/

/-- Adding to the text and taking objects off: the spans that are left stand where they did. -/
theorem Lined.extend (h : c.Lined) (ht : c.text <+: c'.text) (hs : ∀ s ∈ c'.spans, s ∈ c.spans) :
    c'.Lined := by
  intro s hm
  obtain ⟨hstart, hstop⟩ := h s (hs s hm)
  exact ⟨fun hb => (hstart hb).mono ht, fun he => (hstop he).mono ht⟩

theorem Lined.append (h : c.Lined) (t : Text) : Lined (c.append t) :=
  h.extend (List.prefix_append _ _) fun _ hs => hs

theorem Lined.newline (h : c.Lined) : c.newline.Lined := by
  obtain ⟨t, ht⟩ := c.newline_eq_append
  rw [ht]
  exact h.append t

/-- With an object its mark or range goes, and the others stay lined. -/
theorem Lined.remove (h : c.Lined) (o : Object) : Lined (c.remove o) :=
  h.extend (List.prefix_refl _) fun _ hs => (List.mem_filter.mp hs).1

/-- A mark that begins a line is put down where one begins. Other marks may stand anywhere. -/
theorem Lined.marked (h : c.Lined) {o : Object} (hflag : o.flag = .mark)
    (hbegin : o.beginsLine = true → c.AtLineStart) : (c.marked o).Lined := by
  intro s hs
  rcases List.mem_append.mp hs with hs | hs
  · exact h s hs
  · obtain rfl := List.mem_singleton.mp hs
    refine ⟨hbegin, fun hend => ?_⟩
    cases o with
    | style made style => cases hflag
    | _ => cases hend

/-- Styles of lines are put over lines. An empty range asks for nothing, since no style comes over
it. -/
theorem Lined.styled (h : c.Lined) {styles : List Style} {start stop : Nat}
    (hbegin : ∀ s ∈ styles, s.beginsLine = true → c.text.LineStart start)
    (hend : ∀ s ∈ styles, s.endsLine = true → start ≠ stop → c.text.BehindNewline stop) :
    (c.styled n styles start stop).Lined := by
  intro s hs
  rcases List.mem_append.mp hs with hs | hs
  · exact h s hs
  · obtain ⟨hne, style, hstyle, rfl⟩ := mem_spread hs
    exact ⟨hbegin style hstyle, fun he => hend style hstyle he hne⟩

/-- What begins before the end of the text, where a line begins, ends behind a newline there: the
text is not empty then. -/
theorem AtLineStart.behindNewline (h : c.AtLineStart) {a : Nat} (hle : a ≤ c.length)
    (hne : a ≠ c.length) : c.text.BehindNewline c.length :=
  h.resolve_left (by omega)

/-- An attached object that begins a line stands where one begins, so the styles that take its place
begin there. -/
theorem Lined.lineStart_of_start? (h : c.Lined) {o : Object} {a : Nat} (ha : c.start? o = some a)
    (ho : o.beginsLine = true) : c.text.LineStart a := by
  obtain ⟨s, hs, rfl⟩ := Option.map_eq_some_iff.mp ha
  have hfound := List.find?_some hs
  obtain rfl : s.what = o := of_decide_eq_true hfound
  exact (h s (List.mem_of_find?_eq_some hs)).start ho

end Canvas

/-! ## Intercepted tags -/

namespace Intercept

/-- The markers of items in lists of both kinds are those of items. -/
theorem ListKind.isItem_marker (kind : ListKind) : kind.marker.isItem = true := by
  cases kind <;> rfl

/-- Of the elements that keep nothing but a marker, only centered text has a style of lines. It may
begin within a line, but the line is ended for it. -/
theorem BareTag.endsLine_of_mem_styles {b : BareTag} {s : Style} (hs : s ∈ b.styles)
    (h : s.endsLine = true) : b.isParagraph = true ∧ s.beginsLine = false := by
  cases b with
  | center =>
    obtain rfl := List.mem_singleton.mp hs
    exact ⟨rfl, rfl⟩
  | _ => simp_all [BareTag.styles, Style.endsLine]

namespace State

variable {n : Nat} {kind : MarkerKind} {isParagraph : Bool} {styles : List Style} {tag : Tag}
  {attributes : Markup.Attributes} {t t' : State} {c c' : Canvas}

/-- **Closing keeps lines whole.** Only items have styles that begin with a line, and where a style
ends with one the line has been ended, or the style is one of paragraphs. -/
theorem finish_lined (hdepth : t.depth = 0) (hc : c.Sound n) (hd : styles.Nodup)
    (hbegin : ∀ s ∈ styles, s.beginsLine = true → kind.isItem = true)
    (hend : ∀ s ∈ styles, s.endsLine = true → isParagraph = true ∨ c.AtLineStart)
    (h : t.finish n kind isParagraph styles c = .ok (t', c')) (hl : c.Lined) : c'.Lined := by
  cases closes_of_finish hc hd h with
  | nothing => exact hl
  | elsewhere => exact hl
  | inside hm ha hpos => exact absurd hdepth (Nat.ne_of_gt hpos)
  | @outside m a hm ha _ =>
    have hle := le_length_of_start? hc ha
    have hfound := List.find?_some hm
    obtain rfl : m.kind = kind := of_decide_eq_true hfound
    -- the styles begin at the marker, which stands on a line if it is one of an item
    have hstyled {c₁ : Canvas} (hl₁ : c₁.Lined) (ht : c.text <+: c₁.text)
        (hline : ∀ s ∈ styles, s.endsLine = true → c₁.AtLineStart) :
        (c₁.styled n styles a c₁.length).Lined := by
      refine hl₁.styled (fun s hs hb => ?_) fun s hs he hne => ?_
      · exact (hl.lineStart_of_start? ha (hbegin s hs hb)).mono ht
      · exact (hline s hs he).behindNewline (Nat.le_trans hle ht.length_le) hne
    unfold closed
    -- nothing is styled where there is no text, so no newline is needed at the end of it
    by_cases he : a = (Buffer.remove c (.marker m)).length
    · rw [if_pos he]
      exact hl.remove _
    rw [if_neg he]
    cases isParagraph with
    | true =>
      have hgrows := Canvas.grows_newline (Buffer.remove c (.marker m))
      exact hstyled (hl.remove _).newline hgrows.text fun _ _ _ => Canvas.atLineStart_newline _
    | false =>
      exact hstyled (hl.remove _) (List.prefix_refl _) fun s hs he =>
        (hend s hs he).resolve_left Bool.false_ne_true

/-- A start tag marks an item where a line begins: the last line has been ended for it. -/
theorem startTag_lined (ht : t.Balanced) (hc : c.Sound n)
    (h : t.startTag n tag attributes c = .ok (t', c')) (hl : c.Lined) : c'.Lined := by
  obtain ⟨t₁, hopens, -⟩ := opens_of_startTag ht hc h
  have hmark {m : Marker} (hm : m.kind.isItem = false) : (c.marked (.marker m)).Lined :=
    hl.marked rfl fun hb => absurd hb (by simp [Object.beginsLine, hm])
  have hitem (m : Marker) : (c.newline.marked (.marker m)).Lined :=
    hl.newline.marked rfl fun _ => Canvas.atLineStart_newline c
  cases hopens with
  | list kind => exact hl
  | looseItem => exact hl.newline
  | bullet => exact hitem _
  | number => exact hitem _
  | link => exact hmark rfl
  | bare b => exact hmark (by cases b <;> rfl)
  | root => exact (hmark rfl).append _
  | inner => exact hmark rfl

/-- Outside of tables an end tag styles whole lines as such. An item ends the line before it is
closed, and centered text does when it has got some text. -/
theorem endTag_lined (ht : t.Balanced) (hdepth : t.depth = 0) (hc : c.Sound n)
    (h : t.endTag n tag c = .ok (t', c')) (hl : c.Lined) : c'.Lined := by
  obtain ⟨⟨t'', c''⟩, hok, heq⟩ := exists_of_map_eq_ok h
  cases heq
  cases tag with
  | list kind =>
    cases hok
    exact hl
  | item =>
    rcases hlists : t.lists with _ | ⟨kind, lists⟩
    · cases (closeItem_of_lists_eq_nil hlists).symm.trans hok
      exact hl
    · exact finish_lined hdepth hc.newline (nodup_itemStyles t)
        (fun _ _ _ => kind.isItem_marker) (fun _ _ _ => .inr (Canvas.atLineStart_newline c))
        ((closeItem_eq hlists ht).symm.trans hok) hl.newline
  | link =>
    exact finish_lined hdepth hc (by simp) (by simp [Style.beginsLine, Style.endsLine])
      (by simp [Style.endsLine]) hok hl
  | bare b =>
    refine finish_lined hdepth hc b.nodup_styles (fun s hs hb => ?_) (fun s hs he => ?_) hok hl
    · -- only centered text is drawn for whole lines, and it may begin anywhere
      have hfalse := (b.endsLine_of_mem_styles hs (Style.endsLine_of_beginsLine hb)).2
      exact absurd hb (by simp [hfalse])
    · exact .inl (b.endsLine_of_mem_styles hs he).1
  | table =>
    simp only [closeElement, closeTable, hdepth] at hok
    cases hok
    exact hl

/-- A stray end tag of a table is nothing, and no other end tag changes the depth, so without start
tags of tables a run stays outside of them. -/
theorem depth_endTag (ht : t.Balanced) (hdepth : t.depth = 0) (hc : c.Sound n)
    (h : t.endTag n tag c = .ok (t', c')) : t'.depth = 0 := by
  by_cases htag : tag = .table
  · subst htag
    simp only [endTag, closeElement, closeTable, hdepth] at h
    cases h
    rw [record_of_depth_eq_zero hdepth, hdepth]
  · obtain ⟨t'', c'', hok, hleaves⟩ := endTag_leaves tag ht hc
    cases hok.symm.trans h
    exact (hleaves.depth htag).trans hdepth

end State

end Intercept

/-! ## Running text -/

namespace Flow

variable {n : Nat} {c c' : Canvas}

/-- Room is made before and after an element of lines, which is enough for its mark and for the end
of its range. -/
theorem Tag.atLineStart {tag : Tag} {kind : Opening.Kind} (hkind : tag.kind? = some kind)
    (h : kind.isLine = true) (c : Canvas) :
    (tag.before c).AtLineStart ∧ (tag.after c).AtLineStart := by
  cases tag with
  | item => exact ⟨Canvas.atLineStart_newline c, Canvas.atLineStart_newline c⟩
  | quote => exact ⟨Canvas.atLineStart_blankLine c, Canvas.atLineStart_blankLine c⟩
  | _ => cases hkind <;> cases h

/-- Of the openings of running text only quotes and items have styles of lines. -/
theorem isLine_of_mem_styles {o : Opening} {s : Style} (hs : s ∈ o.styles)
    (h : s.endsLine = true) : o.kind.isLine = true := by
  cases o with
  | quote => rfl
  | bullet => rfl
  | font color face =>
    rcases List.mem_append.mp hs with hs | hs <;>
      · obtain ⟨_, -, rfl⟩ := Option.map_eq_some_iff.mp (Option.mem_toList.mp hs)
        cases h
  | «inline» i =>
    obtain rfl := List.mem_singleton.mp hs
    cases i <;> cases h
  | heading level =>
    simp only [Opening.styles, List.mem_cons, List.not_mem_nil, or_false] at hs
    rcases hs with rfl | rfl <;> cases h
  | link href =>
    obtain rfl := List.mem_singleton.mp hs
    cases h

/-- **Closing keeps lines whole**: quotes and items begin with a line, and are closed on a line that
has been ended. -/
theorem finish_lined {kind : Opening.Kind} (hc : c.Sound n)
    (hline : kind.isLine = true → c.AtLineStart) (h : finish n kind c = .ok c') (hl : c.Lined) :
    c'.Lined := by
  rcases hnewest : newest? kind c with _ | ⟨o, s⟩
  · cases (finish_of_newest?_eq_none hnewest).symm.trans h
    exact hl
  · cases (finish_of_newest? hc hnewest).symm.trans h
    obtain ⟨hs, ho, rfl⟩ := newest?_eq_some hnewest
    have hfit := hc s hs
    refine (hl.remove _).styled (fun r hr hb => ?_) fun r hr he hne => ?_
    · have hbegins : s.what.beginsLine = true := by
        have hisLine := isLine_of_mem_styles hr (Style.endsLine_of_beginsLine hb)
        cases hw : s.what with
        | opening made o' =>
          rw [hw] at ho
          cases ho
          exact hisLine
        | _ => rw [hw] at ho; cases ho
      exact (hl s hs).start hbegins
    · -- only a heading ends before the newlines behind it, and that is no element of lines
      have hisLine := isLine_of_mem_styles hr he
      have hstop : stopOf o.kind s.start c = c.length := by
        cases hkind : o.kind with
        | heading =>
          rw [hkind] at hisLine
          cases hisLine
        | _ => rfl
      rw [hstop] at hne ⊢
      exact (hline hisLine).behindNewline (Nat.le_trans hfit.start_le hfit.stop_le) hne

namespace State

variable {lookup? : Option Image.Lookup} {tag : Tag} {attributes : Markup.Attributes}
  {f f' : State}

/-- A start tag of running text puts the mark of a quote or an item where a line begins. -/
theorem startTag_lined (hc : f.canvas.Sound n)
    (h : f.startTag lookup? n tag attributes = .ok f') (hl : f.canvas.Lined) :
    f'.canvas.Lined := by
  by_cases ht : tag = .image
  · -- an image opens no element, and its style is none of lines
    subst ht
    obtain ⟨f'', source, drawable, hok, hcanvas⟩ := startTag_image_eq lookup? attributes hc
    cases hok.symm.trans h
    rw [hcanvas]
    exact (hl.append _).styled (by simp [Style.beginsLine, Style.endsLine])
      (by simp [Style.endsLine])
  · cases (startTag_eq hc ht).symm.trans h
    obtain ⟨r, hr⟩ := tag.before_eq_append f.canvas
    have hbefore : Canvas.Lined (tag.before f.canvas) := by
      rw [hr]
      exact hl.append r
    cases ho : tag.opening? attributes with
    | none => exact hbefore
    | some o =>
      have hkind : tag.kind? = some o.kind := by
        rw [tag.kind?_eq attributes, ho]
        rfl
      exact hbefore.marked rfl fun hb => (Tag.atLineStart hkind hb f.canvas).1

/-- And its end tag styles from there on, up to the end of a line. -/
theorem endTag_lined (hc : f.canvas.Sound n) (h : f.endTag n tag = .ok f')
    (hl : f.canvas.Lined) : f'.canvas.Lined := by
  obtain ⟨r, hr⟩ := tag.after_eq_append f.canvas
  have hafter : Canvas.Sound n (tag.after f.canvas) ∧ Canvas.Lined (tag.after f.canvas) := by
    rw [hr]
    exact ⟨hc.append r, hl.append r⟩
  rw [endTag_eq] at h
  cases hkind : tag.kind? with
  | none =>
    rw [hkind] at h
    cases h
    exact hafter.2
  | some kind =>
    rw [hkind] at h
    obtain ⟨c', hfinish, rfl⟩ := exists_of_map_eq_ok h
    exact finish_lined hafter.1 (fun hb => (Tag.atLineStart hkind hb f.canvas).2) hfinish hafter.2

/-- So every event of running text keeps lines whole; characters and breaks only add to the text. -/
theorem receive_lined (hc : f.canvas.Sound n) {e : Event} (h : f.receive lookup? n e = .ok f')
    (hl : f.canvas.Lined) : f'.canvas.Lined := by
  cases receives_of_receive h with
  | startTag _ hstart => exact startTag_lined hc hstart hl
  | endTag _ hend => exact endTag_lined hc hend hl
  | characters t => exact hl.append _
  | ignored => exact hl

end State

end Flow

/-! ## Drafts -/

/-- Whether the event is the start tag of a table. -/
def Markup.Event.beginsTable : Event → Bool
  | .startElement name _ => name.lower = "table".toList
  | _ => false

namespace Draft

variable {lookup? : Option Image.Lookup} {n : Nat} {d d' : Draft}

/-- Outside of tables, on a canvas where lines are whole. -/
structure Lined (d : Draft) : Prop where
  depth : d.tags.depth = 0
  canvas : d.canvas.Lined

/-- **Each event keeps lines whole**, unless it begins a table. -/
theorem receive_lined (hd : d.Sound n) {e : Event} (he : e.beginsTable = false)
    (h : (intercepted lookup?).receive n e d = .ok d') (hl : d.Lined) : d'.Lined := by
  obtain ⟨t', f'⟩ := d'
  cases Consumer.handles_of_receive h with
  | declined _ hf => exact ⟨hl.depth, Flow.State.receive_lined hd.canvas hf hl.canvas⟩
  | @startTag name attributes tag t c htag hstart =>
    have hne : tag ≠ .table := by
      rintro rfl
      simp [Event.beginsTable, Consumer.lower_eq_of_ofName?_table htag] at he
    obtain ⟨t', c', hok, hleaves⟩ :=
      Intercept.State.startTag_leaves tag attributes hd.balanced hd.canvas
    cases hok.symm.trans hstart
    exact ⟨(hleaves.depth hne).trans hl.depth,
      Intercept.State.startTag_lined hd.balanced hd.canvas hstart hl.canvas⟩
  | endTag htag hend =>
    exact ⟨Intercept.State.depth_endTag hd.balanced hl.depth hd.canvas hend,
      Intercept.State.endTag_lined hd.balanced hl.depth hd.canvas hend hl.canvas⟩

/-- Events without the start tag of a table keep lines whole, one after another. -/
theorem run_lined {events : List Event} (hevents : ∀ e ∈ events, e.beginsTable = false)
    (hd : d.Sound n) (hl : d.Lined) (hrun : (intercepted lookup?).runFrom n events d = .ok d') :
    d'.Lined := by
  refine runFrom_invariant (P := fun _ => Lined) ?_ hd hl hrun
  intro e he n d d' hd hl hok
  exact receive_lined hd (hevents e he) hok hl

/-- **Whole lines.** Whatever tags come in whatever order, as long as no table begins: all that is
written down succeeds, and every style of lines ends right behind a newline and, unless it is an
alignment, begins where a line begins. -/
theorem paragraphs_on_whole_lines (lookup? : Option Image.Lookup) (setup : Intercept.Setup)
    (indent : Option Nat) (events : List Event) (hevents : ∀ e ∈ events, e.beginsTable = false) :
    ∃ d : Draft,
      (intercepted lookup?).run events ({ setup := setup, indent := indent }, {}) = .ok d ∧
        ∀ s ∈ d.canvas.annotations, ∀ style, s.what.style? = some style →
          (style.endsLine = true → d.canvas.text.BehindNewline s.stop) ∧
            (style.beginsLine = true → d.canvas.text.LineStart s.start) := by
  have hsound : Draft.Sound 0 ({ setup := setup, indent := indent }, {}) :=
    ⟨rfl, Canvas.sound_blank 0⟩
  obtain ⟨d, hok, -, -⟩ := run_sound lookup? events hsound
  have hl : d.Lined := run_lined hevents hsound ⟨rfl, Canvas.lined_blank⟩ hok
  refine ⟨d, hok, fun s hs style hstyle => ?_⟩
  have hlined := hl.canvas s (List.mem_filter.mp (Span.mem_arrange.mp hs)).1
  cases hw : s.what with
  | style made style' =>
    rw [hw] at hstyle
    cases hstyle
    refine ⟨fun he => hlined.stop ?_, fun hb => hlined.start ?_⟩
    · rw [hw]
      exact he
    · rw [hw]
      exact hb
  | _ =>
    rw [hw] at hstyle
    cases hstyle

/-- A list in another, centered text, a quote and items of running text, all of which cross. -/
def crossedTags : List Event :=
  [.startElement Markup.Renamed.orderedList.reserved.lower [],
    .startElement Markup.Renamed.listItem.reserved.lower [], .startElement "Center".toList [],
    .characters "a".toList, .startElement Markup.Renamed.unorderedList.reserved.lower [],
    .startElement Markup.Renamed.listItem.reserved.lower [],
    .startElement "blockquote".toList [], .characters "b".toList,
    .endElement Markup.Renamed.unorderedList.reserved.lower,
    .endElement Markup.Renamed.listItem.reserved.lower, .characters "c".toList,
    .startElement "li".toList [], .endElement "table".toList, .characters "d".toList,
    .endElement "center".toList, .characters "e".toList, .endElement "blockquote".toList,
    .startElement Markup.Renamed.unorderedList.reserved.lower [],
    .endElement Markup.Renamed.listItem.reserved.lower, .characters "f".toList,
    .endElement "li".toList, .characters "g".toList]

theorem paragraphs_on_whole_lines_crossedTags :
    (∀ e ∈ crossedTags, e.beginsTable = false) ∧ ∃ d : Draft,
      (intercepted none).run crossedTags ({ indent := some 3 }, {}) = .ok d ∧
        d.canvas.text = "a\n\nb\nc\nd\ne\n\nf\ng".toList ∧
        (d.canvas.annotations.map fun s => (s.what.style?, s.start, s.stop)) =
          [(some (.align .center), 0, 9), (some (.margin 0 0), 0, 5), (some (.number 3 1), 0, 5),
            (some (.margin 6 6), 2, 12), (some (.bullet (-8)), 2, 12), (some .quote, 3, 12),
            (some (.bullet 2), 7, 14)] ∧
        ∀ s ∈ d.canvas.annotations, ∀ style, s.what.style? = some style →
          (style.endsLine = true → d.canvas.text.BehindNewline s.stop) ∧
            (style.beginsLine = true → d.canvas.text.LineStart s.start) := by
  have hevents : ∀ e ∈ crossedTags, e.beginsTable = false := by decide +kernel
  obtain ⟨d, hok, hlines⟩ := paragraphs_on_whole_lines none {} (some 3) crossedTags hevents
  have hshown : ((intercepted none).run crossedTags ({ indent := some 3 }, {})).toOption.map
      (fun d : Draft => (d.canvas.text,
        d.canvas.annotations.map fun s => (s.what.style?, s.start, s.stop))) =
      some ("a\n\nb\nc\nd\ne\n\nf\ng".toList,
        [(some (.align .center), 0, 9), (some (.margin 0 0), 0, 5), (some (.number 3 1), 0, 5),
          (some (.margin 6 6), 2, 12), (some (.bullet (-8)), 2, 12), (some .quote, 3, 12),
          (some (.bullet 2), 7, 14)]) := by
    decide +kernel
  rw [hok] at hshown
  obtain ⟨htext, hspans⟩ := Prod.mk.inj (Option.some.inj hshown)
  exact ⟨hevents, d, hok, htext, hspans, hlines⟩

end Draft

end StyledText
