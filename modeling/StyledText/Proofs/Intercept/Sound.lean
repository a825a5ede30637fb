import StyledText.Intercept.Handle
import StyledText.Proofs.Canvas.Sound

/-!
# Tags on a sound canvas

No intercepted tag fails, in whatever order tags come. A canvas could refuse a range, and a list
could lack its counter; neither happens on a sound canvas in a state that is **balanced**: one
counter for each open ordered list.

* `State.Opens`, `State.Shuts` — the ways in which the tags of an element can go;
* `State.exists_startTag_opens`, `State.exists_endTag_shuts` — a tag always goes in one of them;
* `State.startTag_leaves`, `State.endTag_leaves` — what it leaves is sound and balanced.
-/

namespace StyledText

namespace Intercept

/-- The kind of marker of an item of a list. -/
def ListKind.marker : ListKind → MarkerKind
  | .unordered => .unorderedItem
  | .ordered => .orderedItem

/-! ## The styles of an element differ from each other -/

/-- The margin and the bullet of an item are styles of two kinds, so attaching the second one does
not move the first. -/
theorem nodup_bulletStyles (unit depth : Nat) : (bulletStyles unit depth).Nodup := by
  simp [bulletStyles]

/-- The same for the margin and the number of an item. -/
theorem nodup_numberStyles (unit depth : Nat) (number : Int) :
    (numberStyles unit depth number).Nodup := by
  simp [numberStyles]

/-- An element that only puts a marker down has one style or none. -/
theorem BareTag.nodup_styles (b : BareTag) : b.styles.Nodup := by
  cases b <;> simp [BareTag.styles]

namespace State

variable {n : Nat} {kind : MarkerKind} {isParagraph : Bool} {styles : List Style}
  {t t' : State} {c c' : Canvas}

/-- The label of a table and what reacts to its clicks are two objects, although both show the same
markup. -/
theorem nodup_tableStyles (t : State) : t.tableStyles.Nodup := by
  simp only [tableStyles]
  cases t.setup.tableLink <;> cases t.setup.clickable <;> simp

/-! ## Marking and closing -/

/-- Marking never fails: the mark comes to stand at the end of the text, and its marker is the
newest. -/
theorem mark_eq_marked {href : Option Text} (hc : c.Sound n) :
    t.mark n kind href c = .ok ({ t with markers := ⟨n, kind, href⟩ :: t.markers },
      c.marked (.marker ⟨n, kind, href⟩)) := by
  rw [mark, Canvas.markEnd_eq_marked hc rfl]
  rfl

/-- The canvas after an element outside of tables has been closed whose text begins at `start`. -/
def closed (n : Nat) (isParagraph : Bool) (styles : List Style) (m : Marker) (start : Nat)
    (c : Canvas) : Canvas :=
  let c : Canvas := c.remove (.marker m)
  if start = c.length then c
  else
    let c := if isParagraph then c.newline else c
    c.styled n styles start c.length

/-- Closing adds the newline of a paragraph to the text, and the styles over the text to the spans.
Told in this form it is covered by what is known of appending and styling. -/
theorem closed_eq (n : Nat) (isParagraph : Bool) (styles : List Style) (m : Marker) (start : Nat)
    (c : Canvas) :
    ∃ r : Text, closed n isParagraph styles m start c =
      Canvas.styled n styles start (c.length + r.length)
        (Buffer.append (Buffer.remove c (.marker m)) r) := by
  unfold closed
  by_cases he : start = (Buffer.remove c (.marker m)).length
  · refine ⟨[], (if_pos he).trans ?_⟩
    have hstart : start = c.length := he
    simp [hstart]
  · have hr : ∃ r : Text, (if isParagraph = true then Canvas.newline (Buffer.remove c (.marker m))
        else Buffer.remove c (.marker m)) = Buffer.append (Buffer.remove c (.marker m)) r := by
      cases isParagraph with
      | true => exact Canvas.newline_eq_append _
      | false => exact ⟨[], by simp⟩
    obtain ⟨r, hr⟩ := hr
    refine ⟨r, (if_neg he).trans ?_⟩
    simp only [hr, Buffer.length_append]
    rfl

/-- Styles that are not of paragraphs leave the text alone, and of an element without text nothing
is left but what was there before it. -/
theorem closed_inline (n : Nat) (styles : List Style) (m : Marker) (start : Nat) (c : Canvas) :
    closed n false styles m start c =
      Canvas.styled n styles start c.length (Buffer.remove c (.marker m)) := by
  unfold closed
  by_cases he : start = (Buffer.remove c (.marker m)).length
  · refine (if_pos he).trans ?_
    rw [show start = c.length from he, Canvas.styled_self]
  · exact (if_neg he).trans rfl

/-- An attached object is on a span of the canvas, and so it stands in the text. This is why the
range of a closing element is never refused. -/
theorem le_length_of_start? {o : Object} {a : Nat} (hc : c.Sound n) (h : c.start? o = some a) :
    a ≤ c.length := by
  obtain ⟨s, hs, rfl⟩ := Option.map_eq_some_iff.mp h
  have hfit := hc s (List.mem_of_find?_eq_some hs)
  exact Nat.le_trans hfit.start_le hfit.stop_le

/-- **Closing inside a table.** The text goes to the markup of the table, with the characters in it
as they are shown, and the styles are not attached. -/
theorem finish_eq_write {m : Marker} {a : Nat} (hc : c.Sound n) (hdepth : 0 < t.depth)
    (hm : t.newest? kind = some m) (ha : c.start? (.marker m) = some a) :
    t.finish n kind isParagraph styles c =
      .ok ((t.drop kind).write (c.text.drop a),
        Buffer.remove (c.cut a c.length) (.marker m)) := by
  have hle := le_length_of_start? hc ha
  have hlen : (Buffer.remove (c.cut a c.length) (.marker m)).length = a := by
    have := Buffer.length_cut hle (Nat.le_refl c.length)
    simp only [Buffer.length, Buffer.text_remove] at *
    omega
  have hcollect : (t.drop kind).collect a c =
      .ok ((t.drop kind).write (c.text.drop a), c.cut a c.length) := by
    rw [collect, Canvas.extract_eq hle]
    exact if_pos hdepth
  simp only [finish, hm, ha, hcollect]
  exact if_pos hlen.symm

/-- **Closing outside of tables.** The text gets the styles; the markup, if there is any from an
earlier table, stays. -/
theorem finish_eq_closed {m : Marker} {a : Nat} (hc : c.Sound n) (hd : styles.Nodup)
    (hdepth : t.depth = 0) (hm : t.newest? kind = some m) (ha : c.start? (.marker m) = some a) :
    t.finish n kind isParagraph styles c =
      .ok (t.drop kind, closed n isParagraph styles m a c) := by
  have hle := le_length_of_start? hc ha
  -- outside of tables nothing is collected, so the text stays
  have hcollect : (t.drop kind).collect a c = .ok (t.drop kind, c) := if_neg (by simp [drop, hdepth])
  simp only [finish, hm, ha, hcollect, closed]
  by_cases he : a = (Buffer.remove c (.marker m)).length
  · rw [if_pos he]
    exact if_pos he
  · rw [if_neg he]
    refine (if_neg he).trans ?_
    have hs : ∀ c', c' = (if isParagraph = true then Canvas.newline (Buffer.remove c (.marker m))
        else Buffer.remove c (.marker m)) → c'.Sound n ∧ a < c'.length := by
      rintro c' rfl
      have hlt : a < (Buffer.remove c (.marker m)).length := Nat.lt_of_le_of_ne hle he
      split
      · obtain ⟨r, hr⟩ := Canvas.newline_eq_append (Buffer.remove c (.marker m))
        rw [hr, Buffer.length_append]
        exact ⟨(hc.remove _).append r, Nat.lt_of_lt_of_le hlt (Nat.le_add_right _ _)⟩
      · exact ⟨hc.remove _, hlt⟩
    obtain ⟨hsound, hlt⟩ := hs _ rfl
    have hattach := Canvas.attach_eq_styled hsound hd hlt (Nat.le_refl _)
    change Except.map _ _ = _
    rw [hattach]
    rfl

/-- The ways in which closing can go: there is no marker of the kind; the newest one stands on
another canvas; or it stands on this one, inside or outside of a table. -/
inductive Closes (n : Nat) (kind : MarkerKind) (isParagraph : Bool) (styles : List Style) (t : State)
    (c : Canvas) : State → Canvas → Prop
  | nothing (hm : t.newest? kind = none) : Closes n kind isParagraph styles t c t c
  | elsewhere {m : Marker} (hm : t.newest? kind = some m) (ha : c.start? (.marker m) = none) :
      Closes n kind isParagraph styles t c (t.drop kind) c
  | inside {m : Marker} {a : Nat} (hm : t.newest? kind = some m)
      (ha : c.start? (.marker m) = some a) (hdepth : 0 < t.depth) :
      Closes n kind isParagraph styles t c ((t.drop kind).write (c.text.drop a))
        (Buffer.remove (c.cut a c.length) (.marker m))
  | outside {m : Marker} {a : Nat} (hm : t.newest? kind = some m)
      (ha : c.start? (.marker m) = some a) (hdepth : t.depth = 0) :
      Closes n kind isParagraph styles t c (t.drop kind) (closed n isParagraph styles m a c)

/-- Closing never fails, and it goes in one of these ways. There may be no marker, or its mark may
be on another canvas. -/
theorem exists_finish (hc : c.Sound n) (hd : styles.Nodup) :
    ∃ t' c', t.finish n kind isParagraph styles c = .ok (t', c') ∧
      Closes n kind isParagraph styles t c t' c' := by
  rcases hm : t.newest? kind with _ | m
  · exact ⟨t, c, finish_of_newest?_eq_none hm, .nothing hm⟩
  rcases ha : c.start? (.marker m) with _ | a
  · exact ⟨t.drop kind, c, by simp [finish, hm, ha], .elsewhere hm ha⟩
  rcases Nat.eq_zero_or_pos t.depth with hdepth | hdepth
  · exact ⟨_, _, finish_eq_closed hc hd hdepth hm ha, .outside hm ha hdepth⟩
  · exact ⟨_, _, finish_eq_write hc hdepth hm ha, .inside hm ha hdepth⟩

/-- So closing that has succeeded has gone in one of these ways, by which later proofs take it
apart. -/
theorem closes_of_finish (hc : c.Sound n) (hd : styles.Nodup)
    (h : t.finish n kind isParagraph styles c = .ok (t', c')) :
    Closes n kind isParagraph styles t c t' c' := by
  have hfinish : ∃ t'' c'', t.finish n kind isParagraph styles c = .ok (t'', c'') ∧
      Closes n kind isParagraph styles t c t'' c'' := exists_finish hc hd
  obtain ⟨t'', c'', hok, hcloses⟩ := hfinish
  cases hok.symm.trans h
  exact hcloses

/-- Whichever way it goes, the canvas is sound before the next event. -/
theorem Closes.sound (h : Closes n kind isParagraph styles t c t' c') (hc : c.Sound n) :
    c'.Sound (n + 1) := by
  cases h with
  | nothing => exact hc.mono (Nat.le_succ n)
  | elsewhere => exact hc.mono (Nat.le_succ n)
  | inside hm ha hdepth =>
    exact ((hc.cut (le_length_of_start? hc ha) (Nat.le_refl _)).remove _).mono (Nat.le_succ n)
  | @outside m a hm ha hdepth =>
    have hle := le_length_of_start? hc ha
    obtain ⟨r, hr⟩ := closed_eq n isParagraph styles m a c
    rw [hr]
    refine ((hc.remove _).append r).styled (Nat.le_trans hle (Nat.le_add_right _ _)) ?_
    rw [Buffer.length_append]
    exact Nat.le_refl _

/-- Closing takes up the newest marker of the kind, wherever it stands, and only the markup changes
beside the markers. -/
theorem Closes.frame (h : Closes n kind isParagraph styles t c t' c') :
    t'.lists = t.lists ∧ t'.counters = t.counters ∧ t'.depth = t.depth ∧
      t'.markers = t.markers.eraseP (·.kind = kind) := by
  cases h with
  | nothing hm =>
    have hnone := List.find?_eq_none.mp hm
    exact ⟨rfl, rfl, rfl, (List.eraseP_of_forall_not hnone).symm⟩
  | elsewhere => exact ⟨rfl, rfl, rfl, rfl⟩
  | inside => exact ⟨rfl, rfl, rfl, rfl⟩
  | outside => exact ⟨rfl, rfl, rfl, rfl⟩

/-! ## Counters -/

/-- One counter for each open ordered list. -/
def Balanced (t : State) : Prop := t.counters.length = t.lists.count .ordered

/-- In an ordered list there is a counter, so counting an item in it does not fail. -/
theorem Balanced.exists_counter (h : t.Balanced) {lists : List ListKind}
    (hl : t.lists = .ordered :: lists) : ∃ k counters, t.counters = k :: counters := by
  refine List.exists_cons_of_length_pos ?_
  rw [h, hl, List.count_cons_self]
  exact Nat.succ_pos _

/-- A list that opens brings its own counter, if it is ordered. -/
theorem Balanced.openList (h : t.Balanced) (kind : ListKind) : (t.openList kind).Balanced := by
  cases kind <;> simpa [Balanced, State.openList] using h

/-- A list that closes takes a counter with it just if it was ordered, whichever end tag it was that
closed it. -/
theorem Balanced.closeList (h : t.Balanced) : t.closeList.Balanced := by
  unfold State.closeList
  split
  next => exact h
  next hl => simpa [Balanced, hl] using h
  next hl => simp_all [Balanced]

/-- The end of a list changes which lists are open and their counters, and nothing else. -/
theorem closeList_eq (t : State) :
    t.closeList = { t with lists := t.closeList.lists, counters := t.closeList.counters } := by
  unfold closeList
  split <;> rfl

@[simp] theorem depth_closeList (t : State) : t.closeList.depth = t.depth := by
  rw [closeList_eq]

@[simp] theorem markers_closeList (t : State) : t.closeList.markers = t.markers := by
  rw [closeList_eq]

@[simp] theorem html_closeList (t : State) : t.closeList.html = t.html := by
  rw [closeList_eq]

/-! ## Elements -/

/-- The ways in which opening an element can go. An item outside of a list only begins a line, and
an item of an ordered list finds a counter. -/
inductive Opens (n : Nat) (attributes : Markup.Attributes) (t : State) (c : Canvas) :
    Tag → State → Canvas → Prop
  | list (kind : ListKind) : Opens n attributes t c (.list kind) (t.openList kind) c
  | looseItem (hl : t.lists = []) : Opens n attributes t c .item t c.newline
  | bullet {lists : List ListKind} (hl : t.lists = .unordered :: lists) :
      Opens n attributes t c .item { t with markers := ⟨n, .unorderedItem, none⟩ :: t.markers }
        (c.newline.marked (.marker ⟨n, .unorderedItem, none⟩))
  | number {lists : List ListKind} {k : Nat} {counters : List Nat} (hl : t.lists = .ordered :: lists)
      (hk : t.counters = k :: counters) :
      Opens n attributes t c .item
        { t with
          markers := ⟨n, .orderedItem, none⟩ :: t.markers
          counters := (k + 1) :: counters }
        (c.newline.marked (.marker ⟨n, .orderedItem, none⟩))
  | link {href : Option Text} (hhref : href = attributes.get? "href".toList) :
      Opens n attributes t c .link { t with markers := ⟨n, .link, href⟩ :: t.markers }
        (c.marked (.marker ⟨n, .link, href⟩))
  | bare (b : BareTag) :
      Opens n attributes t c (.bare b) { t with markers := ⟨n, b.marker, none⟩ :: t.markers }
        (c.marked (.marker ⟨n, b.marker, none⟩))
  | root (hdepth : t.depth = 0) :
      Opens n attributes t c .table
        { t with markers := ⟨n, .table, none⟩ :: t.markers, html := [], depth := 1 }
        (Buffer.append (c.marked (.marker ⟨n, .table, none⟩)) placeholder)
  | inner (hdepth : 0 < t.depth) :
      Opens n attributes t c .table
        { t with markers := ⟨n, .table, none⟩ :: t.markers, depth := t.depth + 1 }
        (c.marked (.marker ⟨n, .table, none⟩))

/-- The ways in which closing an element can go. An item without a list and a table without a start
are stray; the styles of an element are of no account inside a table. -/
inductive Shuts (n : Nat) (t : State) (c : Canvas) : Tag → State → Canvas → Prop
  | list (kind : ListKind) : Shuts n t c (.list kind) t.closeList c
  | strayItem (hl : t.lists = []) : Shuts n t c .item t c
  | strayTable (hdepth : t.depth = 0) : Shuts n t c .table t c
  | item {kind : ListKind} {lists : List ListKind} {styles : List Style} {t' : State} {c' : Canvas}
      (hl : t.lists = kind :: lists) (h : Closes n kind.marker false styles t c.newline t' c') :
      Shuts n t c .item t' c'
  | link {styles : List Style} {t' : State} {c' : Canvas}
      (h : Closes n .link false styles t c t' c') : Shuts n t c .link t' c'
  | bare {b : BareTag} {t' : State} {c' : Canvas}
      (h : Closes n b.marker b.isParagraph b.styles t c t' c') : Shuts n t c (.bare b) t' c'
  | root {t₀ t' : State} {c' : Canvas} (hdepth : t.depth = 1)
      (ht₀ : t₀ = { t with depth := 0 }.write Tag.table.endText)
      (h : Closes n .table false t₀.tableStyles t₀.countClick c t' c') : Shuts n t c .table t' c'
  | inner {k : Nat} {t' : State} {c' : Canvas} (hdepth : t.depth = k + 2)
      (h : Closes n .table false [] { t with depth := k + 1 } c t' c') : Shuts n t c .table t' c'

/-- No element fails to open. The one step that could fail is the counting of an item, and for that
the state is balanced. -/
theorem exists_openElement_opens (tag : Tag) (attributes : Markup.Attributes) (ht : t.Balanced)
    (hc : c.Sound n) :
    ∃ t' c', t.openElement n tag attributes c = .ok (t', c') ∧
      Opens n attributes t c tag t' c' := by
  cases tag with
  | list kind => exact ⟨_, _, rfl, .list kind⟩
  | item =>
    have hs := hc.newline
    simp only [openElement, openItem]
    rcases hl : t.lists with _ | ⟨kind, lists⟩
    · exact ⟨_, _, rfl, .looseItem hl⟩
    cases kind with
    | unordered => exact ⟨_, _, mark_eq_marked hs, .bullet hl⟩
    | ordered =>
      -- a numbered item counts, and it is here that a counter must be there
      obtain ⟨k, counters, hk⟩ := ht.exists_counter hl
      refine ⟨_, _, ?_, .number hl hk⟩
      simp only [mark_eq_marked hs, bind, Except.bind, count, hk]
      rfl
  | link => exact ⟨_, _, mark_eq_marked hc, .link rfl⟩
  | bare b => exact ⟨_, _, mark_eq_marked hc, .bare b⟩
  | table =>
    simp only [openElement, openTable, mark_eq_marked hc, bind, Except.bind]
    split
    next hdepth => exact ⟨_, _, rfl, .root hdepth⟩
    next hdepth => exact ⟨_, _, rfl, .inner (Nat.pos_of_ne_zero hdepth)⟩

/-- No element fails to close. All ranges that are styled or taken out begin at a mark, which stands
in the text. -/
theorem exists_closeElement_shuts (tag : Tag) (ht : t.Balanced) (hc : c.Sound n) :
    ∃ t' c', t.closeElement n tag c = .ok (t', c') ∧ Shuts n t c tag t' c' := by
  cases tag with
  | list kind => exact ⟨_, _, rfl, .list kind⟩
  | item =>
    have hs := hc.newline
    simp only [closeElement, closeItem]
    rcases hl : t.lists with _ | ⟨kind, lists⟩
    · exact ⟨_, _, rfl, .strayItem hl⟩
    cases kind with
    | unordered =>
      obtain ⟨t', c', hok, h⟩ := exists_finish hs (nodup_bulletStyles _ _)
      exact ⟨t', c', hok, .item hl h⟩
    | ordered =>
      -- a balanced state has a counter for each ordered list, so there is a number
      obtain ⟨k, counters, hk⟩ := ht.exists_counter hl
      obtain ⟨t', c', hok, h⟩ := exists_finish hs (nodup_numberStyles _ _ _)
      simp only [hk]
      exact ⟨t', c', hok, .item hl h⟩
  | link =>
    obtain ⟨t', c', hok, h⟩ := exists_finish hc (List.pairwise_singleton _ _)
    exact ⟨t', c', hok, .link h⟩
  | bare b =>
    obtain ⟨t', c', hok, h⟩ := exists_finish hc b.nodup_styles
    exact ⟨t', c', hok, .bare h⟩
  | table =>
    simp only [closeElement, closeTable]
    split
    next hdepth => exact ⟨_, _, rfl, .strayTable hdepth⟩
    next hdepth =>
      obtain ⟨t', c', hok, h⟩ := exists_finish hc (nodup_tableStyles _)
      exact ⟨t', c', hok, .root hdepth rfl h⟩
    next depth hdepth =>
      obtain ⟨t', c', hok, h⟩ := exists_finish hc List.nodup_nil
      exact ⟨t', c', hok, .inner hdepth h⟩

/-! ## Tags -/

/-- What a tag leaves: a sound canvas and a balanced state, at the same depth unless the tag is that
of a table. -/
structure Leaves (n : Nat) (tag : Tag) (t t' : State) (c' : Canvas) : Prop where
  balanced : t'.Balanced
  sound : c'.Sound (n + 1)
  depth : tag ≠ .table → t'.depth = t.depth

/-- What a start tag leaves is sound and balanced again, and only the tag of a table changes how
many tables are around. -/
theorem Opens.leaves {attributes : Markup.Attributes} {tag : Tag}
    (h : Opens n attributes t c tag t' c') (ht : t.Balanced) (hc : c.Sound n) :
    Leaves n tag t t' c' := by
  have hmarked {m : Marker} {c : Canvas} (h : c.Sound n) (hm : m.made = n) :
      (c.marked (.marker m)).Sound (n + 1) := h.marked hm rfl
  cases h with
  | list kind => exact ⟨ht.openList kind, hc.mono (Nat.le_succ n), fun _ => rfl⟩
  | looseItem => exact ⟨ht, hc.newline.mono (Nat.le_succ n), fun _ => rfl⟩
  | bullet => exact ⟨ht, hmarked hc.newline rfl, fun _ => rfl⟩
  | number hl hk =>
    refine ⟨?_, hmarked hc.newline rfl, fun _ => rfl⟩
    rw [Balanced, hk] at ht
    exact ht
  | link => exact ⟨ht, hmarked hc rfl, fun _ => rfl⟩
  | bare b => exact ⟨ht, hmarked hc rfl, fun _ => rfl⟩
  | root => exact ⟨ht, (hmarked hc rfl).append _, fun hne => absurd rfl hne⟩
  | inner => exact ⟨ht, hmarked hc rfl, fun hne => absurd rfl hne⟩

/-- Counting a table for its clicks changes one number of the state, whether it is to be counted or
not. -/
theorem countClick_eq (t : State) :
    t.countClick = { t with clicks := t.clicks + if t.setup.clickable then 1 else 0 } := by
  unfold countClick
  split <;> rfl

@[simp] theorem lists_countClick (t : State) : t.countClick.lists = t.lists := by
  rw [countClick_eq]

@[simp] theorem counters_countClick (t : State) : t.countClick.counters = t.counters := by
  rw [countClick_eq]

@[simp] theorem markers_countClick (t : State) : t.countClick.markers = t.markers := by
  rw [countClick_eq]

@[simp] theorem depth_countClick (t : State) : t.countClick.depth = t.depth := by
  rw [countClick_eq]

theorem html_countClick (t : State) : t.countClick.html = t.html := by
  rw [countClick_eq]

/-- What an end tag leaves is so too. Inside a table the depth was lowered before the element was
closed, so it is told for all other tags only. -/
theorem Shuts.leaves {tag : Tag} (h : Shuts n t c tag t' c') (ht : t.Balanced) (hc : c.Sound n) :
    Leaves n tag t t' c' := by
  have hcloses {u : State} {kind isParagraph styles} {c : Canvas} (hu : u.Balanced)
      (hs : c.Sound n) (htag : tag ≠ .table → u.depth = t.depth)
      (h : Closes n kind isParagraph styles u c t' c') : Leaves n tag t t' c' := by
    obtain ⟨hlists, hcounters, hdepth, -⟩ := h.frame
    refine ⟨?_, h.sound hs, fun hne => hdepth.trans (htag hne)⟩
    rw [Balanced, hcounters, hlists]
    exact hu
  cases h with
  | list kind => exact ⟨ht.closeList, hc.mono (Nat.le_succ n), fun _ => depth_closeList t⟩
  | strayItem => exact ⟨ht, hc.mono (Nat.le_succ n), fun _ => rfl⟩
  | strayTable => exact ⟨ht, hc.mono (Nat.le_succ n), fun _ => rfl⟩
  | item hl h => exact hcloses ht hc.newline (fun _ => rfl) h
  | link h => exact hcloses ht hc (fun _ => rfl) h
  | bare h => exact hcloses ht hc (fun _ => rfl) h
  | root hdepth ht₀ h =>
    -- counting the click leaves the lists alone
    refine hcloses ?_ hc (fun hne => absurd rfl hne) h
    rw [Balanced, counters_countClick, lists_countClick, ht₀]
    exact ht
  | inner hdepth h => exact hcloses (by exact ht) hc (fun hne => absurd rfl hne) h

/-- Recording a tag changes the markup of the table that is open, if one is, and nothing else. -/
theorem record_eq (text : Text) (t : State) :
    t.record text = { t with html := (t.record text).html } := by
  unfold record
  split <;> rfl

/-- Recording a tag adds to the markup, which takes no part in what a tag leaves. -/
theorem Leaves.record {tag : Tag} (h : Leaves n tag t t' c') (text : Text) :
    Leaves n tag t (t'.record text) c' := by
  rw [record_eq]
  exact ⟨h.balanced, h.sound, h.depth⟩

/-- **No start tag fails.** It opens its element and is recorded. -/
theorem exists_startTag_opens (tag : Tag) (attributes : Markup.Attributes) (ht : t.Balanced)
    (hc : c.Sound n) :
    ∃ t' c', t.startTag n tag attributes c = .ok (t'.record tag.startText, c') ∧
      Opens n attributes t c tag t' c' := by
  obtain ⟨t', c', hok, h⟩ := exists_openElement_opens tag attributes ht hc
  exact ⟨t', c', by rw [startTag, hok]; rfl, h⟩

/-- **No end tag fails.** It closes its element and is recorded. -/
theorem exists_endTag_shuts (tag : Tag) (ht : t.Balanced) (hc : c.Sound n) :
    ∃ t' c', t.endTag n tag c = .ok (t'.record tag.endText, c') ∧ Shuts n t c tag t' c' := by
  obtain ⟨t', c', hok, h⟩ := exists_closeElement_shuts tag ht hc
  exact ⟨t', c', by rw [endTag, hok]; rfl, h⟩

/-- A start tag that has succeeded has opened its element. The state before it was recorded is
named, as that is what `Opens` speaks about. -/
theorem opens_of_startTag {tag : Tag} {attributes : Markup.Attributes} (ht : t.Balanced)
    (hc : c.Sound n) (h : t.startTag n tag attributes c = .ok (t', c')) :
    ∃ t₁, Opens n attributes t c tag t₁ c' ∧ t' = t₁.record tag.startText := by
  obtain ⟨t₁, c₁, hok, hopens⟩ := exists_startTag_opens tag attributes ht hc
  cases hok.symm.trans h
  exact ⟨t₁, hopens, rfl⟩

/-- An end tag that has succeeded has closed its element, and the tag was recorded after that. -/
theorem shuts_of_endTag {tag : Tag} (ht : t.Balanced) (hc : c.Sound n)
    (h : t.endTag n tag c = .ok (t', c')) :
    ∃ t₁, Shuts n t c tag t₁ c' ∧ t' = t₁.record tag.endText := by
  obtain ⟨t₁, c₁, hok, hshuts⟩ := exists_endTag_shuts tag ht hc
  cases hok.symm.trans h
  exact ⟨t₁, hshuts, rfl⟩

/-- **Any start tag** succeeds on a sound canvas in a balanced state, and leaves such a canvas and
such a state. -/
theorem startTag_leaves (tag : Tag) (attributes : Markup.Attributes) (ht : t.Balanced)
    (hc : c.Sound n) :
    ∃ t' c', t.startTag n tag attributes c = .ok (t', c') ∧ Leaves n tag t t' c' := by
  obtain ⟨t', c', hok, h⟩ := exists_startTag_opens tag attributes ht hc
  exact ⟨_, c', hok, (h.leaves ht hc).record _⟩

/-- **Any end tag** does so too, and with it every run of tags. -/
theorem endTag_leaves (tag : Tag) (ht : t.Balanced) (hc : c.Sound n) :
    ∃ t' c', t.endTag n tag c = .ok (t', c') ∧ Leaves n tag t t' c' := by
  obtain ⟨t', c', hok, h⟩ := exists_endTag_shuts tag ht hc
  exact ⟨_, c', hok, (h.leaves ht hc).record _⟩

end State

end Intercept

end StyledText
