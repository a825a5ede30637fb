import StyledText.Proofs.Canvas.Growth
import StyledText.Proofs.Intercept.Sound

/-!
# Intercepted elements

What the tags of an intercepted element do together, where the content between them has left open
what was open (`State.SameOpen`) and has only made the canvas grow. The marker of the element is the
newest one then, so the end tag takes it off and no other.

* `State.endTag_resolves` — outside of tables the text of the element gets its styles;
* `State.startTag_inside`, `State.endTag_inside` — inside a table an element that keeps a marker
  leaves the canvas as it was;
* `State.startTag_root`, `State.endTag_root` — an outermost table;
* `State.endTag_grows` — in every place, what was open is open again and the canvas has grown.
-/

namespace StyledText

namespace Intercept

namespace Tag

/-- Whether the element keeps a marker wherever it stands. An item only keeps one in a list, and a
list never does. -/
def encloses : Tag → Bool
  | list _ => false
  | item => false
  | link => true
  | bare _ => true
  | table => true

/-- The kind of the marker of an element that keeps one wherever it stands. -/
def kind? : Tag → Option MarkerKind
  | list _ => none
  | item => none
  | link => some .link
  | bare b => some b.marker
  | table => some .table

/-- The target that the marker of an element keeps. -/
def target? (attributes : Markup.Attributes) : Tag → Option Text
  | link => attributes.get? "href".toList
  | _ => none

/-- The number of tables that the element is. -/
def levels : Tag → Nat
  | table => 1
  | _ => 0

/-- A tag is found by its own name, so two names of one tag differ in the case of their letters at
most. -/
theorem eventName_of_ofName? {name : Text} {tag : Tag} (h : ofName? name = some tag) :
    tag.eventName = name.lower := by
  have heq := List.find?_some h
  exact of_decide_eq_true heq

/-- The elements that keep a marker wherever they stand are those whose kind of marker is fixed. -/
theorem exists_kind_of_encloses {tag : Tag} (h : tag.encloses = true) :
    ∃ kind, tag.kind? = some kind := by
  cases tag with
  | list kind => cases h
  | item => cases h
  | link => exact ⟨_, rfl⟩
  | bare b => exact ⟨_, rfl⟩
  | table => exact ⟨_, rfl⟩

end Tag

namespace State

variable {n m : Nat} {isParagraph : Bool} {styles : List Style} {t t₁ t₂ u : State}
  {c c' c₁ c₂ : Canvas} {tag : Tag} {attributes : Markup.Attributes} {mk : Marker}
  {rest : List Marker}

/-! ## What is open -/

/-- The same setup and the same open elements, and as many counters. -/
structure SameOpen (t t' : State) : Prop where
  setup : t'.setup = t.setup
  indent : t'.indent = t.indent
  lists : t'.lists = t.lists
  counters : t'.counters.length = t.counters.length
  markers : t'.markers = t.markers
  depth : t'.depth = t.depth

theorem SameOpen.refl (t : State) : t.SameOpen t := ⟨rfl, rfl, rfl, rfl, rfl, rfl⟩

/-- What is left open by content, and again by the content behind it, is left open by both. -/
theorem SameOpen.trans {t t' t'' : State} (h : t.SameOpen t') (h' : t'.SameOpen t'') :
    t.SameOpen t'' :=
  ⟨h'.setup.trans h.setup, h'.indent.trans h.indent, h'.lists.trans h.lists,
    h'.counters.trans h.counters, h'.markers.trans h.markers, h'.depth.trans h.depth⟩

/-- The markup of a table takes no part in what is open, so recording a tag in it changes nothing of
that. -/
theorem sameOpen_record (text : Text) (t : State) : t.SameOpen (t.record text) := by
  rw [record_eq]
  exact ⟨rfl, rfl, rfl, rfl, rfl, rfl⟩

/-- Nor does counting the table for its clicks. -/
theorem sameOpen_countClick (t : State) : t.SameOpen t.countClick := by
  rw [countClick_eq]
  exact ⟨rfl, rfl, rfl, rfl, rfl, rfl⟩

/-- As many counters for the same lists are still one for each that is ordered. -/
theorem SameOpen.balanced {t t' : State} (h : t.SameOpen t') (hb : t.Balanced) : t'.Balanced := by
  rw [Balanced, h.counters, h.lists]
  exact hb

/-- The innermost list closes, and the others stay open. If it is ordered its counter goes with it,
wherever its items have moved that. -/
theorem SameOpen.closeList {kind : ListKind} {t t' : State} (h : (t.openList kind).SameOpen t') :
    t.SameOpen t'.closeList := by
  have hcounters := h.counters
  have hlists := h.lists
  cases kind with
  | unordered =>
    simp only [State.openList] at hlists hcounters
    simp only [State.closeList, hlists]
    exact ⟨h.setup, h.indent, rfl, hcounters, h.markers, h.depth⟩
  | ordered =>
    simp only [State.openList, List.length_cons] at hlists hcounters
    simp only [State.closeList, hlists]
    exact ⟨h.setup, h.indent, rfl, by simp [hcounters], h.markers, h.depth⟩

/-- Outside of tables no tag is recorded. -/
theorem record_of_depth_eq_zero (h : t.depth = 0) (text : Text) : t.record text = t :=
  if_neg (by simp [h])

/-- Inside a table every tag is. -/
theorem record_of_depth_pos (h : 0 < t.depth) (text : Text) : t.record text = t.write text :=
  if_pos h

/-- There the markup is as before, with the tag behind it. -/
theorem html_record (h : 0 < t.depth) (text : Text) : (t.record text).html = t.html ++ text := by
  rw [record_of_depth_pos h]
  rfl

/-! ## The marker of the element itself -/

/-- Where content has left open what was open, the newest marker of the kind is the one of the
element around it. -/
theorem newest?_eq_own (h : u.markers = mk :: rest) : u.newest? mk.kind = some mk := by
  simp [newest?, h]

/-- And taking it up leaves the markers that were there before the element. -/
theorem drop_own (h : u.markers = mk :: rest) :
    u.drop mk.kind = { u with markers := rest } := by
  simp [drop, h]

/-- **Closing inside a table**, where the marker is that of the element itself: the canvas is the
one that the marker was put on. All that has been attached since lies behind the mark, and goes with
the text. -/
theorem finish_inside (hc : c.Sound n) (ht : c.text <+: c'.text) (hs : c'.spans = c.spans)
    (hmk : mk.made = n) (h₂ : (c'.marked (.marker mk)).Grows c₂) (hc₂ : c₂.Sound m)
    (hm : u.markers = mk :: rest) (hdepth : 0 < u.depth) :
    u.finish m mk.kind isParagraph styles c₂ =
      .ok ({ u with markers := rest }.write (c₂.text.drop c'.length), c') := by
  have hp := (Canvas.Pending.of_marked (.marker mk) ht hs).grows h₂
  rw [finish_eq_write hc₂ hdepth (newest?_eq_own hm) (hp.start?_eq hc hmk), drop_own hm,
    hp.take_back hc hc₂ hmk]
  have htext : c₂.text.take c'.length = c'.text := (List.prefix_iff_eq_take.mp h₂.text).symm
  rw [htext, ← hs]

/-- **Closing outside of tables**, where the marker is that of the element itself: the text behind
it gets the styles, and the marks before it stay. -/
theorem finish_outside (hc : c.Sound n) (ht : c.text <+: c'.text) (hs : c'.spans = c.spans)
    (hmk : mk.made = n) (h₂ : (c'.marked (.marker mk)).Grows c₂) (hc₂ : c₂.Sound m)
    (hm : u.markers = mk :: rest) (hdepth : u.depth = 0) (hd : styles.Nodup) :
    ∃ c₃, c₃ = closed m isParagraph styles mk c'.length c₂ ∧
      u.finish m mk.kind isParagraph styles c₂ = .ok ({ u with markers := rest }, c₃) ∧
      c.Grows c₃ ∧
      Canvas.Resolves n m c₃.length styles c (c'.marked (.marker mk)) c₂ c₃ := by
  have hp := (Canvas.Pending.of_marked (.marker mk) ht hs).grows h₂
  obtain ⟨r, hr⟩ := closed_eq m isParagraph styles mk c'.length c₂
  refine ⟨_, rfl, ?_, ?_, ?_⟩
  · rw [finish_eq_closed hc₂ hd hdepth (newest?_eq_own hm) (hp.start?_eq hc hmk), drop_own hm]
  · rw [hr]
    exact ((hp.remove_grows hc hc₂ hmk rfl).trans (Canvas.grows_append _ r)).styled hp.le
  · refine Canvas.resolves_of_marked hc hmk rfl ht hs h₂ hc₂ ?_
    have hlen : (closed m isParagraph styles mk c'.length c₂).length = c₂.length + r.length := by
      rw [hr, ← Buffer.length_append]
      rfl
    rw [hlen, hr]
    rfl

/-! ## Items -/

/-- The styles of an item that is closed in this state. -/
def itemStyles (t : State) : List Style :=
  match t.lists with
  | [] => []
  | .unordered :: _ => bulletStyles t.unit t.lists.length
  | .ordered :: _ => numberStyles t.unit t.lists.length ((t.counters.headD 0 : Int) - 1)

/-- The styles of an item differ, in lists of either kind and outside of lists, where there are
none. -/
theorem nodup_itemStyles (t : State) : t.itemStyles.Nodup := by
  unfold itemStyles
  split
  next => exact List.nodup_nil
  next => exact nodup_bulletStyles _ _
  next => exact nodup_numberStyles _ _ _

/-- Outside of a list an item only begins a line. It puts no marker down, and so its end tag has
none to take up. -/
theorem openItem_of_lists_eq_nil (h : t.lists = []) : t.openItem n c = .ok (t, c.newline) := by
  simp [openItem, h]

/-- An item of a list puts its marker on a line of its own. That its counter may have moved on is
told by the number of counters alone. -/
theorem openItem_eq {kind : ListKind} {lists : List ListKind} (hl : t.lists = kind :: lists)
    (hb : t.Balanced) (hc : c.Sound n) :
    ∃ counters, counters.length = t.counters.length ∧
      t.openItem n c = .ok ({ t with
          markers := ⟨n, kind.marker, none⟩ :: t.markers
          counters := counters },
        c.newline.marked (.marker ⟨n, kind.marker, none⟩)) := by
  have hs := hc.newline
  cases kind with
  | unordered =>
    refine ⟨t.counters, rfl, ?_⟩
    simp only [openItem, hl, mark_eq_marked hs]
    rfl
  | ordered =>
    obtain ⟨k, counters, hk⟩ := hb.exists_counter hl
    refine ⟨(k + 1) :: counters, by rw [hk]; rfl, ?_⟩
    simp only [openItem, hl, mark_eq_marked hs, bind, Except.bind, count, hk]
    rfl

/-- An item of a list is closed on a line that has ended, with the kind of marker of the list that
is innermost then. -/
theorem closeItem_eq {kind : ListKind} {lists : List ListKind} (hl : u.lists = kind :: lists)
    (hb : u.Balanced) :
    u.closeItem m c = u.finish m kind.marker false u.itemStyles c.newline := by
  cases kind with
  | unordered => simp only [closeItem, itemStyles, hl, ListKind.marker]
  | ordered =>
    obtain ⟨k, counters, hk⟩ := hb.exists_counter hl
    simp only [closeItem, itemStyles, hl, hk, ListKind.marker, List.headD_cons]

/-! ## Elements inside a table -/

/-- Inside a table the start tag of an enclosing element puts its marker, and is recorded. -/
theorem startTag_inside {kind : MarkerKind} (hk : tag.kind? = some kind) (hc : c.Sound n)
    (hdepth : 0 < t.depth) :
    t.startTag n tag attributes c = .ok ({ t with
        markers := ⟨n, kind, tag.target? attributes⟩ :: t.markers
        depth := t.depth + tag.levels }.write tag.startText,
      c.marked (.marker ⟨n, kind, tag.target? attributes⟩)) := by
  have hopen : t.openElement n tag attributes c = .ok ({ t with
        markers := ⟨n, kind, tag.target? attributes⟩ :: t.markers
        depth := t.depth + tag.levels },
      c.marked (.marker ⟨n, kind, tag.target? attributes⟩)) := by
    cases tag with
    | list kind => cases hk
    | item => cases hk
    | link =>
      cases hk
      exact mark_eq_marked hc
    | bare b =>
      cases hk
      exact mark_eq_marked hc
    | table =>
      cases hk
      simp only [openElement, openTable, mark_eq_marked hc, bind, Except.bind,
        if_neg (Nat.ne_of_gt hdepth)]
      rfl
  -- the tag is recorded, since a table is open behind it as well
  rw [startTag, hopen]
  exact congrArg (fun t => Except.ok (t, _))
    (record_of_depth_pos (Nat.lt_of_lt_of_le hdepth (Nat.le_add_right _ _)) _)

/-- Inside a table the end tag of an enclosing element moves the text of the element to the markup
and leaves the canvas that the element began on. A table lowers the depth first, and stays inside
the outermost one. -/
theorem endTag_inside {kind : MarkerKind} {target : Option Text} {d : Nat}
    (hk : tag.kind? = some kind) (hc : c.Sound n)
    (h₂ : (c.marked (.marker ⟨n, kind, target⟩)).Grows c₂) (hc₂ : c₂.Sound m)
    (hm : u.markers = ⟨n, kind, target⟩ :: rest) (hd : 0 < d) (hdepth : u.depth = d + tag.levels) :
    u.endTag m tag c₂ = .ok (({ u with markers := rest, depth := d }.write
        (c₂.text.drop c.length)).write tag.endText, c) := by
  have hfinish {u : State} {isParagraph styles} (hm : u.markers = ⟨n, kind, target⟩ :: rest)
      (hdepth : u.depth = d) : u.finish m kind isParagraph styles c₂ =
        .ok ({ u with markers := rest, depth := d }.write (c₂.text.drop c.length), c) := by
    subst hdepth
    exact finish_inside hc (List.prefix_refl _) rfl rfl h₂ hc₂ hm hd
  have hclose : u.closeElement m tag c₂ =
      .ok ({ u with markers := rest, depth := d }.write (c₂.text.drop c.length), c) := by
    cases tag with
    | list kind => cases hk
    | item => cases hk
    | link =>
      cases hk
      exact hfinish hm hdepth
    | bare b =>
      cases hk
      exact hfinish hm hdepth
    | table =>
      cases hk
      -- a table ends at depth two or more here, which is not the branch of the outermost one
      obtain ⟨d, rfl⟩ : ∃ k, d = k + 1 := ⟨d - 1, by omega⟩
      have hdepth : u.depth = d + 2 := hdepth
      simp only [closeElement, closeTable, hdepth]
      exact hfinish hm rfl
  rw [endTag, hclose]
  exact congrArg (fun t => Except.ok (t, c)) (record_of_depth_pos hd _)

/-! ## An outermost table -/

/-- The state behind the start tag of an outermost table. -/
def beginTable (n : Nat) (t : State) : State :=
  { t with
    markers := ⟨n, .table, none⟩ :: t.markers
    html := Tag.table.startText
    depth := 1 }

/-- The canvas there. The marker of the table comes before the placeholder. -/
def placeTable (n : Nat) (c : Canvas) : Canvas :=
  Buffer.append (c.marked (.marker ⟨n, .table, none⟩)) placeholder

/-- Once the marker of the table is taken off, the placeholder is all that its start has added. -/
theorem remove_placeTable (hc : c.Sound n) :
    Buffer.remove (placeTable n c) (.marker ⟨n, .table, none⟩) = Buffer.append c placeholder :=
  congrArg (Buffer.append · placeholder) (hc.remove_marked rfl)

/-- Text in the table begins behind the placeholder. -/
theorem length_placeTable (n : Nat) (c : Canvas) :
    (placeTable n c).length = c.length + placeholder.length :=
  Buffer.length_append _ _

/-- **The start tag of an outermost table** always succeeds: it empties the markup of the table
before, records itself and puts the placeholder down. -/
theorem startTag_root (hc : c.Sound n) (hdepth : t.depth = 0) :
    t.startTag n .table attributes c = .ok (t.beginTable n, placeTable n c) := by
  simp only [startTag, openElement, openTable, mark_eq_marked hc, bind, Except.bind, if_pos hdepth]
  rfl

/-- The state in which the styles of an outermost table are made. -/
def complete (t : State) : State := { t with depth := 0 }.write Tag.table.endText

/-- **The end tag of an outermost table** styles all the text from the placeholder on, with the
markup as it is complete, and counts the table. -/
theorem endTag_root (hc : c.Sound n) (h₂ : (c.marked (.marker ⟨n, .table, none⟩)).Grows c₂)
    (hc₂ : c₂.Sound m) (hm : u.markers = ⟨n, .table, none⟩ :: rest) (hdepth : u.depth = 1) :
    ∃ c₃, c₃ = closed m false u.complete.tableStyles ⟨n, .table, none⟩ c.length c₂ ∧
      u.endTag m .table c₂ = .ok ({ u.complete.countClick with markers := rest }, c₃) ∧
      c.Grows c₃ := by
  have hcount : u.complete.countClick.markers = ⟨n, .table, none⟩ :: rest ∧
      u.complete.countClick.depth = 0 :=
    ⟨(markers_countClick _).trans hm, depth_countClick _⟩
  obtain ⟨c₃, hc₃, hok, hgrows, -⟩ := finish_outside hc (List.prefix_refl _) rfl rfl h₂ hc₂
    hcount.1 hcount.2 (nodup_tableStyles u.complete)
  refine ⟨c₃, hc₃, ?_, hgrows⟩
  have hclose : u.closeTable m c₂ =
      u.complete.countClick.finish m .table false u.complete.tableStyles c₂ := by
    simp only [closeTable, hdepth]
    rfl
  rw [endTag, closeElement, hclose, hok]
  exact congrArg (fun t => Except.ok (t, c₃)) (record_of_depth_eq_zero (by exact hcount.2) _)

/-! ## Elements in any place -/

/-- A start tag opens its element and is recorded. What is open behind it is what its element has
opened. -/
theorem exists_openElement (h : t.startTag n tag attributes c = .ok (t₁, c₁)) :
    ∃ t', t.openElement n tag attributes c = .ok (t', c₁) ∧ t'.SameOpen t₁ := by
  obtain ⟨⟨t', c'⟩, hopen, heq⟩ := exists_of_map_eq_ok h
  cases heq
  exact ⟨t', hopen, sameOpen_record _ t'⟩

end State

/-- The styles of an element with these attributes that is closed in this state. -/
def Tag.styles (tag : Tag) (attributes : Markup.Attributes) (t : State) : List Style :=
  match tag with
  | .list _ => []
  | .item => t.itemStyles
  | .link => [.link ⟨attributes.get? "href".toList, t.setup.listener⟩]
  | .bare b => b.styles
  | .table => t.complete.tableStyles

namespace State

variable {n m : Nat} {t t₁ t₂ : State} {c c₁ c₂ : Canvas} {tag : Tag}
  {attributes : Markup.Attributes}

/-- An element that has put its marker outside of tables. Its end tag finds the marker as the
newest, so the range begins where the element began. -/
theorem finish_resolves {kind : MarkerKind} {href : Option Text} {isParagraph : Bool}
    {styles : List Style} (hc : c.Sound n) (hdepth : t.depth = 0) (hd : styles.Nodup)
    (h₁ : t.mark n kind href c = .ok (t₁, c₁)) (hs : t₁.SameOpen t₂) (h₂ : c₁.Grows c₂)
    (hc₂ : c₂.Sound m) :
    ∃ t₃ c₃, t₂.finish m kind isParagraph styles c₂ = .ok (t₃, c₃) ∧ t.SameOpen t₃ ∧
      c.Grows c₃ ∧ Canvas.Resolves n m c₃.length styles c c₁ c₂ c₃ := by
  rw [mark_eq_marked hc] at h₁
  cases h₁
  obtain ⟨c₃, -, hok, hgrows, hres⟩ := finish_outside hc (List.prefix_refl _) rfl rfl h₂ hc₂
    hs.markers (hs.depth.trans hdepth) hd
  exact ⟨_, c₃, hok, ⟨hs.setup, hs.indent, hs.lists, hs.counters, rfl, hs.depth⟩, hgrows, hres⟩

/-- An item outside of tables. The list around its end is the one around its start, so its marker is
looked for under the kind that it was put down with. -/
theorem closeItem_resolves (hb : t.Balanced) (hc : c.Sound n) (hdepth : t.depth = 0)
    (h₁ : t.openItem n c = .ok (t₁, c₁)) (hs : t₁.SameOpen t₂) (h₂ : c₁.Grows c₂)
    (hc₂ : c₂.Sound m) :
    ∃ t₃ c₃, t₂.closeItem m c₂ = .ok (t₃, c₃) ∧ t.SameOpen t₃ ∧ c.Grows c₃ ∧
      Canvas.Resolves n m c₃.length t₂.itemStyles c c₁ c₂ c₃ := by
  rcases hl : t.lists with _ | ⟨kind, lists⟩
  · cases (openItem_of_lists_eq_nil hl).symm.trans h₁
    have hl₂ : t₂.lists = [] := hs.lists.trans hl
    have hgrows := Canvas.grows_newline c
    refine ⟨t₂, c₂, closeItem_of_lists_eq_nil hl₂, hs, hgrows.trans h₂, ?_⟩
    simp only [itemStyles, hl₂]
    exact Canvas.resolves_of_no_mark n m _ hgrows h₂ rfl
  · obtain ⟨counters, hcounters, hopen⟩ := openItem_eq hl hb hc
    cases hopen.symm.trans h₁
    have hb₂ : t₂.Balanced := hs.balanced (hcounters.trans hb)
    obtain ⟨c₃, -, hok, hgrows, hres⟩ := finish_outside hc (Canvas.grows_newline c).text
      (Canvas.spans_newline c) rfl (h₂.trans (Canvas.grows_newline c₂)) hc₂.newline
      hs.markers (hs.depth.trans hdepth) (nodup_itemStyles t₂)
    exact ⟨_, c₃, (closeItem_eq (hs.lists.trans hl) hb₂).trans hok,
      ⟨hs.setup, hs.indent, hs.lists, hs.counters.trans hcounters, rfl, hs.depth⟩, hgrows,
      hres.of_newline⟩

/-- Every element but a table resolves what it has put down; a list, which puts nothing down, has no
style either. -/
theorem closeElement_resolves (htag : tag ≠ .table) (hb : t.Balanced) (hc : c.Sound n)
    (hdepth : t.depth = 0) (h₁ : t.openElement n tag attributes c = .ok (t₁, c₁))
    (hs : t₁.SameOpen t₂) (h₂ : c₁.Grows c₂) (hc₂ : c₂.Sound m) :
    ∃ t₃ c₃, t₂.closeElement m tag c₂ = .ok (t₃, c₃) ∧ t.SameOpen t₃ ∧ c.Grows c₃ ∧
      Canvas.Resolves n m c₃.length (tag.styles attributes t₂) c c₁ c₂ c₃ := by
  cases tag with
  | list kind =>
    cases h₁
    exact ⟨_, _, rfl, hs.closeList, h₂, Canvas.resolves_of_no_mark n m _ (.refl c) h₂ rfl⟩
  | item => exact closeItem_resolves hb hc hdepth h₁ hs h₂ hc₂
  | link =>
    -- the target comes from the marker, which is the one of the start tag
    have hnewest : (t₂.newest? .link).bind (·.href) = attributes.get? "href".toList := by
      have h₁' := h₁
      rw [openElement, mark_eq_marked hc] at h₁'
      cases h₁'
      have hown := newest?_eq_own hs.markers
      simp only at hown
      rw [hown]
      rfl
    simp only [closeElement, hnewest]
    exact finish_resolves hc hdepth (by simp) h₁ hs h₂ hc₂
  | bare b => exact finish_resolves hc hdepth b.nodup_styles h₁ hs h₂ hc₂
  | table => exact absurd rfl htag

/-- **An element outside of tables.** Its end tag resolves the marker of its start tag. Neither tag
is recorded, as there is no table around. -/
theorem endTag_resolves (htag : tag ≠ .table) (hb : t.Balanced) (hc : c.Sound n)
    (hdepth : t.depth = 0) (h₁ : t.startTag n tag attributes c = .ok (t₁, c₁))
    (hs : t₁.SameOpen t₂) (h₂ : c₁.Grows c₂) (hc₂ : c₂.Sound m) :
    ∃ t₃ c₃, t₂.endTag m tag c₂ = .ok (t₃, c₃) ∧ t.SameOpen t₃ ∧ c.Grows c₃ ∧
      Canvas.Resolves n m c₃.length (tag.styles attributes t₂) c c₁ c₂ c₃ := by
  obtain ⟨t', hopen, hsame⟩ := exists_openElement h₁
  obtain ⟨t₃, c₃, hok, hs₃, hgrows, hres⟩ :=
    closeElement_resolves htag hb hc hdepth hopen (hsame.trans hs) h₂ hc₂
  exact ⟨_, c₃, by rw [endTag, hok]; rfl, hs₃.trans (sameOpen_record _ t₃), hgrows, hres⟩

/-- Outside of tables closing an element only adds to the text, so what has been written is never
lost there. -/
theorem Shuts.prefix_text {t' : State} {c' : Canvas} (h : Shuts n t c tag t' c')
    (hdepth : t.depth = 0) : c.text <+: c'.text := by
  have hcloses {kind isParagraph styles} {c : Canvas}
      (h : Closes n kind isParagraph styles t c t' c') : c.text <+: c'.text := by
    cases h with
    | inside hm ha hpos => omega
    | @outside m a =>
      obtain ⟨r, hr⟩ := closed_eq n isParagraph styles m a c
      rw [hr]
      exact List.prefix_append _ _
    | _ => exact List.prefix_refl _
  cases h with
  | item hl h => exact (Canvas.grows_newline c).text.trans (hcloses h)
  | link h => exact hcloses h
  | bare h => exact hcloses h
  | root hone => omega
  | inner htwo => omega
  | _ => exact List.prefix_refl _

/-- Inside a table the text of an item goes to the markup, up to the newline before it. That newline
is left behind, as the mark stands behind it. -/
theorem closeItem_inside {kind : ListKind} {lists : List ListKind} (hl : t.lists = kind :: lists)
    (hb : t.Balanced) (hc : c.Sound n) (hdepth : 0 < t.depth)
    (h₁ : t.openItem n c = .ok (t₁, c₁)) (hs : t₁.SameOpen t₂) (h₂ : c₁.Grows c₂)
    (hc₂ : c₂.Sound m) :
    ∃ t₃, t₂.closeItem m c₂ = .ok (t₃, c.newline) ∧ t.SameOpen t₃ := by
  obtain ⟨counters, hcounters, hopen⟩ := openItem_eq hl hb hc
  cases hopen.symm.trans h₁
  have hb₂ : t₂.Balanced := hs.balanced (hcounters.trans hb)
  refine ⟨_, (closeItem_eq (hs.lists.trans hl) hb₂).trans (finish_inside hc
    (Canvas.grows_newline c).text (Canvas.spans_newline c) rfl
    (h₂.trans (Canvas.grows_newline c₂)) hc₂.newline hs.markers
    (Nat.lt_of_lt_of_le hdepth (Nat.le_of_eq hs.depth.symm))),
    ⟨hs.setup, hs.indent, hs.lists, hs.counters.trans hcounters, rfl, hs.depth⟩⟩

/-- **An element in any place.** What was open is open again, and the canvas has grown. With this
the tags of any well nested content can be followed from outside. -/
theorem endTag_grows (hb : t.Balanced) (hc : c.Sound n)
    (h₁ : t.startTag n tag attributes c = .ok (t₁, c₁)) (hs : t₁.SameOpen t₂)
    (h₂ : c₁.Grows c₂) (hc₂ : c₂.Sound m) :
    ∃ t₃ c₃, t₂.endTag m tag c₂ = .ok (t₃, c₃) ∧ t.SameOpen t₃ ∧ c.Grows c₃ := by
  -- outside of tables the mark is taken off and the text stays
  rcases Nat.eq_zero_or_pos t.depth with hdepth | hdepth
  · by_cases htag : tag = .table
    · subst htag
      cases (startTag_root hc hdepth).symm.trans h₁
      obtain ⟨c₃, -, hok, hgrows⟩ := endTag_root hc ((Canvas.grows_append _ _).trans h₂) hc₂
        hs.markers hs.depth
      refine ⟨_, c₃, hok, ?_, hgrows⟩
      -- the outermost table leaves another number of tables that react to clicks, and no more
      have hcount := sameOpen_countClick t₂.complete
      exact ⟨hcount.setup.trans hs.setup, hcount.indent.trans hs.indent,
        hcount.lists.trans hs.lists, hcount.counters.trans hs.counters, rfl,
        hcount.depth.trans hdepth.symm⟩
    · obtain ⟨t₃, c₃, hok, hs₃, hgrows, -⟩ := endTag_resolves htag hb hc hdepth h₁ hs h₂ hc₂
      exact ⟨t₃, c₃, hok, hs₃, hgrows⟩
  -- inside of tables an element with a marker of its own takes back all that was added
  rcases hk : tag.kind? with _ | kind
  · obtain ⟨t', hopen, hsame⟩ := exists_openElement h₁
    have hs' := hsame.trans hs
    have hclose : ∃ t₃ c₃, t₂.closeElement m tag c₂ = .ok (t₃, c₃) ∧ t.SameOpen t₃ ∧
        c.Grows c₃ := by
      cases tag with
      | list kind =>
        cases hopen
        exact ⟨_, _, rfl, hs'.closeList, h₂⟩
      | item =>
        rcases hl : t.lists with _ | ⟨kind, lists⟩
        · cases (openItem_of_lists_eq_nil hl).symm.trans hopen
          exact ⟨_, _, closeItem_of_lists_eq_nil (hs'.lists.trans hl), hs',
            (Canvas.grows_newline c).trans h₂⟩
        · obtain ⟨t₃, hok, hs₃⟩ := closeItem_inside hl hb hc hdepth hopen hs' h₂ hc₂
          exact ⟨t₃, _, hok, hs₃, Canvas.grows_newline c⟩
      | link => cases hk
      | bare b => cases hk
      | table => cases hk
    obtain ⟨t₃, c₃, hok, hs₃, hgrows⟩ := hclose
    exact ⟨_, c₃, by rw [endTag, hok]; rfl, hs₃.trans (sameOpen_record _ t₃), hgrows⟩
  · cases (startTag_inside hk hc hdepth).symm.trans h₁
    have hok := endTag_inside hk hc h₂ hc₂ hs.markers hdepth hs.depth
    exact ⟨_, c, hok, ⟨hs.setup, hs.indent, hs.lists, hs.counters, rfl, rfl⟩, .refl c⟩

end State

end Intercept

end StyledText
