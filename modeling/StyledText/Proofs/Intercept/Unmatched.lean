import StyledText.Proofs.Intercept.Markers

/-!
# End tags without a start

An end tag takes up the newest marker of its kind, and where there is none it has nothing to close.
For most elements that is all. Two end tags do something nevertheless. That of an item ends the line
as soon as a list is open, before it looks for a marker; and that of a list does not look for a list
of its kind, but closes the innermost one, whatever kind that is.

* `Desk.list_end_closes_innermost` — the end of a list;
* `State.Unmatched` — whether an end tag finds no marker of its kind;
* `Desk.unmatched_end_only_ends_line` — what it does then. No table can be closed then, since every
  level of tables has its marker (`Desk.counted_of_run`).
-/

namespace StyledText

namespace Intercept

namespace State

variable {n : Nat} {kind : MarkerKind} {t : State} {c : Canvas} {tag : Tag}

/-! ## The end of a list -/

theorem lists_closeList (t : State) : t.closeList.lists = t.lists.tail := by
  unfold closeList
  split <;> simp [*]

theorem counters_closeList_unordered {outer : List ListKind} (h : t.lists = .unordered :: outer) :
    t.closeList.counters = t.counters := by
  simp [closeList, h]

theorem counters_closeList_ordered {outer : List ListKind} (h : t.lists = .ordered :: outer) :
    t.closeList.counters = t.counters.tail := by
  simp [closeList, h]

/-- Only where no list is open nothing is closed. -/
theorem closeList_unchanged_iff (t : State) :
    t.closeList.lists = t.lists ∧ t.closeList.counters = t.counters ↔ t.lists = [] := by
  rw [lists_closeList]
  constructor
  · rintro ⟨htail, -⟩
    cases hl : t.lists with
    | nil => rfl
    | cons kind outer =>
      rw [hl] at htail
      exact absurd htail.symm (List.cons_ne_self kind outer)
  · intro hl
    exact ⟨by rw [hl]; rfl, by simp [closeList, hl]⟩

/-! ## What an end tag looks for -/

/-- The kind of marker that an end tag takes up, if it takes one up. For an item that is told by the
innermost list. -/
def closing? (t : State) : Tag → Option MarkerKind
  | .item => t.lists.head?.map ListKind.marker
  | tag => tag.kind?

/-- Whether there is no marker of the kind that an end tag would take up. -/
def Unmatched (t : State) (tag : Tag) : Prop :=
  ∀ kind, t.closing? tag = some kind → ∀ m ∈ t.markers, m.kind ≠ kind

theorem newest?_eq_none_iff : t.newest? kind = none ↔ ∀ m ∈ t.markers, m.kind ≠ kind := by
  simp [newest?]

theorem Unmatched.newest?_eq_none (h : t.Unmatched tag) (hkind : t.closing? tag = some kind) :
    t.newest? kind = none :=
  newest?_eq_none_iff.mpr (h kind hkind)

/-- Where the counts are right no table is open without a marker. -/
theorem Counted.depth_eq_zero (ht : t.Counted) (h : t.Unmatched .table) : t.depth = 0 := by
  rw [← ht.tables, List.countP_eq_zero]
  intro m hm hkind
  exact h .table rfl m hm (of_decide_eq_true hkind)

/-- **Nothing to close.** An end tag without its marker ends the line, if it is that of an item in a
list, and does nothing else. -/
theorem closeElement_of_unmatched (ht : t.Counted) (hlist : ∀ kind, tag ≠ .list kind)
    (h : t.Unmatched tag) :
    t.closeElement n tag c =
      .ok (t, if tag = .item ∧ t.lists ≠ [] then c.newline else c) := by
  cases tag with
  | list kind => exact absurd rfl (hlist kind)
  | item =>
    cases hl : t.lists with
    | nil =>
      rw [if_neg (fun hin => hin.2 rfl)]
      exact closeItem_of_lists_eq_nil hl
    | cons kind outer =>
      have hnone : t.newest? kind.marker = none := h.newest?_eq_none (by rw [closing?, hl]; rfl)
      rw [if_pos ⟨rfl, List.cons_ne_nil _ _⟩]
      exact (closeItem_eq hl ht.balanced).trans (finish_of_newest?_eq_none hnone)
  | link => exact finish_of_newest?_eq_none (h.newest?_eq_none rfl)
  | bare b => exact finish_of_newest?_eq_none (h.newest?_eq_none rfl)
  | table =>
    simp only [closeElement, closeTable, ht.depth_eq_zero h]
    rfl

end State

namespace Desk

variable {ι : Type} [DecidableEq ι] {d : Desk ι} {steps : List (ι × Action)} {name : Text}

/-! ## Lists -/

/-- **The end of a list closes the innermost one.** Whatever has been done before on any canvases,
and whatever canvas the end tag of a list comes on: the canvas, the markers and the number of tables
stay as they are. The innermost list is closed, of whichever kind it is and whichever kind the tag
is of, and an ordered one takes its counter along. So the open lists and their counters stay as they
are if and only if no list is open at all. -/
theorem list_end_closes_innermost (setup : Setup) (indent : Option Nat)
    (hrun : (fresh setup indent : Desk ι).run 0 steps = .ok d) {kind : ListKind}
    (hname : Tag.ofName? name = some (.list kind)) (n : Nat) (c : Canvas) :
    ∃ t : State, d.tags.handle? n (.endElement name) c = some (.ok (t, c)) ∧
      t.markers = d.tags.markers ∧ t.depth = d.tags.depth ∧
      (∀ outer, d.tags.lists = .unordered :: outer →
        t.lists = outer ∧ t.counters = d.tags.counters) ∧
      (∀ outer, d.tags.lists = .ordered :: outer →
        t.lists = outer ∧ ∃ k, d.tags.counters = k :: t.counters) ∧
      (t.lists = d.tags.lists ∧ t.counters = d.tags.counters ↔ d.tags.lists = []) := by
  refine ⟨d.tags.closeList.record (Tag.list kind).endText, ?_, ?_, ?_, ?_, ?_, ?_⟩
  · rw [State.handle?_endElement, hname]
    rfl
  · rw [State.markers_record, State.markers_closeList]
  · rw [State.depth_record, State.depth_closeList]
  · intro outer hl
    rw [State.lists_record, State.counters_record, State.lists_closeList, hl]
    exact ⟨rfl, State.counters_closeList_unordered hl⟩
  · intro outer hl
    obtain ⟨k, counters, hk⟩ := (counted_of_run hrun).balanced.exists_counter hl
    rw [State.lists_record, State.counters_record, State.lists_closeList,
      State.counters_closeList_ordered hl, hl, hk]
    exact ⟨rfl, k, rfl⟩
  · rw [State.lists_record, State.counters_record]
    exact d.tags.closeList_unchanged_iff

/-- Two lists, one in an item of the other. -/
def twoLists : List (Unit × Action) :=
  [((), .offer (.startElement Markup.Renamed.unorderedList.reserved [])),
    ((), .offer (.startElement Markup.Renamed.listItem.reserved [])),
    ((), .offer (.startElement Markup.Renamed.orderedList.reserved []))]

theorem list_end_closes_innermost_twoLists :
    ∃ d : Desk Unit, (fresh {} none).run 0 twoLists = .ok d ∧
      d.tags.lists = [.ordered, .unordered] ∧ d.tags.counters = [1] ∧
      ∃ t : State, d.tags.handle? 3 (.endElement Markup.Renamed.unorderedList.reserved)
          (d.canvas ()) = some (.ok (t, d.canvas ())) ∧
        t.lists = [.unordered] ∧ t.counters = [] := by
  obtain ⟨d, hrun, hlists, hcounters⟩ : ∃ d : Desk Unit, (fresh {} none).run 0 twoLists = .ok d ∧
      d.tags.lists = [.ordered, .unordered] ∧ d.tags.counters = [1] :=
    ⟨_, rfl, by decide +kernel, by decide +kernel⟩
  obtain ⟨t, hok, -, -, -, hordered, -⟩ := list_end_closes_innermost {} none hrun
    (show Tag.ofName? Markup.Renamed.unorderedList.reserved = some (.list .unordered) by
      decide +kernel) 3 (d.canvas ())
  obtain ⟨hl, k, hk⟩ := hordered _ hlists
  rw [hcounters] at hk
  exact ⟨d, hrun, hlists, hcounters, t, hok, hl, (List.cons.inj hk).2.symm⟩

/-- **A list can be closed by the end tag of the other kind.** -/
theorem not_list_end_keeps_other_lists :
    ¬ ∀ (steps : List (Unit × Action)) (d : Desk Unit) (name : Text) (kind : ListKind),
      (fresh {} none).run 0 steps = .ok d → Tag.ofName? name = some (.list kind) →
      kind ∉ d.tags.lists → ∀ (n : Nat) (c c' : Canvas) (t : State),
      d.tags.handle? n (.endElement name) c = some (.ok (t, c')) →
        t.lists = d.tags.lists ∧ t.counters = d.tags.counters ∧ c' = c := by
  intro h
  have hkept := (h [((), .offer (.startElement Markup.Renamed.orderedList.reserved []))] _
    Markup.Renamed.unorderedList.reserved .unordered rfl (by decide +kernel) (by decide +kernel)
    1 Canvas.blank _ _ rfl).1
  exact absurd hkept (by decide +kernel)

/-! ## Elements -/

/-- **An end tag without its marker ends a line at most.** Whatever has been done before on any
canvases, and whatever canvas the end tag comes on, if it is not that of a list and there is no
marker of the kind that it would take up: the lists, their counters, the markers and the number of
tables stay as they are, and so does all that is attached to the canvas. The text stays as well,
unless the tag is that of an item in a list; that ends the last line. So the canvas stays as it is
if and only if no such tag comes behind a line that lacks its newline. -/
theorem unmatched_end_only_ends_line (setup : Setup) (indent : Option Nat)
    (hrun : (fresh setup indent : Desk ι).run 0 steps = .ok d) {tag : Tag}
    (hname : Tag.ofName? name = some tag) (hlist : ∀ kind, tag ≠ .list kind)
    (hnone : d.tags.Unmatched tag) (n : Nat) (c : Canvas) :
    ∃ (t : State) (c' : Canvas), d.tags.handle? n (.endElement name) c = some (.ok (t, c')) ∧
      t.lists = d.tags.lists ∧ t.counters = d.tags.counters ∧ t.depth = d.tags.depth ∧
      t.markers = d.tags.markers ∧ c'.spans = c.spans ∧
      c'.text = c.text ++ (if tag = .item ∧ d.tags.lists ≠ [] then c.lineEnd else []) ∧
      (c' = c ↔ ¬ (tag = .item ∧ d.tags.lists ≠ [] ∧ c.text ≠ [] ∧ c.endsWithNewline = false)) := by
  have hclose : d.tags.closeElement n tag c =
      .ok (d.tags, if tag = .item ∧ d.tags.lists ≠ [] then c.newline else c) :=
    State.closeElement_of_unmatched (counted_of_run hrun) hlist hnone
  refine ⟨d.tags.record tag.endText, if tag = .item ∧ d.tags.lists ≠ [] then c.newline else c, ?_,
    State.lists_record _ _, State.counters_record _ _, State.depth_record _ _,
    State.markers_record _ _, ?_, ?_, ?_⟩
  · rw [State.handle?_endElement, hname, Option.map_some, State.endTag, hclose]
    rfl
  · split
    · exact c.spans_newline
    · rfl
  · split
    · rw [c.newline_eq_append_lineEnd, Buffer.text_append]
    · exact (List.append_nil _).symm
  · split
    next hitem => simp [c.newline_eq_self_iff, hitem.1, hitem.2]
    next hitem => simpa using fun htag hl => absurd ⟨htag, hl⟩ hitem

/-- A list with text that is not in an item. -/
def textInList : List (Unit × Action) :=
  [((), .offer (.startElement Markup.Renamed.unorderedList.reserved [])), ((), .write ['a'])]

theorem unmatched_end_only_ends_line_textInList :
    ∃ d : Desk Unit, (fresh {} none).run 0 textInList = .ok d ∧
      d.tags.lists = [.unordered] ∧ (d.canvas ()).text = ['a'] ∧
      ∃ (t : State) (c' : Canvas), d.tags.handle? 2
          (.endElement Markup.Renamed.listItem.reserved) (d.canvas ()) = some (.ok (t, c')) ∧
        t.lists = [.unordered] ∧ c'.text = ['a', '\n'] := by
  obtain ⟨d, hrun, hlists, htext, hmarkers⟩ : ∃ d : Desk Unit,
      (fresh {} none).run 0 textInList = .ok d ∧ d.tags.lists = [.unordered] ∧
        (d.canvas ()).text = ['a'] ∧ d.tags.markers = [] :=
    ⟨_, rfl, by decide +kernel, by decide +kernel, by decide +kernel⟩
  obtain ⟨t, c', hok, hl, -, -, -, -, htext', -⟩ := unmatched_end_only_ends_line {} none hrun
    (show Tag.ofName? Markup.Renamed.listItem.reserved = some .item by decide +kernel) nofun
    (fun _ _ m hm => absurd (hmarkers ▸ hm) List.not_mem_nil) 2 (d.canvas ())
  refine ⟨d, hrun, hlists, htext, t, c', hok, hl.trans hlists, ?_⟩
  rw [htext', if_pos ⟨rfl, by simp [hlists]⟩, Canvas.lineEnd, Buffer.endsWithNewline, htext]
  rfl

/-- **An end tag without its marker can end a line.** -/
theorem not_unmatched_end_keeps_text :
    ¬ ∀ (steps : List (Unit × Action)) (d : Desk Unit) (name : Text) (tag : Tag),
      (fresh {} none).run 0 steps = .ok d → Tag.ofName? name = some tag →
      (∀ kind, tag ≠ .list kind) → d.tags.Unmatched tag → ∀ (t : State) (c' : Canvas),
      d.tags.handle? steps.length (.endElement name) (d.canvas ()) = some (.ok (t, c')) →
        c'.text = (d.canvas ()).text ∧ c'.spans = (d.canvas ()).spans ∧
          t.lists = d.tags.lists ∧ t.counters = d.tags.counters ∧ t.depth = d.tags.depth := by
  intro h
  have hkept := (h textInList _ Markup.Renamed.listItem.reserved .item rfl (by decide +kernel) nofun
    (fun _ _ _ hm => absurd hm List.not_mem_nil) _ _ rfl).1
  exact absurd hkept (by decide +kernel)

end Desk

end Intercept

end StyledText
