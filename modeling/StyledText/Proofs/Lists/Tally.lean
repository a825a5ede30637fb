import StyledText.Proofs.Lists.Numbering
import StyledText.Proofs.Intercept.Markers

/-!
# Counting items by their start tags

How many items of the innermost list have been opened can be told from the tags alone, without the
counters: a list that opens is put on top of the others with no items, the end tag of a list takes
the top off, whatever kind it is, and the start tag of an item counts for the top (`openLists`). The
counters agree with that after every run (`State.Tallied`), however badly the tags are nested.

A number is put down by the end tag of an item in an ordered list and by nothing else
(`Desk.number_of_perform`). It is read off the counter, so it is the number of items that have been
opened in that list; whether the marker belongs to one of these is not asked.
-/

namespace StyledText

open Markup (Event Attributes)

namespace Intercept

/-! ## Items by the tags -/

/-- More items of the innermost of some open lists. -/
def addItems (k : Nat) : List (ListKind × Nat) → List (ListKind × Nat)
  | [] => []
  | (kind, items) :: outer => (kind, items + k) :: outer

/-- What a start tag does to the open lists and the numbers of their items. -/
def Tag.tallyStart (tag : Tag) (lists : List (ListKind × Nat)) : List (ListKind × Nat) :=
  match tag with
  | list kind => (kind, 0) :: lists
  | item => addItems 1 lists
  | _ => lists

/-- What an end tag does to them: that of a list takes the top off, and no other does anything. -/
def Tag.tallyEnd (tag : Tag) (lists : List (ListKind × Nat)) : List (ListKind × Nat) :=
  match tag with
  | list _ => lists.tail
  | _ => lists

/-- What an action does to them. -/
def Action.tally (lists : List (ListKind × Nat)) : Action → List (ListKind × Nat)
  | offer (.startElement name _) => ((Tag.ofName? name).map (·.tallyStart lists)).getD lists
  | offer (.endElement name) => ((Tag.ofName? name).map (·.tallyEnd lists)).getD lists
  | _ => lists

/-- The lists that are open after some steps, the innermost one first, and how many items have been
opened in each. -/
def openLists {ι : Type} (steps : List (ι × Action)) : List (ListKind × Nat) :=
  steps.foldl (fun lists step => step.2.tally lists) []

/-- One more step acts on the lists that are open after the others. -/
theorem openLists_concat {ι : Type} (steps : List (ι × Action)) (i : ι) (a : Action) :
    openLists (steps ++ [(i, a)]) = a.tally (openLists steps) := by
  simp [openLists]

theorem addItems_zero (lists : List (ListKind × Nat)) : addItems 0 lists = lists := by
  cases lists <;> rfl

namespace State

variable {n k : Nat} {t t' : State} {c c' : Canvas} {tag : Tag} {attributes : Attributes}
  {tally : List (ListKind × Nat)}

/-! ## The counters -/

/-- The open lists and their counters are told by the items: the counter of an ordered list is at
the number that comes next. -/
structure Tallied (tally : List (ListKind × Nat)) (t : State) : Prop where
  lists : t.lists = tally.map (·.1)
  counters : t.counters = (tally.filter (·.1 = .ordered)).map (·.2 + 1)

/-- A list that opens has no items yet, and its counter is at one if it has one. -/
theorem Tallied.openList (h : t.Tallied tally) (kind : ListKind) :
    (t.openList kind).Tallied ((kind, 0) :: tally) := by
  refine ⟨congrArg (kind :: ·) h.lists, ?_⟩
  cases kind with
  | unordered => exact h.counters
  | ordered => exact congrArg (1 :: ·) h.counters

/-- A list that closes takes its items along, and its counter if it has one. -/
theorem Tallied.closeList (h : t.Tallied tally) : t.closeList.Tallied tally.tail := by
  obtain ⟨hlists, hcounters⟩ := h
  rcases tally with _ | ⟨⟨kind, items⟩, outer⟩
  · rw [State.closeList, show t.lists = [] from hlists]
    exact ⟨hlists, hcounters⟩
  cases kind with
  | unordered =>
    rw [State.closeList, show t.lists = .unordered :: outer.map (·.1) from hlists]
    exact ⟨rfl, hcounters⟩
  | ordered =>
    rw [State.closeList, show t.lists = .ordered :: outer.map (·.1) from hlists]
    exact ⟨rfl, congrArg List.tail hcounters⟩

/-- Items move the counter of the innermost list on, if that is an ordered one; of an unordered list
they are only counted here. -/
theorem Tallied.counts (h : t.Tallied tally) (hcounts : t.Counts k t') :
    t'.Tallied (addItems k tally) := by
  rcases tally with _ | ⟨⟨kind, items⟩, outer⟩
  · refine ⟨hcounts.lists.trans h.lists, ?_⟩
    rw [hcounts.counters, h.lists]
    exact h.counters
  · refine ⟨hcounts.lists.trans h.lists, ?_⟩
    rw [hcounts.counters, h.lists, h.counters]
    cases kind with
    | unordered => rfl
    | ordered => exact congrArg (· :: _) (Nat.add_right_comm items 1 k)

theorem Tallied.record (h : t.Tallied tally) (text : Text) : (t.record text).Tallied tally :=
  ⟨(lists_record text t).trans h.lists, (counters_record text t).trans h.counters⟩

/-- A start tag keeps the counters right: that of an item counts, that of a list opens one. -/
theorem Tallied.opens (h : t.Tallied tally) (hopens : Opens n attributes t c tag t' c') :
    t'.Tallied (tag.tallyStart tally) := by
  by_cases hlist : ∃ kind, tag = .list kind
  · obtain ⟨kind, rfl⟩ := hlist
    rw [hopens.eq_openList]
    exact h.openList kind
  · have hcounts := h.counts (hopens.counts fun kind htag => hlist ⟨kind, htag⟩)
    cases tag with
    | list kind => exact absurd ⟨kind, rfl⟩ hlist
    | item => exact hcounts
    | _ => rwa [if_neg nofun, addItems_zero] at hcounts

/-- So does an end tag: that of a list closes one, and no other touches lists or counters. -/
theorem Tallied.shuts (h : t.Tallied tally) (hshuts : Shuts n t c tag t' c') :
    t'.Tallied (tag.tallyEnd tally) := by
  by_cases hlist : ∃ kind, tag = .list kind
  · obtain ⟨kind, rfl⟩ := hlist
    rw [hshuts.eq_closeList]
    exact h.closeList
  · have hcounts := h.counts (hshuts.counts fun kind htag => hlist ⟨kind, htag⟩)
    rw [addItems_zero] at hcounts
    cases tag with
    | list kind => exact absurd ⟨kind, rfl⟩ hlist
    | _ => exact hcounts

/-- In an ordered list the counter is one ahead of the items. -/
theorem Tallied.items_of_ordered {rest : List ListKind} {next : Nat} {counters : List Nat}
    (h : t.Tallied tally) (hl : t.lists = .ordered :: rest) (hk : t.counters = next :: counters) :
    ∃ k outer, tally = (.ordered, k) :: outer ∧ next = k + 1 := by
  obtain ⟨hlists, hcounters⟩ := h
  rw [hl] at hlists
  rcases tally with _ | ⟨⟨kind, items⟩, outer⟩
  · cases hlists
  · obtain rfl : .ordered = kind := (List.cons.inj hlists).1
    rw [hk] at hcounters
    exact ⟨items, outer, rfl, (List.cons.inj hcounters).1⟩

/-- A start tag puts nothing down but its marker, so no number comes from it. -/
theorem Opens.mem_spans {s : Span Object} (h : Opens n attributes t c tag t' c') (hs : s ∈ c'.spans)
    (hstyle : s.what.marker? = none) : s ∈ c.spans := by
  have hmarked {m : Marker} {c : Canvas} (hs : s ∈ (c.marked (.marker m)).spans) : s ∈ c.spans := by
    rcases List.mem_append.mp hs with hs | hs
    · exact hs
    · obtain rfl := List.mem_singleton.mp hs
      cases hstyle
  cases h with
  | list kind => exact hs
  | looseItem => rwa [Canvas.spans_newline] at hs
  | bullet => exact c.spans_newline ▸ hmarked hs
  | number => exact c.spans_newline ▸ hmarked hs
  | root => exact hmarked (c := c) hs
  | _ => exact hmarked hs

end State

namespace Desk

variable {ι : Type} {n : Nat} {i j : ι} {a : Action} {d d' : Desk ι}
  {tally : List (ListKind × Nat)} {steps done : List (ι × Action)} {s : Span Object}
  {gap number : Int} {made : Nat}

/-! ## Along a run -/

/-- The number has been put down by the end of an item in an ordered list, with as many items opened
in that list before. -/
def NumberedAt (steps : List (ι × Action)) (i : ι) (made : Nat) (number : Int) : Prop :=
  ∃ name, steps[made]? = some (i, .offer (.endElement name)) ∧ Tag.ofName? name = some .item ∧
    ∃ k outer, openLists (steps.take made) = (.ordered, k) :: outer ∧ number = k

/-- Later steps make no difference to where a number has come from. -/
theorem NumberedAt.append (h : NumberedAt done i made number) (more : List (ι × Action)) :
    NumberedAt (done ++ more) i made number := by
  obtain ⟨name, hstep, htag, k, outer, hlists, hnumber⟩ := h
  have hlt : made < done.length := (List.getElem?_eq_some_iff.mp hstep).1
  refine ⟨name, by rw [List.getElem?_append_left hlt, hstep], htag, k, outer, ?_, hnumber⟩
  rw [List.take_append_of_le_length (Nat.le_of_lt hlt), hlists]

variable [DecidableEq ι]

/-- **A step keeps count.** What the counters say after it is what the tags have told, whatever
canvas the step is on. -/
theorem Performs.tallied (h : Performs n i d a d') (ht : d.tags.Tallied tally) :
    d'.tags.Tallied (a.tally tally) := by
  cases h with
  | @declined e hnone =>
    cases e with
    | startElement name attributes => rwa [Action.tally, hnone name rfl]
    | endElement name => rwa [Action.tally, hnone name rfl]
    | _ => exact ht
  | startTag htag hopens =>
    rw [Action.tally, htag]
    exact (ht.opens hopens).record _
  | endTag htag hshuts =>
    rw [Action.tally, htag]
    exact (ht.shuts hshuts).record _
  | write => exact ht
  | delete => exact ht

/-- A span of a canvas that has been put in the place of one, or of one of the others, which have
stayed as they were. -/
theorem mem_spans_put {c : Canvas} (hs : s ∈ ((d.put i c).canvas j).spans) :
    j = i ∧ s ∈ c.spans ∨ s ∈ (d.canvas j).spans := by
  change s ∈ (if j = i then c else d.canvas j).spans at hs
  split at hs
  next hj => exact .inl ⟨hj, hs⟩
  next => exact .inr hs

/-- **Where a number comes from.** It has been on the canvas before the step, or the step is the end
of an item in an ordered list and the number is the one before the counter. -/
theorem number_of_perform (hd : d.Sound n) (h : d.perform n i a = .ok d')
    (hs : s ∈ (d'.canvas j).spans) (hwhat : s.what = .style made (.number gap number)) :
    (∃ r ∈ (d.canvas j).spans, r.what = .style made (.number gap number)) ∨
      made = n ∧ j = i ∧ ∃ name, a = .offer (.endElement name) ∧ Tag.ofName? name = some .item ∧
        ∃ rest next counters, d.tags.lists = .ordered :: rest ∧ d.tags.counters = next :: counters ∧
          number = (next : Int) - 1 := by
  have hperforms := performs_of_perform hd h
  cases hperforms with
  | declined => exact .inl ⟨s, hs, hwhat⟩
  | @startTag _ _ _ _ c _ hopens =>
    rcases mem_spans_put (d := d) (c := c) hs with ⟨rfl, hnew⟩ | hold
    · exact .inl ⟨s, hopens.mem_spans hnew (by rw [hwhat]; rfl), hwhat⟩
    · exact .inl ⟨s, hold, hwhat⟩
  | @endTag name tag _ _ htag _ =>
    simp only [perform, State.handle?_endElement, htag, Option.map_some] at h
    obtain ⟨⟨t, c⟩, hend, heq⟩ := exists_of_map_eq_ok h
    obtain ⟨⟨t₁, c₁⟩, hclose, hrecord⟩ := exists_of_map_eq_ok hend
    cases hrecord
    rw [← heq] at hs
    rcases mem_spans_put (d := d) (c := c) hs with ⟨rfl, hnew⟩ | hold
    · -- a style of this step comes from closing the element, and an older one has been there
      by_cases hmade : made = n
      · subst hmade
        obtain ⟨rfl, hnumber⟩ :=
          State.closeElement_number hd.balanced (hd.canvas j) hclose hnew hwhat
        exact .inr ⟨rfl, rfl, name, rfl, htag, hnumber⟩
      · exact .inl ((State.closeElement_edits hd.balanced (hd.canvas j) hclose).exists_style hmade
          hnew hwhat)
    · exact .inl ⟨s, hold, hwhat⟩
  | write text =>
    rcases mem_spans_put hs with ⟨rfl, hnew⟩ | hold
    · exact .inl ⟨s, hnew, hwhat⟩
    · exact .inl ⟨s, hold, hwhat⟩
  | delete =>
    rcases mem_spans_put hs with ⟨rfl, hnew⟩ | hold
    · obtain ⟨r, hr, hcut⟩ := List.mem_filterMap.mp hnew
      exact .inl ⟨r, hr, (Span.what_of_cut? hcut).symm.trans hwhat⟩
    · exact .inl ⟨s, hold, hwhat⟩

/-- **The numbers of items.** Whatever is done on any canvases, well nested or not: the lists that
are open are told by the tags, and every number on a canvas has been put there by the end tag of an
item. It is the number of items that had been opened until then in the list that was the innermost
one, which was ordered. -/
theorem number_counts_items (setup : Setup) (indent : Option Nat)
    (hrun : (fresh setup indent : Desk ι).run 0 steps = .ok d) :
    d.tags.lists = (openLists steps).map (·.1) ∧
      ∀ (i : ι) (made : Nat) (gap number : Int), ∀ s ∈ (d.canvas i).spans,
        s.what = .style made (.number gap number) →
          ∃ name, steps[made]? = some (i, .offer (.endElement name)) ∧
            Tag.ofName? name = some .item ∧
            ∃ k outer, openLists (steps.take made) = (.ordered, k) :: outer ∧ number = k := by
  have hboth := run_induction_of_perform (P := fun done d => d.tags.Tallied (openLists done) ∧
      ∀ (i : ι) (made : Nat) (gap number : Int), ∀ s ∈ (d.canvas i).spans,
        s.what = .style made (.number gap number) → NumberedAt done i made number)
    (sound_fresh setup indent)
    ⟨⟨rfl, rfl⟩, fun _ _ _ _ _ hs => absurd hs List.not_mem_nil⟩ ?_ hrun
  · exact ⟨hboth.2.1.lists, hboth.2.2⟩
  · intro done i a d d' hd ⟨ht, hnumbers⟩ hperform
    refine ⟨?_, ?_⟩
    · rw [openLists_concat]
      exact (performs_of_perform hd hperform).tallied ht
    · intro j made gap number s hs hwhat
      rcases number_of_perform hd hperform hs hwhat with
        ⟨r, hr, hwhat'⟩ | ⟨rfl, rfl, name, rfl, htag, rest, next, counters, hl, hk, rfl⟩
      · exact (hnumbers j made gap number r hr hwhat').append _
      · obtain ⟨k, outer, hlists, rfl⟩ := ht.items_of_ordered hl hk
        refine ⟨name, by simp, htag, k, outer, ?_, by omega⟩
        rw [List.take_left, hlists]

/-- Two items of a list, the second of them closed; then a list without items, and the end tag of an
item in it, which takes up the marker of the first one. -/
def crossedItems : List (Unit × Action) :=
  [((), .offer (.startElement Markup.Renamed.orderedList.reserved [])),
    ((), .offer (.startElement Markup.Renamed.listItem.reserved [])), ((), .write "a".toList),
    ((), .offer (.startElement Markup.Renamed.listItem.reserved [])), ((), .write "b".toList),
    ((), .offer (.endElement Markup.Renamed.listItem.reserved)),
    ((), .offer (.startElement Markup.Renamed.orderedList.reserved [])),
    ((), .offer (.endElement Markup.Renamed.listItem.reserved))]

/-- The second item is numbered two; the end tag that follows stands in a list without items, takes
up the marker of the first item, and numbers it zero. -/
theorem number_counts_items_crossedItems :
    ∃ d : Desk Unit, (fresh {} none).run 0 crossedItems = .ok d ∧
      d.tags.lists = [.ordered, .ordered] ∧
      (∃ s ∈ (d.canvas ()).spans, s.what = .style 5 (.number 10 2)) ∧
      (∃ s ∈ (d.canvas ()).spans, s.what = .style 7 (.number 0 0)) ∧
      ∀ (made : Nat) (gap number : Int), ∀ s ∈ (d.canvas ()).spans,
        s.what = .style made (.number gap number) →
          ∃ k outer, openLists (crossedItems.take made) = (.ordered, k) :: outer ∧ number = k := by
  obtain ⟨d, hrun, hsecond, hfirst⟩ : ∃ d : Desk Unit, (fresh {} none).run 0 crossedItems = .ok d ∧
      (∃ s ∈ (d.canvas ()).spans, s.what = .style 5 (.number 10 2)) ∧
      ∃ s ∈ (d.canvas ()).spans, s.what = .style 7 (.number 0 0) :=
    ⟨_, rfl, by decide +kernel, by decide +kernel⟩
  obtain ⟨hlists, hnumbers⟩ := number_counts_items {} none hrun
  refine ⟨d, hrun, hlists.trans (by decide +kernel), hsecond, hfirst, ?_⟩
  intro made gap number s hs hwhat
  obtain ⟨-, -, -, hcount⟩ := hnumbers () made gap number s hs hwhat
  exact hcount

/-- **A number can be zero.** The marker may be that of an item around the innermost list, in which
no item has been opened. -/
theorem not_one_le_number :
    ¬ ∀ (steps : List (Unit × Action)) (d : Desk Unit), (fresh {} none).run 0 steps = .ok d →
      ∀ (made : Nat) (gap number : Int), ∀ s ∈ (d.canvas ()).spans,
        s.what = .style made (.number gap number) →
          1 ≤ number ∧ ∃ kind k outer,
            openLists (steps.take made) = (kind, k) :: outer ∧ number ≤ k := by
  intro h
  obtain ⟨d, hrun, s, hs, hwhat⟩ : ∃ d : Desk Unit, (fresh {} none).run 0 crossedItems = .ok d ∧
      ∃ s ∈ (d.canvas ()).spans, s.what = .style 7 (.number 0 0) :=
    ⟨_, rfl, by decide +kernel⟩
  exact absurd (h crossedItems d hrun 7 0 0 s hs hwhat).1 (by decide)

end Desk

end Intercept

end StyledText
