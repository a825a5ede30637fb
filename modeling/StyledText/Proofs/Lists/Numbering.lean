import StyledText.Proofs.Formatted

/-!
# The numbers of items

An item does not keep its number. Where it opens, the counter of the innermost ordered list moves
on; where it closes, the number is read off that counter, so it is right only if what has come in
between has left the counter as it was. Well nested content does so unless it has items of the same
list: a list that opens puts a counter of its own on top of the others and takes it off again, and
no other element touches them.

* `Markup.Content.items` — the items of the list around some content, in the order of their start
  tags;
* `Intercept.State.Counts`, `Draft.run_counts` — content counts these items, and leaves the counters
  of all other lists;
* `Draft.meetsItemEnd` — the counter at the end tag of an item;
* `Draft.items_numbered_in_order` — the numbers of the items of an ordered list.
-/

namespace StyledText

open Markup (Event Attributes Content)

/-! ## The items of a list -/

/-- An item of a list: the numbers of the events that open and close it, and its content. -/
structure Markup.Item where
  start : Nat
  stop : Nat
  content : Content

open Markup (Item)

namespace Markup.Content

/-- The items that an element adds to the list around it, where event `n` opens the element and its
content has these items: a list keeps those of its content for itself, and an item is one more. -/
def ownItems (n : Nat) (name : Text) (inner : Content) (items : List Item) : List Item :=
  match Intercept.Tag.ofName? name with
  | some (.list _) => []
  | some .item => ⟨n, n + 1 + inner.events.length, inner⟩ :: items
  | _ => items

/-- An item counts for the list around it before those of its content, which are items of the same
list where no other list stands in between. -/
theorem ownItems_of_item {n : Nat} {name : Text} {inner : Content} {items : List Item}
    (h : Intercept.Tag.ofName? name = some .item) :
    ownItems n name inner items = ⟨n, n + 1 + inner.events.length, inner⟩ :: items := by
  rw [ownItems, h]

/-- An element that is neither an item nor a list hands the items of its content on. -/
theorem ownItems_of_ne {n : Nat} {name : Text} {inner : Content} {items : List Item}
    (hlist : ∀ kind, Intercept.Tag.ofName? name ≠ some (.list kind))
    (hitem : Intercept.Tag.ofName? name ≠ some .item) : ownItems n name inner items = items := by
  unfold ownItems
  split
  next kind htag => exact absurd htag (hlist kind)
  next htag => exact absurd htag hitem
  next => rfl

/-- The items of the list around the content, whose first event has number `n`, in the order of
their start tags. -/
def items (n : Nat) : Content → List Item
  | empty => []
  | data _ _ rest => rest.items (n + 1)
  | element name _ inner rest =>
    ownItems n name inner (inner.items (n + 1)) ++ rest.items (n + 1 + inner.events.length + 1)

end Markup.Content

/-! ## Counters -/

namespace Intercept

/-- The counters after `k` more items of the innermost list. -/
def advance (lists : List ListKind) (k : Nat) (counters : List Nat) : List Nat :=
  match lists, counters with
  | .ordered :: _, next :: counters => (next + k) :: counters
  | _, counters => counters

/-- Without an item the counters stay. -/
theorem advance_zero (lists : List ListKind) (counters : List Nat) :
    advance lists 0 counters = counters := by
  unfold advance
  split <;> rfl

/-- Items that follow each other are counted together. -/
theorem advance_advance (lists : List ListKind) (j k : Nat) (counters : List Nat) :
    advance lists k (advance lists j counters) = advance lists (j + k) counters := by
  rcases lists with _ | ⟨_ | _, lists⟩
  · rfl
  · rfl
  · cases counters with
    | nil => rfl
    | cons next counters => exact congrArg (· :: counters) (Nat.add_assoc next j k)

namespace State

variable {n j k : Nat} {t t' t'' : State} {c c' : Canvas} {tag : Tag}
  {attributes : Markup.Attributes}

/-- The lists of `t` are open in `t'`, and `k` more items of the innermost one have been opened. -/
structure Counts (k : Nat) (t t' : State) : Prop where
  lists : t'.lists = t.lists
  counters : t'.counters = advance t.lists k t.counters

/-- What leaves lists and counters alone counts nothing. -/
theorem Counts.of_eq (hlists : t'.lists = t.lists) (hcounters : t'.counters = t.counters) :
    t.Counts 0 t' :=
  ⟨hlists, hcounters.trans (advance_zero _ _).symm⟩

theorem Counts.refl (t : State) : t.Counts 0 t := .of_eq rfl rfl

/-- Content behind other content: the items of both count. -/
theorem Counts.trans (h : t.Counts j t') (h' : t'.Counts k t'') : t.Counts (j + k) t'' := by
  refine ⟨h'.lists.trans h.lists, ?_⟩
  rw [h'.counters, h.lists, h.counters, advance_advance]

/-- Recording a tag counts nothing, so the tags of a table that is written down are of no account
for the numbers in it. -/
theorem counts_record (text : Text) (t : State) : t.Counts 0 (t.record text) := by
  rw [record_eq]
  exact .of_eq rfl rfl

/-- In an ordered list the counter moves on by the items; the counters below it, of the lists
around, stay as they were. -/
theorem Counts.ordered {next : Nat} {lists : List ListKind} {counters : List Nat}
    (h : t.Counts k t') (hl : t.lists = .ordered :: lists) (hk : t.counters = next :: counters) :
    t'.lists = .ordered :: lists ∧ t'.counters = (next + k) :: counters := by
  refine ⟨h.lists.trans hl, ?_⟩
  rw [h.counters, hl, hk]
  rfl

/-- A list is over: its counter goes, and those of the lists around are as they were, however many
items it has had. -/
theorem Counts.closeList {kind : ListKind} (h : (t.openList kind).Counts k t') :
    t.Counts 0 t'.closeList := by
  have hlists := h.lists
  have hcounters := h.counters
  cases kind with
  | unordered =>
    simp only [State.openList] at hlists
    simp only [State.closeList, hlists]
    exact .of_eq rfl hcounters
  | ordered =>
    simp only [State.openList] at hlists hcounters
    simp only [State.closeList, hlists]
    exact .of_eq rfl (by rw [hcounters]; rfl)

/-- The start tag of a list can go in one way only. -/
theorem Opens.eq_openList {kind : ListKind} (h : Opens n attributes t c (.list kind) t' c') :
    t' = t.openList kind := by
  cases h
  rfl

/-- And so can its end tag. -/
theorem Shuts.eq_closeList {kind : ListKind} (h : Shuts n t c (.list kind) t' c') :
    t' = t.closeList := by
  cases h
  rfl

/-- A start tag counts an item, and leaves the counters alone if it is neither that of an item nor
that of a list. -/
theorem Opens.counts (h : Opens n attributes t c tag t' c') (hne : ∀ kind, tag ≠ .list kind) :
    t.Counts (if tag = .item then 1 else 0) t' := by
  cases h with
  | list kind => exact absurd rfl (hne kind)
  | looseItem hl => exact ⟨rfl, by rw [hl]; rfl⟩
  | bullet hl => exact ⟨rfl, by rw [hl]; rfl⟩
  | number hl hk => exact ⟨rfl, by rw [hl, hk]; rfl⟩
  | _ => exact .of_eq rfl rfl

/-- An end tag counts nothing: the number of an item is settled by its start tag and those behind
it. -/
theorem Shuts.counts (h : Shuts n t c tag t' c') (hne : ∀ kind, tag ≠ .list kind) :
    t.Counts 0 t' := by
  have hcloses {u : State} {kind isParagraph styles} {c : Canvas}
      (h : Closes n kind isParagraph styles u c t' c')
      (hu : u.lists = t.lists ∧ u.counters = t.counters) : t.Counts 0 t' := by
    obtain ⟨hlists, hcounters, -, -⟩ := h.frame
    exact .of_eq (hlists.trans hu.1) (hcounters.trans hu.2)
  cases h with
  | list kind => exact absurd rfl (hne kind)
  | strayItem => exact .refl t
  | strayTable => exact .refl t
  | item hl h => exact hcloses h ⟨rfl, rfl⟩
  | link h => exact hcloses h ⟨rfl, rfl⟩
  | bare h => exact hcloses h ⟨rfl, rfl⟩
  | root hdepth ht₀ h =>
    subst ht₀
    exact hcloses h ⟨lists_countClick _, counters_countClick _⟩
  | inner hdepth h => exact hcloses h ⟨rfl, rfl⟩

end State

end Intercept

namespace Draft

variable {lookup? : Option Image.Lookup} {n m k : Nat} {d d' d₁ d₂ d₃ : Draft} {name : Text}
  {attributes : Attributes} {inner : Content}

/-- The start tag of an element counts one if it is that of an item and nothing if it is that of
another element; tags of lists are excluded, as they change which counter is meant. -/
theorem counts_startElement (hd : d.Sound n)
    (hname : ∀ kind, Intercept.Tag.ofName? name ≠ some (.list kind))
    (h : (intercepted lookup?).receive n (.startElement name attributes) d = .ok d') :
    d.tags.Counts (if Intercept.Tag.ofName? name = some .item then 1 else 0) d'.tags := by
  rcases htag : Intercept.Tag.ofName? name with _ | tag
  · rw [tags_of_declined (by rintro _ ⟨⟩; exact htag) h]
    exact .refl d.tags
  · obtain ⟨t, hopens, ht⟩ := opens_of_receive htag hd h
    have hcounts := (hopens.counts fun kind => by rintro rfl; exact hname kind htag).trans
      (Intercept.State.counts_record tag.startText t)
    simpa [ht] using hcounts

/-- An end tag other than that of a list leaves all counters. -/
theorem counts_endElement (hd : d.Sound n)
    (hname : ∀ kind, Intercept.Tag.ofName? name ≠ some (.list kind))
    (h : (intercepted lookup?).receive n (.endElement name) d = .ok d') :
    d.tags.Counts 0 d'.tags := by
  rcases htag : Intercept.Tag.ofName? name with _ | tag
  · rw [tags_of_declined (by rintro _ ⟨⟩; exact htag) h]
    exact .refl d.tags
  · obtain ⟨t, hshuts, ht⟩ := shuts_of_receive htag hd h
    rw [ht]
    exact (hshuts.counts fun kind => by rintro rfl; exact hname kind htag).trans
      (Intercept.State.counts_record tag.endText t)

/-- What is no tag is none of the interceptor's concern. -/
theorem tags_of_data {e : Event} (he : e.isTag = false)
    (h : (intercepted lookup?).receive n e d = .ok d') : d'.tags = d.tags := by
  refine tags_of_declined (fun name hname => ?_) h
  rw [Event.isTag, hname] at he
  cases he

/-- **An element** counts its own items, if its content does so. There are three cases: a list keeps
its items for itself, an item is one more, and any other element hands on those of its content. -/
theorem RunsElement.counts {items : List Item} (hd : d.Sound n)
    (h : RunsElement lookup? n name attributes inner d d₁ d₂ d₃)
    (hinner : d₁.tags.Counts items.length d₂.tags) :
    d.tags.Counts (Content.ownItems n name inner items).length d₃.tags := by
  by_cases hlist : ∃ kind, Intercept.Tag.ofName? name = some (.list kind)
  · -- what its content has counted goes with the counter of the list
    obtain ⟨kind, htag⟩ := hlist
    obtain ⟨t, hopens, ht⟩ := opens_of_receive htag hd h.start
    obtain ⟨t', hshuts, ht'⟩ := shuts_of_receive htag h.sound₂ h.stop
    rw [ht, hopens.eq_openList] at hinner
    rw [ht', hshuts.eq_closeList, Content.ownItems, htag]
    exact ((Intercept.State.counts_record _ _).trans hinner).closeList.trans
      (Intercept.State.counts_record _ _)
  · have hname : ∀ kind, Intercept.Tag.ofName? name ≠ some (.list kind) :=
      fun kind htag => hlist ⟨kind, htag⟩
    have hcounts := ((counts_startElement hd hname h.start).trans hinner).trans
      (counts_endElement h.sound₂ hname h.stop)
    have hlength : (Content.ownItems n name inner items).length =
        (if Intercept.Tag.ofName? name = some .item then 1 else 0) + items.length + 0 := by
      by_cases htag : Intercept.Tag.ofName? name = some .item
      · rw [Content.ownItems_of_item htag, if_pos htag, List.length_cons]
        omega
      · rw [Content.ownItems_of_ne hname htag, if_neg htag, Nat.zero_add, Nat.add_zero]
    rw [hlength]
    exact hcounts

/-- **Content counts its items**, and leaves all other counters as they were. -/
theorem run_counts (content : Content) : ∀ {n : Nat} {d d' : Draft}, d.Sound n →
    (intercepted lookup?).runFrom n content.events d = .ok d' →
      d.tags.Counts (content.items n).length d'.tags := by
  induction content with
  | empty =>
    intro n d d' _ hok
    cases hok
    exact .refl d.tags
  | data e he rest ih =>
    intro n d d' hd hok
    obtain ⟨d₁, hok₁, hs₁, -⟩ := receive_sound lookup? hd e
    have htags : d₁.tags = d.tags := tags_of_data he hok₁
    rw [Content.events, Consumer.runFrom_cons_of_ok hok₁] at hok
    have hcounts := ih hs₁ hok
    rw [htags] at hcounts
    exact hcounts
  | element name attributes inner rest ihi ihr =>
    intro n d d' hd hok
    obtain ⟨d₁, d₂, d₃, h⟩ := exists_runsElement lookup? hd name attributes inner
    have hcounts := (h.counts hd (ihi h.sound₁ h.content)).trans (ihr h.sound₃ (h.rest hok).1)
    rw [Content.items, List.length_append]
    exact hcounts

/-! ## The end of an item -/

/-- Among the events, the first of which comes in draft `d` and has number `n`, there is the end tag
of an item with number `stop`, and when it comes these lists are open and the counters stand so. -/
def MeetsItemEnd (lookup? : Option Image.Lookup) (stop : Nat) (lists : List Intercept.ListKind)
    (counters : List Nat) (n : Nat) (events : List Event) (d : Draft) : Prop :=
  ∃ front name back, ∃ d' : Draft, events = front ++ .endElement name :: back ∧
    stop = n + front.length ∧ Intercept.Tag.ofName? name = some .item ∧
    (intercepted lookup?).runFrom n front d = .ok d' ∧ d'.tags.lists = lists ∧
    d'.tags.counters = counters

section

variable {stop : Nat} {lists : List Intercept.ListKind} {counters : List Nat} {events : List Event}

/-- Events in front do not matter, as long as they lead to the draft in which the others begin. -/
theorem MeetsItemEnd.behind {before : List Event}
    (h : MeetsItemEnd lookup? stop lists counters (n + before.length) events d₁)
    (hok : (intercepted lookup?).runFrom n before d = .ok d₁) :
    MeetsItemEnd lookup? stop lists counters n (before ++ events) d := by
  obtain ⟨front, name, back, d', rfl, rfl, htag, hfront, hlists, hcounters⟩ := h
  refine ⟨before ++ front, name, back, d', by simp, ?_, htag, ?_, hlists, hcounters⟩
  · rw [List.length_append, Nat.add_assoc]
  · rw [Consumer.runFrom_append_of_ok hok]
    exact hfront

/-- Nor do events behind: the end tag has come before them. -/
theorem MeetsItemEnd.append (h : MeetsItemEnd lookup? stop lists counters n events d)
    (more : List Event) : MeetsItemEnd lookup? stop lists counters n (events ++ more) d := by
  obtain ⟨front, name, back, d', rfl, hstop, htag, hfront, hlists, hcounters⟩ := h
  exact ⟨front, name, back ++ more, d', by simp, hstop, htag, hfront, hlists, hcounters⟩

/-- An item meets its own end tag, with the counters as its content has left them. -/
theorem RunsElement.meets_own
    (h : RunsElement lookup? n name attributes inner d d₁ d₂ d₃)
    (htag : Intercept.Tag.ofName? name = some .item) (rest : Content) :
    MeetsItemEnd lookup? (n + 1 + inner.events.length) d₂.tags.lists d₂.tags.counters n
      (Content.element name attributes inner rest).events d := by
  refine ⟨.startElement name attributes :: inner.events, name, rest.events, d₂, rfl, ?_, htag, ?_,
    rfl, rfl⟩
  · rw [List.length_cons]
    omega
  · rw [Consumer.runFrom_cons_of_ok h.start, h.content]

/-- What is met in the content of an element is met in the element. -/
theorem RunsElement.meets_inside {rest : Content}
    (h : RunsElement lookup? n name attributes inner d d₁ d₂ d₃)
    (hinner : MeetsItemEnd lookup? stop lists counters (n + 1) inner.events d₁) :
    MeetsItemEnd lookup? stop lists counters n (Content.element name attributes inner rest).events
      d := by
  have htag : (intercepted lookup?).runFrom n [.startElement name attributes] d = .ok d₁ :=
    Consumer.runFrom_cons_of_ok h.start []
  exact (hinner.behind htag).append _

/-- And so is what is met behind its end tag, in the content that follows. -/
theorem RunsElement.meets_behind {rest : Content}
    (h : RunsElement lookup? n name attributes inner d d₁ d₂ d₃)
    (hrest : MeetsItemEnd lookup? stop lists counters (n + 1 + inner.events.length + 1) rest.events
      d₃) :
    MeetsItemEnd lookup? stop lists counters n (Content.element name attributes inner rest).events
      d := by
  have helement : (intercepted lookup?).runFrom n
      (Content.element name attributes inner .empty).events d = .ok d₃ :=
    Consumer.runFrom_element_of_ok h.start h.content h.stop .empty
  have hlength : n + 1 + inner.events.length + 1 =
      n + (Content.element name attributes inner .empty).events.length := by
    simp only [Content.events, List.length_append, List.length_cons, List.length_nil]
    omega
  rw [hlength] at hrest
  have hbehind := hrest.behind helement
  simpa [Content.events] using hbehind

/-- **The counter at the end of an item.** Where the `k`-th item ends, the first one being at `0`,
the counter has moved on by all items up to this one, if there is none of the same list in it. The
induction is on the content, over the three places in which an item can be. -/
theorem meetsItemEnd (content : Content) : ∀ {n next k : Nat} {d : Draft} {item : Item}, d.Sound n →
    d.tags.lists = .ordered :: lists → d.tags.counters = next :: counters →
    (content.items n)[k]? = some item → item.content.items (item.start + 1) = [] →
      MeetsItemEnd lookup? item.stop (.ordered :: lists) ((next + k + 1) :: counters) n
        content.events d := by
  induction content with
  | empty =>
    intro n next k d item _ _ _ hitem
    cases hitem
  | data e he rest ih =>
    intro n next k d item hd hl hk hitem hplain
    obtain ⟨d₁, hok₁, hs₁, -⟩ := receive_sound lookup? hd e
    have htags : d₁.tags = d.tags := tags_of_data he hok₁
    have hmeets := ih hs₁ (by rw [htags, hl]) (by rw [htags, hk]) hitem hplain
    have hdata : (intercepted lookup?).runFrom n [e] d = .ok d₁ := Consumer.runFrom_cons_of_ok hok₁ []
    exact hmeets.behind hdata
  | element name attributes inner rest ihi ihr =>
    intro n next k d item hd hl hk hitem hplain
    obtain ⟨d₁, d₂, d₃, h⟩ := exists_runsElement lookup? hd name attributes inner
    have hinner := run_counts inner h.sound₁ h.content
    rw [Content.items] at hitem
    rcases Nat.lt_or_ge k (Content.ownItems n name inner (inner.items (n + 1))).length with hlt | hge
    · rw [List.getElem?_append_left hlt] at hitem
      have hname : ∀ kind, Intercept.Tag.ofName? name ≠ some (.list kind) := by
        intro kind htag
        simp [Content.ownItems, htag] at hlt
      have hstart := (counts_startElement hd hname h.start).ordered hl hk
      by_cases htag : Intercept.Tag.ofName? name = some .item
      · rw [if_pos htag] at hstart
        rw [Content.ownItems_of_item htag] at hitem
        cases k with
        | zero =>
          -- the element is the item itself, and nothing has been counted since its start tag
          cases hitem
          rw [hplain] at hinner
          obtain ⟨hlists, hcounters⟩ := hinner.ordered hstart.1 hstart.2
          have hmeets := h.meets_own htag rest
          rw [hlists, hcounters] at hmeets
          exact hmeets
        | succ k =>
          -- an item further in, with the start tag of this one counted before
          have hmeets := ihi h.sound₁ hstart.1 hstart.2 hitem hplain
          rw [show next + 1 + k + 1 = next + (k + 1) + 1 by omega] at hmeets
          exact h.meets_inside hmeets
      · -- an element around items of the list
        rw [if_neg htag] at hstart
        rw [Content.ownItems_of_ne hname htag] at hitem
        exact h.meets_inside (ihi h.sound₁ hstart.1 hstart.2 hitem hplain)
    · -- the item comes behind the element, which has counted its own
      rw [List.getElem?_append_right hge] at hitem
      have hown := (h.counts hd hinner).ordered hl hk
      have hmeets := ihr h.sound₃ hown.1 hown.2 hitem hplain
      rw [Nat.add_assoc next, Nat.add_sub_cancel' hge] at hmeets
      exact h.meets_behind hmeets

end

end Draft

/-! ## Numbers -/

namespace Canvas

variable {n m : Nat} {j : Int} {c c' : Canvas}

/-- Every number that event `m` has put on the canvas is `j`. -/
def Numbered (m : Nat) (j : Int) (c : Canvas) : Prop :=
  ∀ s ∈ c.spans, ∀ gap i, s.what = .style m (.number gap i) → i = j

/-- There is nothing of an event that is still to come, so before its event an item has no number at
all. -/
theorem Sound.numbered (hc : c.Sound n) (hm : n ≤ m) (j : Int) : c.Numbered m j := by
  intro s hs gap i hwhat
  have hlt := (hc s hs).made_lt
  rw [hwhat] at hlt
  exact absurd hlt (Nat.not_lt.mpr hm)

/-- A number stays as it is: other events put styles of their own down, and move or drop the ranges
of others at most. -/
theorem Edit.numbered (h : c.Edit n c') (hne : n ≠ m) (hc : c.Numbered m j) :
    c'.Numbered m j := by
  intro s hs gap i hwhat
  obtain ⟨r, hr, hwhat'⟩ := h.exists_style (Ne.symm hne) hs hwhat
  exact hc r hr gap i hwhat'

end Canvas

namespace Intercept.State

variable {n : Nat} {kind : MarkerKind} {isParagraph : Bool} {styles : List Style} {t t' : State}
  {c c' : Canvas} {tag : Tag} {s : Span Object} {gap number : Int}

/-- What closing an element puts down are the styles of the element. The canvas is sound, so none of
this event was there before. -/
theorem Closes.mem_styles (h : Closes n kind isParagraph styles t c t' c') (hc : c.Sound n)
    (hs : s ∈ c'.spans) {style : Style} (hwhat : s.what = .style n style) :
    style ∈ styles := by
  have hnone {s : Span Object} (hs : s ∈ c.spans) : s.what ≠ .style n style := hc.what_ne hs rfl
  cases h with
  | nothing => exact absurd hwhat (hnone hs)
  | elsewhere => exact absurd hwhat (hnone hs)
  | inside =>
    obtain ⟨r, hr, hcut⟩ := List.mem_filterMap.mp (List.mem_filter.mp hs).1
    exact absurd ((Span.what_of_cut? hcut).symm.trans hwhat) (hnone hr)
  | @outside m a hm ha hdepth =>
    obtain ⟨r, hr⟩ := closed_eq n isParagraph styles m a c
    rw [hr] at hs
    rcases List.mem_append.mp hs with hs | hs
    · exact absurd hwhat (hnone (List.mem_filter.mp hs).1)
    · obtain ⟨-, style', hstyle, rfl⟩ := Canvas.mem_spread hs
      cases hwhat
      exact hstyle

/-- A number among the styles of an item is the one before the counter, which has moved on at the
start of the item. -/
theorem number_of_mem_itemStyles (ht : t.Balanced) (h : .number gap number ∈ t.itemStyles) :
    ∃ rest next counters, t.lists = .ordered :: rest ∧ t.counters = next :: counters ∧
      number = (next : Int) - 1 := by
  rcases hl : t.lists with _ | ⟨kind, rest⟩
  · simp [itemStyles, hl] at h
  cases kind with
  | unordered => simp [itemStyles, hl, bulletStyles] at h
  | ordered =>
    obtain ⟨next, counters, hk⟩ := ht.exists_counter hl
    simp only [itemStyles, hl, hk, numberStyles, List.headD_cons, List.mem_cons, List.not_mem_nil,
      or_false] at h
    rcases h with h | h
    · cases h
    · cases h
      exact ⟨rest, next, counters, rfl, hk, rfl⟩

/-- The styles of a table have no number, so a table in a list does not disturb the order. -/
theorem number_notMem_tableStyles (t : State) : .number gap number ∉ t.tableStyles := by
  simp only [tableStyles]
  cases t.setup.tableLink <;> cases t.setup.clickable <;> simp

/-- **What puts a number down** is the end of an item in an ordered list. -/
theorem closeElement_number (ht : t.Balanced) (hc : c.Sound n)
    (h : t.closeElement n tag c = .ok (t', c')) (hs : s ∈ c'.spans)
    (hwhat : s.what = .style n (.number gap number)) :
    tag = .item ∧ ∃ rest next counters, t.lists = .ordered :: rest ∧
      t.counters = next :: counters ∧ number = (next : Int) - 1 := by
  -- the number is new on the canvas, so whatever leaves the canvas alone is out of the question
  have hsame : c' ≠ c := by
    rintro rfl
    exact hc.what_ne hs rfl hwhat
  have hfinish {u : State} {kind isParagraph styles} (hd : styles.Nodup)
      (h : u.finish n kind isParagraph styles c = .ok (t', c')) : .number gap number ∈ styles :=
    (closes_of_finish hc hd h).mem_styles hc hs hwhat
  cases tag with
  | list kind =>
    cases h
    exact absurd rfl hsame
  | item =>
    rcases hl : t.lists with _ | ⟨kind, rest⟩
    · cases (closeItem_of_lists_eq_nil hl).symm.trans h
      exact absurd rfl hsame
    · have hcloses := closes_of_finish hc.newline (nodup_itemStyles t)
        ((closeItem_eq hl ht).symm.trans h)
      have hnumber := number_of_mem_itemStyles ht (hcloses.mem_styles hc.newline hs hwhat)
      rw [hl] at hnumber
      exact ⟨rfl, hnumber⟩
  | link => exact absurd (hfinish (List.pairwise_singleton _ _) h) (by simp)
  | bare b => exact absurd (hfinish b.nodup_styles h) (by cases b <;> simp [BareTag.styles])
  | table =>
    simp only [closeElement, closeTable] at h
    split at h
    next =>
      cases h
      exact absurd rfl hsame
    next =>
      exact absurd (hfinish (nodup_tableStyles _) h) (number_notMem_tableStyles _)
    next => exact absurd (hfinish List.nodup_nil h) List.not_mem_nil

/-- The number of an item is the one before the counter. -/
theorem endTag_numbered {next : Nat} {counters : List Nat} (ht : t.Balanced) (hc : c.Sound n)
    (hk : t.counters = next :: counters) (h : t.endTag n .item c = .ok (t', c')) :
    c'.Numbered n ((next : Int) - 1) := by
  obtain ⟨⟨t₁, c₁⟩, hok, heq⟩ := exists_of_map_eq_ok h
  cases heq
  intro s hs gap i hwhat
  obtain ⟨-, -, next', counters', -, hk', hnumber⟩ := closeElement_number ht hc hok hs hwhat
  obtain rfl : next = next' := (List.cons.inj (hk.symm.trans hk')).1
  exact hnumber

end Intercept.State

namespace Draft

variable {lookup? : Option Image.Lookup} {n m : Nat} {d d' : Draft}

/-- Events behind event `m` leave its number as it is. -/
theorem run_numbered {j : Int} {events : List Event} (hd : d.Sound n) (hlt : m < n)
    (hnumbered : d.canvas.Numbered m j)
    (hrun : (intercepted lookup?).runFrom n events d = .ok d') : d'.canvas.Numbered m j := by
  refine (runFrom_invariant (P := fun n d => m < n ∧ d.canvas.Numbered m j) ?_ hd
    ⟨hlt, hnumbered⟩ hrun).2
  intro e _ n d d' hd ⟨hlt, hnumbered⟩ hok
  refine ⟨Nat.lt_succ_of_lt hlt, ?_⟩
  exact (receive_edits hd hok).induction
    (fun _ _ hedit => hedit.numbered (Nat.ne_of_gt hlt)) hnumbered

/-- **The number of an item that has ended**, at every moment before and behind. -/
theorem MeetsItemEnd.numbered {stop next : Nat} {lists : List Intercept.ListKind}
    {counters : List Nat} {events done : List Event}
    (h : MeetsItemEnd lookup? stop (.ordered :: lists) (next :: counters) n events d)
    (hd : d.Sound n) (hdone : done <+: events)
    (hok : (intercepted lookup?).runFrom n done d = .ok d') :
    d'.canvas.Numbered stop ((next : Int) - 1) := by
  obtain ⟨front, name, back, d₁, rfl, rfl, htag, hfront, -, hcounters⟩ := h
  obtain ⟨d₁', hfront', hs₁, -⟩ := run_sound lookup? front hd
  cases hfront.symm.trans hfront'
  rcases Nat.lt_or_ge front.length done.length with hlt | hge
  · -- the end tag has come, and what has come behind it leaves the number alone
    obtain ⟨d₂, hend, hs₂, -⟩ := receive_sound lookup? hs₁ (.endElement name)
    have hthrough : (intercepted lookup?).runFrom n (front ++ [.endElement name]) d = .ok d₂ := by
      rw [Consumer.runFrom_append_of_ok hfront]
      exact Consumer.runFrom_cons_of_ok hend []
    have hlead : front ++ [.endElement name] <+: done := by
      refine List.prefix_of_prefix_length_le ?_ hdone ?_
      · exact ⟨back, by simp⟩
      · rw [List.length_append]
        exact hlt
    obtain ⟨behind, rfl⟩ := hlead
    rw [Consumer.runFrom_append_of_ok hthrough] at hok
    rw [receive_endElement_of_ofName? htag] at hend
    obtain ⟨⟨t, c⟩, hclose, rfl⟩ := exists_of_map_eq_ok hend
    have hnumbered := Intercept.State.endTag_numbered hs₁.balanced hs₁.canvas hcounters hclose
    rw [List.length_append, ← Nat.add_assoc] at hok
    exact run_numbered hs₂ (Nat.lt_succ_self _) hnumbered hok
  · -- the end tag is still to come
    obtain ⟨d'', hok', hs', -⟩ := run_sound lookup? done hd
    cases hok.symm.trans hok'
    exact hs'.canvas.numbered (Nat.add_le_add_left hge n) _

/-- **Items are numbered in order.** In every reachable draft, inside of tables or not, an ordered
list with well nested content succeeds, up to each of its events and with any events behind it. The
`k`-th of its items, the first one being at `0`, has number `k + 1` wherever it has one, whatever
lists stand in it and between the items and whichever items are empty, if there is no item of the
same list in it. -/
theorem items_numbered_in_order (h : Reachable lookup? n d) {name : Text}
    (hname : Intercept.Tag.ofName? name = some (.list .ordered)) (attributes : Attributes)
    (inner : Content) (behind : List Event) {done : List Event}
    (hdone : done <+: (Content.element name attributes inner .empty).events ++ behind) :
    ∃ d' : Draft, (intercepted lookup?).runFrom n done d = .ok d' ∧
      ∀ (k : Nat) (item : Item), (inner.items (n + 1))[k]? = some item →
        item.content.items (item.start + 1) = [] →
          ∀ s ∈ d'.canvas.spans, ∀ gap number,
            s.what = .style item.stop (.number gap number) → number = k + 1 := by
  obtain ⟨d', hok, -, -⟩ := run_sound lookup? done h.sound
  refine ⟨d', hok, fun k item hitem hplain s hs gap number hwhat => ?_⟩
  obtain ⟨d₁, d₂, d₃, hruns⟩ := exists_runsElement lookup? h.sound name attributes inner
  obtain ⟨t, hopens, ht⟩ := opens_of_receive hname h.sound hruns.start
  have hopen := Intercept.State.counts_record (Intercept.Tag.list .ordered).startText t
  rw [hopens.eq_openList] at hopen ht
  rw [← ht] at hopen
  obtain ⟨hlists, hcounters⟩ := hopen.ordered rfl rfl
  have hmeets := ((hruns.meets_inside (meetsItemEnd inner hruns.sound₁ hlists hcounters hitem
    hplain)).append behind).numbered h.sound hdone hok
  have hnumber := hmeets s hs gap number hwhat
  omega

/-- An empty item, a list between the items, an item with an ordered list of its own, an item in a
table, and one more. -/
def mixedItems : Content :=
  .element Markup.Renamed.listItem.reserved [] .empty
    (.element Markup.Renamed.unorderedList.reserved []
      (.element Markup.Renamed.listItem.reserved [] (.characters "a".toList .empty) .empty)
      (.element "b".toList []
        (.element Markup.Renamed.listItem.reserved []
          (.characters "b".toList (.element Markup.Renamed.orderedList.reserved []
            (.element Markup.Renamed.listItem.reserved [] .empty
              (.element Markup.Renamed.listItem.reserved [] (.characters "c".toList .empty) .empty))
            .empty)) .empty)
        (.element "table".toList []
          (.element Markup.Renamed.listItem.reserved [] (.characters "d".toList .empty) .empty)
          (.element Markup.Renamed.listItem.reserved [] (.characters "e".toList .empty) .empty))))

theorem items_numbered_in_order_mixedItems :
    Reachable none 0 ({}, {}) ∧
      Intercept.Tag.ofName? Markup.Renamed.orderedList.reserved = some (.list .ordered) ∧
      (mixedItems.items 1).map (fun i => (i.start, i.stop)) = [(1, 2), (9, 18), (21, 23), (25, 27)] ∧
      ∃ d' : Draft, (intercepted none).runFrom 0
          (Content.element Markup.Renamed.orderedList.reserved [] mixedItems .empty).events ({}, {}) =
            .ok d' ∧
        (d'.canvas.annotations.filterMap fun s => match s.what with
          | .style made (.number _ number) => some (made, number)
          | _ => none) = [(18, 2), (16, 2), (27, 4)] ∧
        ∀ s ∈ d'.canvas.spans, ∀ gap number,
          s.what = .style 27 (.number gap number) → number = 4 := by
  have hname : Intercept.Tag.ofName? Markup.Renamed.orderedList.reserved = some (.list .ordered) := by
    decide +kernel
  have hdone : (Content.element Markup.Renamed.orderedList.reserved [] mixedItems .empty).events <+:
      (Content.element Markup.Renamed.orderedList.reserved [] mixedItems .empty).events ++ [] :=
    List.prefix_append _ _
  obtain ⟨d', hok, hnumbers⟩ :=
    items_numbered_in_order (.start {}) hname [] mixedItems [] hdone
  have hshown : ((intercepted none).runFrom 0
      (Content.element Markup.Renamed.orderedList.reserved [] mixedItems .empty).events
        ({}, {})).toOption.map (fun d : Draft => d.canvas.annotations.filterMap fun s =>
          match s.what with
          | .style made (.number _ number) => some (made, number)
          | _ => none) = some [(18, 2), (16, 2), (27, 4)] := by
    decide +kernel
  rw [hok] at hshown
  refine ⟨.start {}, hname, by decide +kernel, d', hok, Option.some.inj hshown, ?_⟩
  exact hnumbers 3 ⟨25, 27, .characters "e".toList .empty⟩ rfl rfl

end Draft

end StyledText
