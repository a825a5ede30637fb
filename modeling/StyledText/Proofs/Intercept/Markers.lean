import Mathlib.Data.List.Nodup
import StyledText.Proofs.Intercept.Desk
import StyledText.Proofs.Intercept.Element

/-!
# Markers and their marks

The interceptor keeps its markers in the order in which they were put down, and each of them has a
mark on the canvas. Nothing but the kind is compared when a marker is taken up again, and text may
be taken out from under the marks; still the two sides never part: the marks on the canvas are those
of the markers (`State.Attached`), in one order, and they never pass each other. What is counted
beside them is right as well (`State.Counted`).
-/

namespace StyledText

open Markup (Attributes)

/-! ## The marks of the markers -/

/-- A marker is attached as a mark. So no cut removes its span: only spans that styled something go
when they become empty. -/
theorem Object.flag_of_marker? {o : Object} (h : o.marker?.isSome = true) : o.flag = .mark := by
  cases o with
  | marker m => rfl
  | opening made o => rfl
  | style made s => cases h

/-- The span after the characters from `i` up to `j` are taken out, whatever becomes of it. -/
def Span.moved {α : Type} (i j : Nat) (s : Span α) : Span α :=
  { s with start := shift i j s.start, stop := shift i j s.stop }

namespace Canvas

variable {n i j : Nat} {c : Canvas} {m : Marker} {o : Object}

/-- The spans of the markers, the oldest first. -/
def markerSpans (c : Canvas) : List (Span Object) := c.spans.filter (·.what.marker?.isSome)

@[simp] theorem markerSpans_append (c : Canvas) (t : Text) :
    markerSpans (Buffer.append c t) = c.markerSpans := rfl

@[simp] theorem markerSpans_newline (c : Canvas) : c.newline.markerSpans = c.markerSpans := by
  rw [markerSpans, spans_newline, markerSpans]

/-- A new marker goes behind all others, at the end of the text, and covers nothing. -/
theorem markerSpans_marked (m : Marker) (c : Canvas) :
    (c.marked (.marker m)).markerSpans =
      c.markerSpans ++ [⟨.marker m, c.length, c.length, .mark⟩] := by
  simp [markerSpans, marked, List.filter_append, Object.marker?]

/-- Styles are attached without a change of the marks, so an element that ends changes only the mark
of its own marker. -/
theorem markerSpans_styled (n : Nat) (styles : List Style) (start stop : Nat) (c : Canvas) :
    (c.styled n styles start stop).markerSpans = c.markerSpans := by
  have hnone : (spread n styles start stop).filter (·.what.marker?.isSome) = [] := by
    rw [List.filter_eq_nil_iff]
    intro s hs
    obtain ⟨-, style, -, rfl⟩ := mem_spread hs
    simp [Object.marker?]
  rw [markerSpans, styled, List.filter_append, hnone, List.append_nil, markerSpans]

/-- An object that is removed takes its own mark with it and no other, whatever its kind. -/
theorem markerSpans_remove (c : Canvas) (o : Object) :
    markerSpans (Buffer.remove c o) = c.markerSpans.filter (·.what ≠ o) := by
  simp only [markerSpans, Buffer.remove, List.filter_filter, Bool.and_comm]

/-- Taking text out leaves every mark, and moves it: a mark in the text that goes comes to stand at
its beginning. -/
theorem markerSpans_cut (hc : c.Sound n) :
    markerSpans (c.cut i j) = c.markerSpans.map (Span.moved i j) := by
  simp only [markerSpans, Buffer.cut]
  rw [List.filter_filterMap, ← List.filterMap_eq_map, List.filterMap_filter]
  refine List.filterMap_congr fun s hs => ?_
  by_cases hm : s.what.marker?.isSome = true
  · -- an exclusive span would not be one of a marker
    have hflag : s.flag = .mark := (hc s hs).flag_eq.trans (Object.flag_of_marker? hm)
    have hcut : s.cut? i j = some (s.moved i j) := by simp [Span.cut?, hflag, Span.moved]
    rw [hcut, if_pos hm]
    simp [Span.moved, hm]
  · rw [if_neg hm, Span.cut?]
    simp only
    split
    · rfl
    · simpa using hm

/-- The place of an object is that of its span, so what is attached has a place. -/
theorem exists_start?_of_mem {s : Span Object} (hs : s ∈ c.spans) :
    ∃ a, c.start? s.what = some a := by
  rcases h : c.find? s.what with _ | r
  · rw [Buffer.find?, List.find?_eq_none] at h
    exact absurd (decide_eq_true rfl) (h s hs)
  · exact ⟨r.start, by rw [Buffer.start?, h]; rfl⟩

end Canvas

/-! ## The newest marker of a kind -/

/-- With all its elements different, a list loses the first one with `p` and no other. Markers are
all different since each has the number of its event, so the newest of a kind goes alone. -/
theorem eraseP_eq_filter_ne {α : Type} [DecidableEq α] {p : α → Bool} {l : List α} {a : α}
    (hd : l.Nodup) (h : l.find? p = some a) : l.eraseP p = l.filter (· ≠ a) := by
  obtain ⟨ha, before, after, rfl, hbefore⟩ := List.find?_eq_some_iff_append.mp h
  have hne : ∀ b ∈ before ++ after, b ≠ a := by
    have hnot := (List.nodup_middle.mp hd).notMem
    rintro b hb rfl
    exact hnot hb
  have herase : (before ++ a :: after).eraseP p = before ++ after := by
    rw [List.eraseP_append_right _ (by simpa using hbefore), List.eraseP_cons_of_pos ha]
  rw [herase, List.filter_append, List.filter_cons_of_neg (by simp), ← List.filter_append,
    List.filter_eq_self.mpr (by simpa using hne)]

/-- Only the kind that is taken up loses a marker, and it loses one, if it has any. -/
theorem countP_kind_eraseP (kind k : MarkerKind) (l : List Marker) :
    (l.eraseP (·.kind = kind)).countP (·.kind = k) =
      l.countP (·.kind = k) - if kind = k then 1 else 0 := by
  induction l with
  | nil => simp
  | cons m l ih =>
    by_cases hm : m.kind = kind
    · rw [List.eraseP_cons_of_pos (by simpa using hm), List.countP_cons, hm]
      simp
    · rw [List.eraseP_cons_of_neg (by simpa using hm), List.countP_cons, ih, List.countP_cons]
      by_cases hk : kind = k
      · have hmk : ¬ m.kind = k := fun he => hm (he.trans hk.symm)
        simp [hmk]
      · simp [hk]

namespace Intercept

/-- The marker of an item is none of a table, so lists have no part in how many tables are
counted. -/
theorem ListKind.marker_ne_table (kind : ListKind) : kind.marker ≠ .table := by
  cases kind <;> decide

/-- Nor is that of any other element that only puts a marker down. -/
theorem BareTag.marker_ne_table (b : BareTag) : b.marker ≠ .table := by
  cases b <;> decide

namespace State

variable {n : Nat} {kind : MarkerKind} {isParagraph : Bool} {styles : List Style} {t t' : State}
  {c c' : Canvas} {tag : Tag} {attributes : Attributes} {m : Marker}

/-! ## Counting -/

/-- The counts are right: one counter for each open ordered list, none of which stands before the
first number, and one level of tables for each marker of a table. -/
structure Counted (t : State) : Prop where
  balanced : t.Balanced
  one_le : ∀ k ∈ t.counters, 1 ≤ k
  tables : t.markers.countP (·.kind = .table) = t.depth

/-- A list that opens brings a counter if it is an ordered one, which starts with the first
number. -/
theorem Counted.openList (h : t.Counted) (kind : ListKind) : (t.openList kind).Counted := by
  refine ⟨h.balanced.openList kind, ?_, h.tables⟩
  cases kind with
  | unordered => exact h.one_le
  | ordered =>
    intro k hk
    rcases List.mem_cons.mp hk with rfl | hk
    · exact Nat.le_refl 1
    · exact h.one_le k hk

/-- A list that closes takes its counter with it, whichever of the two end tags it was. -/
theorem Counted.closeList (h : t.Counted) : t.closeList.Counted := by
  refine ⟨h.balanced.closeList, ?_, ?_⟩
  · intro k hk
    unfold State.closeList at hk
    split at hk
    next => exact h.one_le k hk
    next => exact h.one_le k hk
    next => exact h.one_le k (List.mem_of_mem_tail hk)
  · rw [markers_closeList, depth_closeList]
    exact h.tables

/-- A marker of an element that is not a table leaves the tables as they are counted. -/
theorem Counted.mark (h : t.Counted) (hm : m.kind ≠ .table) :
    Counted { t with markers := m :: t.markers } :=
  ⟨h.balanced, h.one_le, (List.countP_cons_of_neg (by simpa using hm)).trans h.tables⟩

/-- Closing an element changes the counts of its kind alone. The state may have been told already
that a table less is around, which is what the last hypothesis allows. -/
theorem Closes.counted (h : Closes n kind isParagraph styles t c t' c') (hb : t.Balanced)
    (hone : ∀ k ∈ t.counters, 1 ≤ k)
    (htables : t.markers.countP (·.kind = .table) - (if kind = .table then 1 else 0) = t.depth) :
    t'.Counted := by
  obtain ⟨hlists, hcounters, hdepth, hmarkers⟩ := h.frame
  refine ⟨?_, by rw [hcounters]; exact hone, ?_⟩
  · rw [Balanced, hcounters, hlists]
    exact hb
  · rw [hmarkers, hdepth, countP_kind_eraseP]
    exact htables

/-- A start tag keeps the counts right: an item of an ordered list raises a counter that is there,
and a table adds a marker and a level. -/
theorem Opens.counted (h : Opens n attributes t c tag t' c') (ht : t.Counted) : t'.Counted := by
  -- a table counts itself, by its marker and by its depth
  have htable {k : Nat} (hk : t.depth + 1 = k) :
      (⟨n, .table, none⟩ :: t.markers : List Marker).countP (·.kind = .table) = k := by
    rw [List.countP_cons_of_pos (by simp), ht.tables, hk]
  cases h with
  | list kind => exact ht.openList kind
  | looseItem => exact ht
  | bullet => exact ht.mark (by simp)
  | number hl hk =>
    have hb := ht.balanced
    have hone := ht.one_le
    rw [Balanced, hk] at hb
    rw [hk] at hone
    refine ⟨hb, ?_, (ht.mark (m := ⟨n, .orderedItem, none⟩) (by simp)).tables⟩
    intro k' hk'
    rcases List.mem_cons.mp hk' with rfl | hk'
    · exact Nat.le_add_left 1 _
    · exact hone k' (List.mem_cons_of_mem _ hk')
  | link => exact ht.mark (by simp)
  | bare b => exact ht.mark b.marker_ne_table
  | root hdepth => exact ⟨ht.balanced, ht.one_le, htable (by rw [hdepth])⟩
  | inner => exact ⟨ht.balanced, ht.one_le, htable rfl⟩

/-- An end tag keeps them right too. A stray one changes nothing, and a table that ends loses its
marker with its level. -/
theorem Shuts.counted (h : Shuts n t c tag t' c') (ht : t.Counted) : t'.Counted := by
  have hother {kind isParagraph styles} {c : Canvas} (hk : kind ≠ .table)
      (h : Closes n kind isParagraph styles t c t' c') : t'.Counted :=
    h.counted ht.balanced ht.one_le (by rw [if_neg hk]; exact ht.tables)
  cases h with
  | list kind => exact ht.closeList
  | strayItem => exact ht
  | strayTable => exact ht
  | item hl h => exact hother (ListKind.marker_ne_table _) h
  | link h => exact hother (by simp) h
  | bare h => exact hother (BareTag.marker_ne_table _) h
  -- the level is taken off first, and closing takes off the marker of it
  | root hdepth ht₀ h =>
    subst ht₀
    refine h.counted ?_ ?_ ?_
    · rw [Balanced, counters_countClick, lists_countClick]
      exact ht.balanced
    · rw [counters_countClick]
      exact ht.one_le
    · have htables := ht.tables
      rw [hdepth] at htables
      rw [markers_countClick, depth_countClick, if_pos rfl]
      exact Nat.sub_eq_of_eq_add htables
  | inner hdepth h =>
    have htables := ht.tables
    rw [hdepth] at htables
    refine h.counted ht.balanced ht.one_le ?_
    rw [if_pos rfl]
    exact Nat.sub_eq_of_eq_add htables

/-- What is written down for a table is not counted. -/
theorem Counted.record (h : t.Counted) (text : Text) : (t.record text).Counted := by
  rw [record_eq]
  exact ⟨h.balanced, h.one_le, h.tables⟩

/-! ## Marks -/

/-- The marks on the canvas are those of the markers, in the order in which they were put down, and
none stands before an older one. -/
structure Attached (t : State) (c : Canvas) : Prop where
  what : c.markerSpans.map (·.what) = t.markers.reverse.map .marker
  opened : t.markers.Pairwise fun m m' => m'.made < m.made
  ordered : c.markerSpans.Pairwise fun s s' => s.start ≤ s'.start

/-- No marker is there twice, as each was put down by another event. -/
theorem Attached.nodup (h : t.Attached c) : t.markers.Nodup := by
  refine h.opened.imp ?_
  intro m m' hlt he
  subst he
  exact Nat.lt_irrefl _ hlt

/-- Nothing but the markers and their marks takes part, so text, styles and counts may change in
between. -/
theorem Attached.congr (h : t.Attached c) (ht : t'.markers = t.markers)
    (hc : c'.markerSpans = c.markerSpans) : t'.Attached c' :=
  ⟨by rw [hc, ht]; exact h.what, by rw [ht]; exact h.opened, by rw [hc]; exact h.ordered⟩

/-- A marker has its mark, so on the canvas it was put down on it is found whatever has happened
since. -/
theorem Attached.exists_mem_spans (h : t.Attached c) (hm : m ∈ t.markers) :
    ∃ s ∈ c.spans, s.what = .marker m := by
  have hwhat : Object.marker m ∈ c.markerSpans.map (·.what) := by
    rw [h.what]
    exact List.mem_map_of_mem (List.mem_reverse.mpr hm)
  obtain ⟨s, hs, hsm⟩ := List.mem_map.mp hwhat
  exact ⟨s, (List.mem_filter.mp hs).1, hsm⟩

/-- A new marker comes after all others and stands behind them, at the end of the text. -/
theorem Attached.marked (h : t.Attached c) (hc : c.Sound n) (hm : m.made = n)
    (ht : t'.markers = m :: t.markers) : t'.Attached (c.marked (.marker m)) := by
  refine ⟨?_, ?_, ?_⟩
  · simp [Canvas.markerSpans_marked, h.what, ht]
  · rw [ht]
    refine List.pairwise_cons.mpr ⟨fun m' hm' => ?_, h.opened⟩
    obtain ⟨s, hs, hsm⟩ := h.exists_mem_spans hm'
    have hlt := (hc s hs).made_lt
    rw [hsm, ← hm] at hlt
    exact hlt
  · rw [Canvas.markerSpans_marked]
    refine List.pairwise_append.mpr ⟨h.ordered, List.pairwise_singleton _ _, ?_⟩
    intro s hs s' hs'
    obtain rfl := List.mem_singleton.mp hs'
    have hfit := hc s (List.mem_filter.mp hs).1
    exact Nat.le_trans hfit.start_le hfit.stop_le

/-- Where text is taken out the marks move together: some of them may fall on one place, but none
passes another one. -/
theorem Attached.cut {i j : Nat} (h : t.Attached c) (hc : c.Sound n) (hij : i ≤ j) :
    t.Attached (c.cut i j) := by
  have hspans := Canvas.markerSpans_cut (i := i) (j := j) hc
  refine ⟨?_, h.opened, ?_⟩
  · rw [hspans, List.map_map]
    exact h.what
  · rw [hspans]
    exact List.pairwise_map.mpr (h.ordered.imp fun hle => shift_mono hij hle)

/-- The newest marker of a kind goes, and its mark goes with it. Those of other kinds that are newer
stay, with their marks. -/
theorem Attached.drop (h : t.Attached c) (hm : t.newest? kind = some m) :
    (t.drop kind).Attached (Buffer.remove c (.marker m)) := by
  -- the marker is dropped by its kind and its mark by what it is; no other marker is the same
  have hmarkers : (t.drop kind).markers = t.markers.filter (· ≠ m) :=
    eraseP_eq_filter_ne h.nodup hm
  refine ⟨?_, ?_, ?_⟩
  · have hwhat := congrArg (List.filter (· ≠ .marker m)) h.what
    rw [List.filter_map, List.filter_map, List.filter_reverse] at hwhat
    rw [Canvas.markerSpans_remove, hmarkers]
    refine Eq.trans hwhat ?_
    simp [Function.comp_def]
  · rw [hmarkers]
    exact h.opened.filter _
  · rw [Canvas.markerSpans_remove]
    exact h.ordered.filter _

/-- An element that ends keeps the two sides together, whether its text is styled, taken out, or is
not there. -/
theorem Attached.closes (h : t.Attached c) (hc : c.Sound n)
    (hcloses : Closes n kind isParagraph styles t c t' c') : t'.Attached c' := by
  cases hcloses with
  | nothing => exact h
  | elsewhere hm ha =>
    -- with one canvas the mark cannot be elsewhere
    obtain ⟨s, hs, hsm⟩ := h.exists_mem_spans (List.mem_of_find?_eq_some hm)
    obtain ⟨a, ha'⟩ := Canvas.exists_start?_of_mem hs
    rw [hsm, ha] at ha'
    cases ha'
  | inside hm ha hdepth =>
    exact ((h.cut hc (le_length_of_start? hc ha)).drop hm).congr rfl rfl
  | @outside m a hm ha hdepth =>
    obtain ⟨r, hr⟩ := closed_eq n isParagraph styles m a c
    rw [hr]
    exact (h.drop hm).congr rfl (Canvas.markerSpans_styled ..)

/-- So does an element that begins. An item outside of a list and a list itself put nothing down. -/
theorem Attached.opens (h : t.Attached c) (hc : c.Sound n)
    (hopens : Opens n attributes t c tag t' c') : t'.Attached c' := by
  have hline : t.Attached c.newline := h.congr rfl c.markerSpans_newline
  cases hopens with
  | list kind => exact h.congr rfl rfl
  | looseItem => exact hline
  | bullet => exact hline.marked hc.newline rfl rfl
  | number => exact hline.marked hc.newline rfl rfl
  | link => exact h.marked hc rfl rfl
  | bare b => exact h.marked hc rfl rfl
  | root =>
    -- the placeholder comes behind the mark
    exact (h.marked hc (m := ⟨n, .table, none⟩) rfl rfl).congr rfl (Canvas.markerSpans_append _ _)
  | inner => exact h.marked hc rfl rfl

/-- And so does every end tag, since all of them come to `Closes` or change nothing but the
lists. -/
theorem Attached.shuts (h : t.Attached c) (hc : c.Sound n) (hshuts : Shuts n t c tag t' c') :
    t'.Attached c' := by
  have hline : t.Attached c.newline := h.congr rfl c.markerSpans_newline
  cases hshuts with
  | list kind => exact h.congr (markers_closeList t) rfl
  | strayItem => exact h
  | strayTable => exact h
  | item hl hcloses => exact hline.closes hc.newline hcloses
  | link hcloses => exact h.closes hc hcloses
  | bare hcloses => exact h.closes hc hcloses
  | root hdepth ht₀ hcloses =>
    subst ht₀
    refine Attached.closes ?_ hc hcloses
    exact h.congr (markers_countClick _) rfl
  | inner hdepth hcloses =>
    refine Attached.closes ?_ hc hcloses
    exact h.congr rfl rfl

@[simp] theorem markers_record (text : Text) (t : State) : (t.record text).markers = t.markers :=
  (sameOpen_record text t).markers

@[simp] theorem lists_record (text : Text) (t : State) : (t.record text).lists = t.lists :=
  (sameOpen_record text t).lists

@[simp] theorem depth_record (text : Text) (t : State) : (t.record text).depth = t.depth :=
  (sameOpen_record text t).depth

@[simp] theorem counters_record (text : Text) (t : State) : (t.record text).counters = t.counters := by
  rw [record_eq]

end State

namespace Desk

section

variable {ι : Type} [DecidableEq ι] {n : Nat} {i : ι} {a : Action} {d d' : Desk ι}
  {steps : List (ι × Action)}

omit [DecidableEq ι] in
/-- Before the first step nothing is open and nothing is counted. -/
theorem counted_fresh (setup : Setup) (indent : Option Nat) :
    (fresh setup indent : Desk ι).tags.Counted :=
  ⟨rfl, fun _ hk => absurd hk List.not_mem_nil, rfl⟩

/-- **A step keeps the counts right**, on whichever canvas it works: the canvas is of no account for
them. -/
theorem Performs.counted (h : Performs n i d a d') (hd : d.tags.Counted) : d'.tags.Counted := by
  cases h with
  | startTag _ hopens => exact (hopens.counted hd).record _
  | endTag _ hshuts => exact (hshuts.counted hd).record _
  | _ => exact hd

/-- The counts are right after every run, on whatever canvases it works. -/
theorem counted_of_run {setup : Setup} {indent : Option Nat}
    (hrun : (fresh setup indent : Desk ι).run 0 steps = .ok d) : d.tags.Counted :=
  (run_induction (P := fun _ d => d.tags.Counted) (sound_fresh setup indent)
    (counted_fresh setup indent) (fun _ hd hperforms => hperforms.counted hd) hrun).2

end

variable {n : Nat} {a : Action} {d d' : Desk Unit}

/-- One canvas with the marks of all markers, and counts that are right. -/
structure Kept (d : Desk Unit) : Prop where
  counted : d.tags.Counted
  attached : d.tags.Attached (d.canvas ())

/-- An empty canvas has no mark, and no marker has been put down. -/
theorem kept_fresh (setup : Setup) (indent : Option Nat) :
    (fresh setup indent : Desk Unit).Kept :=
  ⟨counted_fresh setup indent, ⟨rfl, .nil, .nil⟩⟩

/-- **A step keeps the markers and their marks together.** The text may be written on and taken out
at will in between. -/
theorem Kept.perform (h : d.Kept) (hd : d.Sound n) (hperforms : Performs n () d a d') : d'.Kept := by
  have hc := hd.canvas ()
  refine ⟨hperforms.counted h.counted, ?_⟩
  cases hperforms with
  | declined => exact h.attached
  | startTag _ hopens =>
    exact (h.attached.opens hc hopens).congr (State.markers_record ..) rfl
  | endTag _ hshuts =>
    exact (h.attached.shuts hc hshuts).congr (State.markers_record ..) rfl
  | write text => exact h.attached.congr rfl (Canvas.markerSpans_append _ _)
  | delete hw =>
    obtain ⟨hstart, hle, -⟩ := hw
    exact h.attached.cut hc (by omega)

/-- **Markers and marks.** Whatever is done to one canvas, in any order: there is one counter for
each open ordered list and no counter is below one; the number of tables around is that of the
markers of tables; the marks of the canvas that stand for markers are those of the markers, from the
oldest to the newest, each once; each is of no width and stands in the text; and none stands before
an older one. -/
theorem markers_keep_their_marks (setup : Setup) (indent : Option Nat)
    (steps : List (Unit × Action)) {d : Desk Unit}
    (hrun : (fresh setup indent).run 0 steps = .ok d) :
    d.tags.counters.length = d.tags.lists.count .ordered ∧ (∀ k ∈ d.tags.counters, 1 ≤ k) ∧
    d.tags.markers.countP (·.kind = .table) = d.tags.depth ∧
    (d.canvas ()).markerSpans.map (·.what) = d.tags.markers.reverse.map .marker ∧
    (d.tags.markers.reverse.Pairwise fun m m' => m.made < m'.made) ∧
    (∀ s ∈ (d.canvas ()).markerSpans,
      s.flag = .mark ∧ s.start = s.stop ∧ s.stop ≤ (d.canvas ()).length) ∧
    (d.canvas ()).markerSpans.Pairwise fun s s' => s.start ≤ s'.start := by
  have hfresh : (fresh setup indent : Desk Unit).Kept :=
    ⟨⟨rfl, fun k hk => absurd hk List.not_mem_nil, rfl⟩, ⟨rfl, .nil, .nil⟩⟩
  obtain ⟨hsound, hkept⟩ := run_induction (P := fun _ d => d.Kept) (sound_fresh setup indent) hfresh
    (fun hd h hperforms => h.perform hd hperforms) hrun
  refine ⟨hkept.counted.balanced, hkept.counted.one_le, hkept.counted.tables, hkept.attached.what,
    List.pairwise_reverse.mpr hkept.attached.opened, ?_, hkept.attached.ordered⟩
  intro s hs
  obtain ⟨hmem, hmarker⟩ := List.mem_filter.mp hs
  have hfit := hsound.canvas () s hmem
  have hflag : s.flag = .mark := by
    rw [hfit.flag_eq]
    exact Object.flag_of_marker? hmarker
  exact ⟨hflag, hfit.empty_iff.mpr hflag, hfit.stop_le⟩

/-- A list that is closed under an open item and an open table, and text taken out from under their
marks. -/
def crossedSteps : List (Unit × Action) :=
  [((), .write "ab".toList), ((), .offer (.startElement Markup.Renamed.orderedList.reserved [])),
    ((), .offer (.startElement Markup.Renamed.listItem.reserved [])), ((), .write "cd".toList),
    ((), .offer (.startElement "table".toList [])), ((), .offer (.startElement "td".toList [])),
    ((), .offer (.endElement Markup.Renamed.orderedList.reserved)), ((), .delete 1 4)]

theorem markers_keep_their_marks_crossedSteps :
    ∃ d : Desk Unit, (fresh {} none).run 0 crossedSteps = .ok d ∧
      d.tags.markers.map (·.kind) = [.cell, .table, .orderedItem] ∧
      (d.canvas ()).markerSpans.map (·.start) = [1, 2, 19] ∧
      (d.canvas ()).markerSpans.map (·.what) = d.tags.markers.reverse.map .marker := by
  obtain ⟨d, hrun, hkinds, hstarts⟩ : ∃ d : Desk Unit, (fresh {} none).run 0 crossedSteps = .ok d ∧
      d.tags.markers.map (·.kind) = [.cell, .table, .orderedItem] ∧
      (d.canvas ()).markerSpans.map (·.start) = [1, 2, 19] :=
    ⟨_, rfl, by decide +kernel, by decide +kernel⟩
  exact ⟨d, hrun, hkinds, hstarts, (markers_keep_their_marks {} none crossedSteps hrun).2.2.2.1⟩

end Desk

end Intercept

end StyledText
