import Mathlib.Data.List.Basic
import StyledText.Buffer.View
import StyledText.Proofs.Canvas.Sound

/-!
# Growth of a canvas

What content does to the canvas it is written on, once it is complete, is small: the text gets
longer at its end, and styles come over the new part of it (`Canvas.Grows`, a preorder). All that
was there stays, the marks of the elements around included.

While an element is open its mark stands in between. `Canvas.Pending c o a c'` says that `c'` has
grown from `c` but for the mark of `o` at offset `a`. From there an end tag has two ways to go:

* `Pending.remove` — take the mark off, so that `c'` has grown from `c`;
* `Pending.take_back` — take the text behind the mark off as well. What is left of the spans are
  those of `c`, since every style over the text behind the mark goes with its text.
-/

namespace StyledText

namespace Canvas

/-- The marks, the oldest first. -/
def marks (c : Canvas) : List (Span Object) := c.spans.filter (·.flag = .mark)

/-- The styled ranges in the order in which they were attached. -/
def ranges (c : Canvas) : List (Span Object) := c.spans.filter (·.flag ≠ .mark)

/-- `c'` is `c` with more text at its end and more styles over that text. -/
structure Grows (c c' : Canvas) : Prop where
  text : c.text <+: c'.text
  spans : ∃ new, c'.spans = c.spans ++ new ∧ ∀ s ∈ new, s.flag = .exclusive ∧ c.length ≤ s.start

/-- `c'` is `c` with more text at its end, a mark of `o` at offset `a` of that text, and more styles
over the text behind the mark. -/
structure Pending (c : Canvas) (o : Object) (a : Nat) (c' : Canvas) : Prop where
  text : c.text <+: c'.text
  le : c.length ≤ a
  le_length : a ≤ c'.length
  spans : ∃ new, c'.spans = c.spans ++ ⟨o, a, a, .mark⟩ :: new ∧
    ∀ s ∈ new, s.flag = .exclusive ∧ a ≤ s.start

/-- What the tags of an element do to the marks and to the styled ranges, from `c` before its start
tag, with number `n`, to `c₁` behind it and from `c₂` before its end tag, with number `m`, to `c₃`
behind it: the start tag puts at most one mark, at the end of the text, and it does put one if there
are styles; the end tag takes this mark off, and no other, and puts `styles` over the text from
there up to `stop`, if there is any. -/
structure Resolves (n m stop : Nat) (styles : List Style) (c c₁ c₂ c₃ : Canvas) : Prop where
  opened : ∃ own, c₁.marks = c.marks ++ own ∧ own.length ≤ 1 ∧ (styles ≠ [] → own ≠ []) ∧
    ∀ s ∈ own, s.what.made = n ∧ s.start = c₁.length
  kept : c₂.marks = c₁.marks
  closed : c₃.marks = c.marks
  ranges : c₃.ranges = c₂.ranges ++ spread m styles c₁.length stop

/-! ## Growth is a preorder -/

/-- A canvas has grown from itself, by no text and no style: what content does that writes
nothing. -/
theorem Grows.refl (c : Canvas) : c.Grows c :=
  ⟨List.prefix_refl _, [], by simp, fun _ hs => absurd hs (List.not_mem_nil)⟩

/-- Growth never makes the text shorter, so an offset that lies in the old text still lies in the
new one. -/
theorem Grows.length_le {c c' : Canvas} (h : c.Grows c') : c.length ≤ c'.length := h.text.length_le

/-- Growth adds up. The styles of the second part come over text behind the first, hence over text
behind the old one as well; this carries the induction over the content. -/
theorem Grows.trans {c c' c'' : Canvas} (h : c.Grows c') (h' : c'.Grows c'') : c.Grows c'' := by
  obtain ⟨new, hs, hnew⟩ := h.spans
  obtain ⟨new', hs', hnew'⟩ := h'.spans
  refine ⟨h.text.trans h'.text, new ++ new', by rw [hs', hs, List.append_assoc], ?_⟩
  intro s hm
  rcases List.mem_append.mp hm with hm | hm
  · exact hnew s hm
  · exact ⟨(hnew' s hm).1, Nat.le_trans h.length_le (hnew' s hm).2⟩

/-- Text at the end is growth without any style. -/
theorem grows_append (c : Canvas) (t : Text) : c.Grows (c.append t) :=
  ⟨List.prefix_append _ _, [], by simp, fun _ hs => absurd hs (List.not_mem_nil)⟩

/-- The end of a line is growth: one more newline, or nothing where the text ends a line already. -/
theorem grows_newline (c : Canvas) : c.Grows c.newline := by
  obtain ⟨t, ht⟩ := c.newline_eq_append
  rw [ht]
  exact grows_append c t

/-- Styles over a range behind the old text are growth. Only the start of the range matters; where
it is empty no style is attached. -/
theorem Grows.styled {n : Nat} {styles : List Style} {start stop : Nat} {c c' : Canvas}
    (h : c.Grows c') (hle : c.length ≤ start) : c.Grows (c'.styled n styles start stop) := by
  obtain ⟨new, hs, hnew⟩ := h.spans
  refine ⟨h.text, new ++ spread n styles start stop, ?_, ?_⟩
  · rw [Canvas.styled, hs, List.append_assoc]
  · intro s hm
    rcases List.mem_append.mp hm with hm | hm
    · exact hnew s hm
    · obtain ⟨-, style, -, rfl⟩ := mem_spread hm
      exact ⟨rfl, hle⟩

/-- Among styles there are no marks, so the marks of a canvas that has grown are the old ones. -/
theorem filter_mark_of_exclusive {l : List (Span Object)} (h : ∀ s ∈ l, s.flag = .exclusive) :
    l.filter (·.flag = .mark) = [] := by
  rw [List.filter_eq_nil_iff]
  intro s hm
  simp [h s hm]

/-- All styles are ranges, so those that growth attaches come behind the old ones in the list of
ranges. -/
theorem filter_ne_mark_of_exclusive {l : List (Span Object)} (h : ∀ s ∈ l, s.flag = .exclusive) :
    l.filter (·.flag ≠ .mark) = l := by
  rw [List.filter_eq_self]
  intro s hm
  simp [h s hm]

/-- A mark is not a range: putting one down leaves the list of the styled ranges as it was. -/
theorem ranges_marked (o : Object) (c : Canvas) : (c.marked o).ranges = c.ranges := by
  simp [ranges, marked, List.filter_append]

/-- The end of a line touches no span, and so none of the ranges. -/
theorem ranges_newline (c : Canvas) : c.newline.ranges = c.ranges := by
  rw [ranges, spans_newline, ranges]

/-- Styles come after the ranges that are there, in their own order, all of them over the one range,
or none where this is empty. -/
theorem ranges_styled (n : Nat) (styles : List Style) (start stop : Nat) (c : Canvas) :
    (c.styled n styles start stop).ranges = c.ranges ++ spread n styles start stop := by
  rw [ranges, styled, List.filter_append,
    filter_ne_mark_of_exclusive fun _ hs => flag_of_mem_spread hs, ranges]

/-- Taking a mark off leaves the ranges. On a sound canvas no other span is of the same object, so
the removal meets nothing but the mark. -/
theorem ranges_remove {n : Nat} {c : Canvas} {o : Object} (hc : c.Sound n) (hf : o.flag = .mark) :
    ranges (c.remove o) = c.ranges := by
  rw [ranges, Buffer.remove, List.filter_filter, ranges]
  refine List.filter_congr fun s hs => ?_
  -- what is no mark is not the object
  have hne (h : s.flag ≠ .mark) : s.what ≠ o := fun he =>
    h ((hc s hs).flag_eq.trans (by rw [he, hf]))
  by_cases h : s.flag = .mark
  · simp [h]
  · simp [h, hne h]

/-- Growth attaches no mark and takes none off, so the elements around find their own marks where
they have left them. -/
theorem Grows.marks_eq {c c' : Canvas} (h : c.Grows c') : c'.marks = c.marks := by
  obtain ⟨new, hs, hnew⟩ := h.spans
  rw [marks, marks, hs, List.filter_append,
    filter_mark_of_exclusive fun s hm => (hnew s hm).1, List.append_nil]

/-- Growth puts new ranges behind the old ones, and all of them over text behind the old text. -/
theorem Grows.exists_ranges {c c' : Canvas} (h : c.Grows c') :
    ∃ new, c'.ranges = c.ranges ++ new ∧ ∀ s ∈ new, c.length ≤ s.start := by
  obtain ⟨new, hs, hnew⟩ := h.spans
  refine ⟨new, ?_, fun s hm => (hnew s hm).2⟩
  rw [ranges, hs, List.filter_append, filter_ne_mark_of_exclusive fun s hm => (hnew s hm).1, ranges]

/-! ## Under an open element -/

/-- A mark that is put at the end of a text that has grown is pending: this is the state behind a
start tag, once it has made room for its element. -/
theorem Pending.of_marked {c c' : Canvas} (o : Object) (ht : c.text <+: c'.text)
    (hs : c'.spans = c.spans) : c.Pending o c'.length (c'.marked o) :=
  ⟨ht, ht.length_le, Nat.le_refl _, [], by simp [marked, hs],
    fun _ hs => absurd hs (List.not_mem_nil)⟩

/-- Complete content leaves a pending mark pending. It stays at its offset, and what is attached
meanwhile lies behind it. -/
theorem Pending.grows {c c' c'' : Canvas} {o : Object} {a : Nat} (h : c.Pending o a c')
    (h' : c'.Grows c'') : c.Pending o a c'' := by
  obtain ⟨new, hs, hnew⟩ := h.spans
  obtain ⟨new', hs', hnew'⟩ := h'.spans
  refine ⟨h.text.trans h'.text, h.le, Nat.le_trans h.le_length h'.length_le, new ++ new',
    by rw [hs', hs, List.append_assoc, List.cons_append], ?_⟩
  intro s hm
  rcases List.mem_append.mp hm with hm | hm
  · exact hnew s hm
  · exact ⟨(hnew' s hm).1, Nat.le_trans h.le_length (hnew' s hm).2⟩

/-- The span of the object is its mark, so its start is where the element begins. No older span is
of this object, since its number is new. -/
theorem Pending.start?_eq {n : Nat} {c c' : Canvas} {o : Object} {a : Nat} (h : c.Pending o a c')
    (hc : c.Sound n) (ho : o.made = n) : c'.start? o = some a := by
  obtain ⟨new, hs, -⟩ := h.spans
  have hnone : c.spans.find? (·.what = o) = none := by
    rw [List.find?_eq_none]
    intro s hm
    simpa using hc.what_ne hm ho
  rw [Buffer.start?, Buffer.find?, hs, List.find?_append, hnone]
  simp

/-- The newest mark is that of the object, among all marks that it is one of; whatever the end tag
looks for, it finds the mark of its own element. -/
theorem Pending.lastMark?_eq {c c' : Canvas} {o : Object} {a : Nat} (h : c.Pending o a c')
    {p : Object → Bool} (hp : p o = true) : c'.lastMark? p = some ⟨o, a, a, .mark⟩ := by
  obtain ⟨new, hs, hnew⟩ := h.spans
  have hnone : new.reverse.find? (fun s => s.flag = .mark && p s.what) = none := by
    rw [List.find?_eq_none]
    intro s hm
    simp [(hnew s (List.mem_reverse.mp hm)).1]
  rw [Buffer.lastMark?, hs, List.reverse_append, List.reverse_cons, List.append_assoc,
    List.find?_append, hnone]
  simp [hp]

/-- Without the mark the spans are those from before and the styles that the content has attached
behind the mark. -/
theorem Pending.remove {n m : Nat} {c c' : Canvas} {o : Object} {a : Nat} (h : c.Pending o a c')
    (hc : c.Sound n) (hc' : c'.Sound m) (ho : o.made = n) (hf : o.flag = .mark) :
    ∃ new, c'.spans = c.spans ++ ⟨o, a, a, .mark⟩ :: new ∧
      (c'.remove o).spans = c.spans ++ new ∧ ∀ s ∈ new, s.flag = .exclusive ∧ a ≤ s.start := by
  obtain ⟨new, hs, hnew⟩ := h.spans
  refine ⟨new, hs, ?_, hnew⟩
  have hafter : ∀ s ∈ new, s.what ≠ o := by
    -- the flags tell a mark from what is styled
    intro s hm he
    have hflag : s.flag = s.what.flag := (hc' s (by rw [hs]; simp [hm])).flag_eq
    rw [(hnew s hm).1, he, hf] at hflag
    cases hflag
  rw [Buffer.remove, hs, List.filter_append, filter_what_ne fun s hm => hc.what_ne hm ho,
    List.filter_cons_of_neg (by simp), filter_what_ne hafter]

/-- So an end tag that takes off the pending mark of its element leaves a canvas that has grown from
the one before the start tag. -/
theorem Pending.remove_grows {n m : Nat} {c c' : Canvas} {o : Object} {a : Nat}
    (h : c.Pending o a c') (hc : c.Sound n) (hc' : c'.Sound m) (ho : o.made = n)
    (hf : o.flag = .mark) : c.Grows (c'.remove o) := by
  obtain ⟨new, -, hs, hnew⟩ := h.remove hc hc' ho hf
  exact ⟨h.text, new, hs, fun s hm => ⟨(hnew s hm).1, Nat.le_trans h.le (hnew s hm).2⟩⟩

/-- A span that ends before the place of a cut stays as it is, wherever the cut ends. -/
theorem cut?_of_stop_le {n l i j : Nat} {s : Span Object} (h : s.Fits n l) (hi : s.stop ≤ i) :
    s.cut? i j = some s := by
  have h1 : shift i j s.start = s.start := if_pos (Nat.le_trans h.start_le hi)
  have h2 : shift i j s.stop = s.stop := if_pos hi
  simp [Span.cut?, h1, h2]

/-- A style over text that is cut off goes with the text, since a style over nothing is dropped. -/
theorem cut?_of_le_start {n i j : Nat} {s : Span Object} (h : s.Fits n j) (hf : s.flag = .exclusive)
    (hi : i ≤ s.start) : s.cut? i j = none := by
  have h1 : shift i j s.start = i := by
    rw [shift_eq_min (Nat.le_trans h.start_le h.stop_le), Nat.min_eq_right hi]
  have h2 : shift i j s.stop = i := by
    rw [shift_eq_min h.stop_le, Nat.min_eq_right (Nat.le_trans hi h.start_le)]
  have hne : s.start ≠ s.stop := fun h0 => by simpa [hf] using h.empty_iff.mp h0
  simp [Span.cut?, h1, h2, hf, hne]

/-- **Taking back.** Without the text behind the mark and without the mark, the spans are those from
before. -/
theorem Pending.take_back {n m : Nat} {c c' : Canvas} {o : Object} {a : Nat} (h : c.Pending o a c')
    (hc : c.Sound n) (hc' : c'.Sound m) (ho : o.made = n) :
    Buffer.remove (c'.cut a c'.length) o = ⟨c'.text.take a, c.spans⟩ := by
  obtain ⟨new, hs, hnew⟩ := h.spans
  -- what was there before ends where the mark stands, so the cut leaves it
  have hold : c.spans.filterMap (Span.cut? a c'.length) = c.spans := by
    rw [List.filterMap_congr (g := some) fun s hm =>
      cut?_of_stop_le (hc s hm) (Nat.le_trans (hc s hm).stop_le h.le), List.filterMap_some]
  have hafter : new.filterMap (Span.cut? a c'.length) = [] := by
    rw [List.filterMap_eq_nil_iff]
    intro s hm
    exact cut?_of_le_start (hc' s (by rw [hs]; simp [hm])) (hnew s hm).1 (hnew s hm).2
  have hmark : (⟨o, a, a, .mark⟩ : Span Object).cut? a c'.length = some ⟨o, a, a, .mark⟩ := by
    simp [Span.cut?, shift]
  have hspans : (c'.cut a c'.length).spans = c.spans ++ [⟨o, a, a, .mark⟩] := by
    simp [Buffer.cut, hs, List.filterMap_append, hold, hafter, hmark]
  rw [Buffer.remove, hspans, List.filter_append, filter_what_ne fun s hm => hc.what_ne hm ho]
  simp [Buffer.cut, Buffer.length]

/-! ## The tags of an element -/

/-- An element without a mark and without styles resolves trivially: it only grows, and its end tag
touches no span. -/
theorem resolves_of_no_mark {c c₁ c₂ c₃ : Canvas} (n m stop : Nat) (h₁ : c.Grows c₁)
    (h₂ : c₁.Grows c₂) (h₃ : c₃.spans = c₂.spans) : Resolves n m stop [] c c₁ c₂ c₃ := by
  have hm : c₃.marks = c₂.marks := by rw [marks, marks, h₃]
  have hr : c₃.ranges = c₂.ranges := by rw [ranges, ranges, h₃]
  refine ⟨⟨[], ?_, Nat.zero_le 1, fun hne => absurd rfl hne,
    fun _ hs => absurd hs (List.not_mem_nil)⟩, h₂.marks_eq, ?_, ?_⟩
  · rw [h₁.marks_eq, List.append_nil]
  · rw [hm, h₂.marks_eq, h₁.marks_eq]
  · rw [hr, spread_nil, List.append_nil]

/-- The end of a line before the end tag, as items have it, makes no difference to what the tags of
the element do. -/
theorem Resolves.of_newline {n m stop : Nat} {styles : List Style} {c c₁ c₂ c₃ : Canvas}
    (h : Resolves n m stop styles c c₁ c₂.newline c₃) : Resolves n m stop styles c c₁ c₂ c₃ := by
  have hk := h.kept
  have hr := h.ranges
  rw [marks, spans_newline] at hk
  rw [Canvas.ranges, Canvas.ranges, spans_newline] at hr
  exact ⟨h.opened, hk, h.closed, hr⟩

/-- An element with a mark: it is put down at the end of the text behind the start tag and is
pending until the end tag, which takes it off and styles the text from there on. -/
theorem resolves_of_marked {n m k stop : Nat} {styles : List Style} {o : Object}
    {c c' c₂ c₃ : Canvas} (hc : c.Sound n) (ho : o.made = n) (hf : o.flag = .mark)
    (ht : c.text <+: c'.text) (hs : c'.spans = c.spans) (h₂ : (c'.marked o).Grows c₂)
    (hc₂ : c₂.Sound k)
    (h₃ : c₃.spans = (Buffer.remove c₂ o).spans ++ spread m styles c'.length stop) :
    Resolves n m stop styles c (c'.marked o) c₂ c₃ := by
  obtain ⟨new, hspans, hremove, hnew⟩ :=
    ((Pending.of_marked o ht hs).grows h₂).remove hc hc₂ ho hf
  have hnew : ∀ s ∈ new, s.flag = .exclusive := fun s hm => (hnew s hm).1
  have hadded : ∀ s ∈ spread m styles c'.length stop, s.flag = .exclusive :=
    fun _ hs => flag_of_mem_spread hs
  rw [hremove] at h₃
  refine ⟨⟨[⟨o, c'.length, c'.length, .mark⟩], ?_, Nat.le_refl 1,
    fun _ => List.cons_ne_nil _ _, ?_⟩, h₂.marks_eq, ?_, ?_⟩
  · simp [marks, marked, hs, List.filter_append]
  · intro s hm
    obtain rfl := List.mem_singleton.mp hm
    exact ⟨ho, rfl⟩
  · rw [marks, h₃, List.filter_append, List.filter_append, filter_mark_of_exclusive hnew,
      filter_mark_of_exclusive hadded, List.append_nil, List.append_nil, marks]
  · rw [ranges, h₃, ranges, hspans, List.filter_append, List.filter_append, List.filter_append,
      List.filter_cons_of_neg (by simp), filter_ne_mark_of_exclusive hadded]
    rfl

end Canvas

end StyledText
