import StyledText.Buffer.Subsequence

/-!
# Spans and the text under them

A buffer is **in bounds** when each of its spans starts where it stops or before, and stops within
the text. What becomes of one span when text is taken out, and when a range is copied, is told once:

* `Span.cut?_eq_some_iff` — both ends move, and an exclusive span that loses its width goes;
* `Span.clip?_eq_some_iff` — both ends are brought into the range, and a span that does not touch
  the range goes too.

Whatever is done to a buffer keeps it in bounds and attaches no object twice.
-/

namespace StyledText

variable {α : Type} {i j p q : Nat}

/-- An offset never passes another when a range is taken out, so a span stays the right way
round. -/
theorem shift_mono (hij : i ≤ j) (h : p ≤ q) : shift i j p ≤ shift i j q := by
  unfold shift
  grind

/-- An offset within the text lies within the text that is left when a range is taken out. -/
theorem shift_le {l : Nat} (hij : i ≤ j) (hj : j ≤ l) (hp : p ≤ l) :
    shift i j p ≤ l - (j - i) := by
  unfold shift
  grind

/-- Where the text is cut off at `i`, an offset stays, or moves back to there if it lies behind. -/
theorem shift_eq_min {l : Nat} (hp : p ≤ l) : shift i l p = min p i := by
  unfold shift
  grind

namespace Span

/-- Whether a span covers the characters from `i` up to `j`. -/
def Covers {α : Type} (i j : Nat) (s : Span α) : Prop := s.start ≤ i ∧ j ≤ s.stop

instance {α : Type} (i j : Nat) (s : Span α) : Decidable (s.Covers i j) :=
  inferInstanceAs (Decidable (_ ∧ _))

variable {s t : Span α}

/-- **Taking out.** Both ends of a span move, and it goes if it is exclusive and loses its width. -/
theorem cut?_eq_some_iff :
    s.cut? i j = some t ↔
      t = { s with start := shift i j s.start, stop := shift i j s.stop } ∧
        ¬ (s.flag = .exclusive ∧ t.start = t.stop ∧ s.start ≠ s.stop) := by
  simp only [cut?]
  constructor
  · intro h
    split at h
    next => cases h
    next hkeep =>
      cases h
      exact ⟨rfl, hkeep⟩
  · rintro ⟨rfl, hkeep⟩
    exact if_neg hkeep

/-- **Copying.** A span that touches the range has both ends brought into it, and goes if it is
exclusive and loses its width. -/
theorem clip?_eq_some_iff :
    s.clip? i j = some t ↔
      (i ≤ s.stop ∧ s.start ≤ j) ∧
        t = { s with start := max s.start i - i, stop := min s.stop j - i } ∧
        ¬ (s.flag = .exclusive ∧ t.start = t.stop ∧ s.start ≠ s.stop) := by
  simp only [clip?]
  constructor
  · intro h
    split at h
    next => cases h
    next htouches =>
      split at h
      next => cases h
      next hkeep =>
        cases h
        exact ⟨by omega, rfl, hkeep⟩
  · rintro ⟨htouches, rfl, hkeep⟩
    rw [if_neg (by omega)]
    exact if_neg hkeep

/-- A cut moves a span and leaves its object, so no object is new after a cut. -/
theorem what_of_cut? (h : s.cut? i j = some t) : t.what = s.what := by
  obtain ⟨rfl, -⟩ := cut?_eq_some_iff.mp h
  rfl

theorem flag_of_cut? (h : s.cut? i j = some t) : t.flag = s.flag := by
  obtain ⟨rfl, -⟩ := cut?_eq_some_iff.mp h
  rfl

/-- Clipping a span leaves its object too, so a copy has no object that the buffer has not. -/
theorem what_of_clip? (h : s.clip? i j = some t) : t.what = s.what := by
  obtain ⟨-, rfl, -⟩ := clip?_eq_some_iff.mp h
  rfl

theorem flag_of_clip? (h : s.clip? i j = some t) : t.flag = s.flag := by
  obtain ⟨-, rfl, -⟩ := clip?_eq_some_iff.mp h
  rfl

end Span

namespace Buffer

variable {b : Buffer α} {s : Span α}

theorem length_cut (hij : i ≤ j) (hj : j ≤ b.length) : (b.cut i j).length = b.length - (j - i) := by
  simp only [length, cut, List.length_append, List.length_take, List.length_drop] at *
  omega

theorem length_clip (i : Nat) (hj : j ≤ b.length) : (b.clip i j).length = j - i := by
  simp only [length, clip, List.length_drop, List.length_take] at *
  omega

/-- Whatever lies in the text can be taken out: the check of the range is passed, and no span is in
the way. -/
theorem delete_of_le (hij : i ≤ j) (hj : j ≤ b.length) : b.delete i j = .ok (b.cut i j) :=
  if_pos ⟨by omega, by omega, by omega⟩

/-- Whatever lies in the text can be copied, with the spans that touch it. -/
theorem subsequence_of_le (hij : i ≤ j) (hj : j ≤ b.length) :
    b.subsequence i j = .ok (b.clip i j) :=
  if_pos ⟨by omega, by omega, by omega⟩

/-! ## Bounds -/

/-- Every span starts where it stops or before, and stops within the text. -/
def InBounds (b : Buffer α) : Prop := ∀ s ∈ b.spans, s.start ≤ s.stop ∧ s.stop ≤ b.length

instance (b : Buffer α) : Decidable b.InBounds := inferInstanceAs (Decidable (∀ s ∈ b.spans, _))

/-- Text at the end keeps a buffer in bounds, since no span moves. -/
theorem InBounds.append (h : b.InBounds) (t : Text) : (b.append t).InBounds := by
  intro s hs
  obtain ⟨hle, hstop⟩ := h s hs
  exact ⟨hle, by rw [length_append]; omega⟩

/-- A cut keeps a buffer in bounds: the ends of a span move together with the text that they stand
in. -/
theorem InBounds.cut (h : b.InBounds) (hij : i ≤ j) (hj : j ≤ b.length) :
    (b.cut i j).InBounds := by
  intro t ht
  obtain ⟨s, hs, hcut⟩ := List.mem_filterMap.mp ht
  obtain ⟨hle, hstop⟩ := h s hs
  obtain ⟨rfl, -⟩ := Span.cut?_eq_some_iff.mp hcut
  rw [length_cut hij hj]
  exact ⟨shift_mono hij hle, shift_le hij hj hstop⟩

/-- So does a copy: both ends of a span are brought into the range, which is all the text of the
copy. -/
theorem InBounds.clip (h : b.InBounds) (hij : i ≤ j) (hj : j ≤ b.length) :
    (b.clip i j).InBounds := by
  intro t ht
  obtain ⟨s, hs, hclip⟩ := List.mem_filterMap.mp ht
  obtain ⟨hle, -⟩ := h s hs
  obtain ⟨htouches, rfl, -⟩ := Span.clip?_eq_some_iff.mp hclip
  rw [length_clip i hj]
  constructor <;> simp only <;> omega

/-- Taking an object off keeps the other spans where they are. -/
theorem InBounds.remove [DecidableEq α] (h : b.InBounds) (what : α) : (b.remove what).InBounds := by
  intro s hs
  exact h s (List.mem_filter.mp hs).1

/-- Attaching a span within the text keeps a buffer in bounds, whether the object is new or gets
another place. -/
theorem InBounds.place [DecidableEq α] (h : b.InBounds) (hle : s.start ≤ s.stop)
    (hstop : s.stop ≤ b.length) : (b.place s).InBounds := by
  intro t ht
  simp only [Buffer.place] at ht
  rw [length, text_place]
  split at ht
  next =>
    obtain ⟨r, hr, rfl⟩ := List.mem_map.mp ht
    split
    next => exact ⟨hle, hstop⟩
    next => exact h r hr
  next =>
    rcases List.mem_append.mp ht with ht | ht
    · exact h t ht
    · obtain rfl := List.mem_singleton.mp ht
      exact ⟨hle, hstop⟩

/-! ## Objects -/

/-- The objects that are attached, in the order of their spans; a buffer is sound if none comes
twice in it. -/
def objects (b : Buffer α) : List α := b.spans.map (·.what)

/-- Spans that keep their objects where they are kept add no object and leave the order of the
others, whatever else becomes of them. -/
theorem objects_filterMap_sublist {f : Span α → Option (Span α)}
    (hwhat : ∀ s t, f s = some t → t.what = s.what) (l : List (Span α)) :
    ((l.filterMap f).map (·.what)).Sublist (l.map (·.what)) := by
  induction l with
  | nil => exact .refl _
  | cons s rest ih =>
    cases hs : f s with
    | none =>
      rw [List.filterMap_cons_none hs]
      exact ih.cons _
    | some t =>
      rw [List.filterMap_cons_some hs, List.map_cons, List.map_cons, hwhat s t hs]
      exact ih.cons_cons _

theorem objects_cut_sublist (b : Buffer α) (i j : Nat) :
    (b.cut i j).objects.Sublist b.objects :=
  objects_filterMap_sublist (fun _ _ => Span.what_of_cut?) b.spans

theorem objects_clip_sublist (b : Buffer α) (i j : Nat) :
    (b.clip i j).objects.Sublist b.objects :=
  objects_filterMap_sublist (fun _ _ => Span.what_of_clip?) b.spans

theorem objects_remove_sublist [DecidableEq α] (b : Buffer α) (what : α) :
    (b.remove what).objects.Sublist b.objects :=
  List.filter_sublist.map _

/-- An object that is attached already keeps its place among the others; a new one comes behind
them. -/
theorem objects_place [DecidableEq α] (b : Buffer α) (s : Span α) :
    (b.place s).objects = if s.what ∈ b.objects then b.objects else b.objects ++ [s.what] := by
  have hfound : (b.find? s.what).isSome = true ↔ s.what ∈ b.objects := by
    simp [find?, objects, List.find?_isSome]
  simp only [place, hfound]
  split
  next =>
    simp only [objects, List.map_map]
    apply List.map_congr_left
    intro r _
    simp only [Function.comp]
    split
    next hsame => exact hsame.symm
    next => rfl
  next => simp [objects]

end Buffer

end StyledText
