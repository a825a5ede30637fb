import StyledText.Buffer.Shelf
import StyledText.Proofs.Buffer.Bounds

/-!
# Characters and the objects over them

What a reader sees of a buffer are its **cells**: the characters, each with the objects whose spans
cover it, in the order of attachment. Taking a range out and copying a range move and clip the spans
in different ways, but both are cuts of the list of cells: a character that stays, and one that is
copied, keeps the objects over it.

* `Span.exists_cut?_covers_iff`, `Span.exists_clip?_covers_iff` — what one span covers afterwards;
* `Buffer.cells_cut`, `Buffer.cells_clip` — the cells that are left and those that are copied;
* `Buffer.mem_objects_cut_iff` — which objects stay.
-/

namespace StyledText

variable {α : Type} {i j k m p q : Nat}

/-- In front of what is taken out an offset stays on its side of a character. -/
theorem shift_le_iff_of_lt (hij : i ≤ j) (hm : m < i) : shift i j p ≤ m ↔ p ≤ m := by
  unfold shift
  grind

/-- So it does behind what is taken out, where the character moves. -/
theorem shift_le_iff_of_le (hij : i ≤ j) (hm : i ≤ m) : shift i j p ≤ m ↔ p ≤ j + (m - i) := by
  unfold shift
  grind

/-- Two offsets come together just if all between them is taken out. -/
theorem shift_eq_shift_iff (hij : i ≤ j) (hlt : p < q) :
    shift i j p = shift i j q ↔ i ≤ p ∧ q ≤ j := by
  unfold shift
  grind

namespace Span

variable {s : Span α}

/-- Where a character moves from `k` to `m` and offsets stay on their side of it, a span covers it
afterwards just if it covered it before. -/
theorem exists_cut?_covers_iff (h : ∀ p, shift i j p ≤ m ↔ p ≤ k) :
    (∃ t, s.cut? i j = some t ∧ t.Covers m (m + 1)) ↔ s.Covers k (k + 1) := by
  have hstop' (p : Nat) : m < shift i j p ↔ k < p := by
    rw [← Nat.not_le, ← Nat.not_le, h p]
  constructor
  · rintro ⟨t, ht, hstart, hstop⟩
    obtain ⟨rfl, -⟩ := cut?_eq_some_iff.mp ht
    exact ⟨(h s.start).mp hstart, (hstop' s.stop).mp hstop⟩
  · rintro ⟨hstart, hstop⟩
    refine ⟨_, cut?_eq_some_iff.mpr ⟨rfl, ?_⟩, (h s.start).mpr hstart, (hstop' s.stop).mpr hstop⟩
    -- a span over a character has some width, so it is kept
    rintro ⟨-, hempty, -⟩
    have hstart₁ := (h s.start).mpr hstart
    have hstop₁ := (hstop' s.stop).mpr hstop
    simp only at hempty
    omega

/-- A span covers a copied character just if it covers the character in the source. -/
theorem exists_clip?_covers_iff (hk : i + k < j) :
    (∃ t, s.clip? i j = some t ∧ t.Covers k (k + 1)) ↔ s.Covers (i + k) (i + k + 1) := by
  constructor
  · rintro ⟨t, ht, hstart, hstop⟩
    obtain ⟨-, rfl, -⟩ := clip?_eq_some_iff.mp ht
    simp only at hstart hstop
    constructor <;> omega
  · rintro ⟨hstart, hstop⟩
    refine ⟨_, clip?_eq_some_iff.mpr ⟨⟨by omega, by omega⟩, rfl, ?_⟩, ?_, ?_⟩
    · rintro ⟨-, hempty, -⟩
      simp only at hempty
      omega
    · simp only
      omega
    · simp only
      omega

/-- A span that is exclusive, has some width and covers nothing but the characters from `i` up to
`j`. -/
structure OnlyOver (i j : Nat) (s : Span α) : Prop where
  flag_eq : s.flag = .exclusive
  start_lt : s.start < s.stop
  within : ∀ k, s.Covers k (k + 1) → i ≤ k ∧ k < j

/-- Such a span stands between the ends of the range, and no other does that goes. -/
theorem onlyOver_iff (hle : s.start ≤ s.stop) (hij : i ≤ j) :
    s.OnlyOver i j ↔
      s.flag = .exclusive ∧ shift i j s.start = shift i j s.stop ∧ s.start ≠ s.stop := by
  constructor
  · rintro ⟨hflag, hlt, hwithin⟩
    have hfirst := hwithin s.start ⟨Nat.le_refl _, hlt⟩
    have hlast := hwithin (s.stop - 1) ⟨by omega, by omega⟩
    exact ⟨hflag, (shift_eq_shift_iff hij hlt).mpr ⟨hfirst.1, by omega⟩, Nat.ne_of_lt hlt⟩
  · rintro ⟨hflag, hshift, hne⟩
    have hlt : s.start < s.stop := Nat.lt_of_le_of_ne hle hne
    obtain ⟨hi, hj⟩ := (shift_eq_shift_iff hij hlt).mp hshift
    refine ⟨hflag, hlt, ?_⟩
    rintro k ⟨hstart, hstop⟩
    exact ⟨Nat.le_trans hi hstart, Nat.lt_of_lt_of_le hstop hj⟩

/-- What goes when a range is taken out. -/
theorem cut?_eq_none_iff (hle : s.start ≤ s.stop) (hij : i ≤ j) :
    s.cut? i j = none ↔ s.OnlyOver i j := by
  rw [onlyOver_iff hle hij]
  simp [cut?]

end Span

namespace Buffer

variable {b b' : Buffer α}

/-- The objects over a character, in the order in which they were attached. -/
def objectsAt (b : Buffer α) (k : Nat) : List α :=
  (b.spans.filter (·.Covers k (k + 1))).map (·.what)

/-- The characters, each with the objects over it. -/
def cells (b : Buffer α) : List (Char × List α) := b.text.mapIdx fun k c => (c, b.objectsAt k)

theorem getElem?_cells (b : Buffer α) (k : Nat) :
    b.cells[k]? = b.text[k]?.map fun c => (c, b.objectsAt k) := by
  simp [cells]

/-- Spans that keep their objects, and cover one character as they covered another before, leave the
objects over it. -/
theorem map_what_filterMap {f : Span α → Option (Span α)}
    (hwhat : ∀ s t, f s = some t → t.what = s.what)
    (hcovers : ∀ s, (∃ t, f s = some t ∧ t.Covers m (m + 1)) ↔ s.Covers k (k + 1))
    (l : List (Span α)) :
    ((l.filterMap f).filter (·.Covers m (m + 1))).map (·.what) =
      (l.filter (·.Covers k (k + 1))).map (·.what) := by
  induction l with
  | nil => rfl
  | cons s rest ih =>
    have hs := hcovers s
    cases hf : f s with
    | none =>
      have hnot : ¬ s.Covers k (k + 1) := by simpa [hf] using hs
      rw [List.filterMap_cons_none hf, List.filter_cons_of_neg (by simpa using hnot), ih]
    | some t =>
      rw [List.filterMap_cons_some hf]
      have hiff : t.Covers m (m + 1) ↔ s.Covers k (k + 1) := by simpa [hf] using hs
      by_cases hk : s.Covers k (k + 1)
      · rw [List.filter_cons_of_pos (by simpa [hiff] using hk),
          List.filter_cons_of_pos (by simpa using hk), List.map_cons, List.map_cons, ih,
          hwhat s t hf]
      · rw [List.filter_cons_of_neg (by simpa [hiff] using hk),
          List.filter_cons_of_neg (by simpa using hk), ih]

theorem objectsAt_cut (h : ∀ p, shift i j p ≤ m ↔ p ≤ k) :
    (b.cut i j).objectsAt m = b.objectsAt k :=
  map_what_filterMap (fun _ _ => Span.what_of_cut?) (fun _ => Span.exists_cut?_covers_iff h) b.spans

theorem objectsAt_clip (hk : i + k < j) : (b.clip i j).objectsAt k = b.objectsAt (i + k) :=
  map_what_filterMap (fun _ _ => Span.what_of_clip?) (fun _ => Span.exists_clip?_covers_iff hk)
    b.spans

/-- **Taking out.** The cells in front of the range and those behind it are left as they are. -/
theorem cells_cut (hij : i ≤ j) (hj : j ≤ b.length) :
    (b.cut i j).cells = b.cells.take i ++ b.cells.drop j := by
  apply List.ext_getElem?
  intro m
  have htext : (b.text.take i).length = i := by
    rw [List.length_take]
    exact Nat.min_eq_left (Nat.le_trans hij hj)
  have hcells : (b.cells.take i).length = i := by
    rw [List.length_take, cells, List.length_mapIdx]
    exact Nat.min_eq_left (Nat.le_trans hij hj)
  rw [getElem?_cells, text_cut]
  rcases Nat.lt_or_ge m i with hm | hm
  · rw [objectsAt_cut fun p => shift_le_iff_of_lt hij hm,
      List.getElem?_append_left (htext.symm ▸ hm), List.getElem?_take_of_lt hm,
      List.getElem?_append_left (hcells.symm ▸ hm), List.getElem?_take_of_lt hm, getElem?_cells]
  · rw [objectsAt_cut fun p => shift_le_iff_of_le hij hm,
      List.getElem?_append_right (htext.symm ▸ hm), htext, List.getElem?_drop,
      List.getElem?_append_right (hcells.symm ▸ hm), hcells, List.getElem?_drop, getElem?_cells]

/-- **Copying.** The cells of the range are copied as they are. -/
theorem cells_clip (b : Buffer α) (i j : Nat) : (b.clip i j).cells = (b.cells.take j).drop i := by
  apply List.ext_getElem?
  intro k
  rw [getElem?_cells, text_clip, List.getElem?_drop, List.getElem?_drop]
  rcases Nat.lt_or_ge (i + k) j with hk | hk
  · rw [objectsAt_clip hk, List.getElem?_take_of_lt hk, List.getElem?_take_of_lt hk, getElem?_cells]
  · rw [List.getElem?_take_eq_none hk, List.getElem?_take_eq_none hk]
    rfl

/-- The objects that stay have a span that covers more than the range, has no width or is not
exclusive. -/
theorem mem_objects_cut_iff (h : b.InBounds) (hij : i ≤ j) {x : α} :
    x ∈ (b.cut i j).objects ↔ ∃ s ∈ b.spans, s.what = x ∧ ¬ s.OnlyOver i j := by
  constructor
  · intro hx
    obtain ⟨t, ht, rfl⟩ := List.mem_map.mp hx
    obtain ⟨s, hs, hcut⟩ := List.mem_filterMap.mp ht
    refine ⟨s, hs, (Span.what_of_cut? hcut).symm, fun hlost => ?_⟩
    rw [(Span.cut?_eq_none_iff (h s hs).1 hij).mpr hlost] at hcut
    cases hcut
  · rintro ⟨s, hs, rfl, hkept⟩
    cases hcut : s.cut? i j with
    | none => exact absurd ((Span.cut?_eq_none_iff (h s hs).1 hij).mp hcut) hkept
    | some t =>
      exact List.mem_map.mpr ⟨t, List.mem_filterMap.mpr ⟨s, hs, hcut⟩, Span.what_of_cut? hcut⟩

/-- A copy is put behind all other buffers, which stay as they are. -/
theorem call_subsequence [DecidableEq α] {shelf : Shelf α} {n : Nat} (hb : shelf[n]? = some b)
    (hij : i ≤ j) (hj : j ≤ b.length) :
    shelf.call n (.subsequence i j) = (none, shelf ++ [b.clip i j]) := by
  have hperform : (Call.subsequence i j).perform b = .ok (b, some (b.clip i j)) := by
    rw [Call.perform, subsequence_of_le hij hj]
    rfl
  have hset : shelf.set n b = shelf := by
    obtain ⟨hn, hget⟩ := List.getElem?_eq_some_iff.mp hb
    rw [← hget, List.set_getElem_self]
  rw [Shelf.call_of_ok hb hperform, hset]
  rfl

/-- **Cutting text leaves the styling of what remains.** For every buffer in bounds and every range
of its text: when the range is taken out, each character that is left has the same objects over it
as before, and an object goes just if all that stands for it is exclusive, had some width and
covered nothing but characters of the range. When the range is copied, each character of the copy
has the same objects over it as in the source, and the source stays as it is, as do all other
buffers. -/
theorem cells_survive_cuts [DecidableEq α] (hb : b.InBounds) (hij : i ≤ j) (hj : j ≤ b.length) :
    (∃ rest, b.delete i j = .ok rest ∧
      rest.cells = b.cells.take i ++ b.cells.drop j ∧
      ∀ x, x ∈ rest.objects ↔ ∃ s ∈ b.spans, s.what = x ∧ ¬ s.OnlyOver i j) ∧
    ∃ part, b.subsequence i j = .ok part ∧
      part.cells = (b.cells.take j).drop i ∧
      ∀ (shelf : Shelf α) (n : Nat), shelf[n]? = some b →
        shelf.call n (.subsequence i j) = (none, shelf ++ [part]) := by
  constructor
  · refine ⟨b.cut i j, delete_of_le hij hj, cells_cut hij hj, ?_⟩
    intro x
    exact mem_objects_cut_iff hb hij
  · refine ⟨b.clip i j, subsequence_of_le hij hj, cells_clip b i j, ?_⟩
    intro shelf n hn
    exact call_subsequence hn hij hj

theorem cells_survive_cuts_touchingSpans :
    let b : Buffer Nat := ⟨"abcdef".toList,
      [⟨0, 0, 2, .exclusive⟩, ⟨1, 1, 5, .exclusive⟩, ⟨2, 2, 4, .exclusive⟩, ⟨3, 2, 4, .plain⟩,
        ⟨4, 3, 3, .exclusive⟩, ⟨5, 3, 3, .mark⟩, ⟨6, 3, 6, .exclusive⟩]⟩
    b.InBounds ∧ 2 ≤ 4 ∧ 4 ≤ b.length ∧
    (∃ rest, b.delete 2 4 = .ok rest ∧
      rest.cells = [('a', [0]), ('b', [0, 1]), ('e', [1, 6]), ('f', [6])] ∧
      2 ∉ rest.objects ∧ 3 ∈ rest.objects ∧ 4 ∈ rest.objects) ∧
    ∃ part, b.subsequence 2 4 = .ok part ∧
      part.cells = [('c', [1, 2, 3]), ('d', [1, 2, 3, 6])] := by
  intro b
  have hb : b.InBounds := by decide
  have hij : 2 ≤ 4 := by decide
  have hj : 4 ≤ b.length := by decide
  obtain ⟨⟨rest, hdelete, hrest, hobjects⟩, part, hcopy, hpart, -⟩ := cells_survive_cuts hb hij hj
  refine ⟨hb, hij, hj, ⟨rest, hdelete, hrest.trans (by decide), ?_, ?_, ?_⟩, part, hcopy,
    hpart.trans (by decide)⟩
  · rw [hobjects]
    rintro ⟨s, hs, hwhat, hstays⟩
    have honly : ∀ s ∈ b.spans, s.what = 2 → s = ⟨2, 2, 4, .exclusive⟩ := by decide
    obtain rfl := honly s hs hwhat
    exact hstays ⟨rfl, by decide, fun k hk => hk⟩
  · exact (hobjects 3).mpr ⟨⟨3, 2, 4, .plain⟩, by decide, rfl, fun h => by cases h.flag_eq⟩
  · exact (hobjects 4).mpr ⟨⟨4, 3, 3, .exclusive⟩, by decide, rfl,
      fun h => absurd h.start_lt (by decide)⟩

end Buffer

end StyledText
