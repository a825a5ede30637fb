import StyledText.Canvas
import StyledText.Proofs.Buffer.Bounds

/-!
# Sound canvases

A canvas is **sound** before event `n` when each of its spans fits: it lies in the text, its object
was made by an earlier event, marks have no width and styles have some (`Span.Fits`). All that is
done to a canvas keeps it sound, and on a sound canvas an object of event `n` is new, so attaching
it puts one span after all others:

* `Canvas.marked`, `Canvas.styled` — a canvas with one more mark, with some more styles;
* `markEnd_eq_marked`, `attach_eq_styled` — marking and attaching succeed and do just that.
-/

namespace StyledText

/-- What has been mapped to a success was one. Steps of the model hand their result on by `map`, and
are taken apart by this. -/
theorem exists_of_map_eq_ok {ε α β : Type} {f : α → β} {x : Except ε α} {b : β}
    (h : x.map f = .ok b) : ∃ a, x = .ok a ∧ f a = b := by
  cases x with
  | error e => cases h
  | ok a => exact ⟨a, rfl, Except.ok.inj h⟩

/-- Two steps that succeed together succeed one after another. It is the other way in which steps of
the model are put together. -/
theorem exists_of_bind_eq_ok {ε α β : Type} {f : α → Except ε β} {x : Except ε α} {b : β}
    (h : x.bind f = .ok b) : ∃ a, x = .ok a ∧ f a = .ok b := by
  cases x with
  | error e => cases h
  | ok a => exact ⟨a, rfl, h⟩

/-- The flag under which an object is attached. -/
def Object.flag : Object → Flag
  | .style .. => .exclusive
  | _ => .mark

/-- A span over a text of `length` characters whose object was made before event `n`. -/
structure Span.Fits (n length : Nat) (s : Span Object) : Prop where
  start_le : s.start ≤ s.stop
  stop_le : s.stop ≤ length
  made_lt : s.what.made < n
  flag_eq : s.flag = s.what.flag
  empty_iff : s.start = s.stop ↔ s.flag = .mark

/-- What fits a text fits a longer one, and what was made before an event was made before all later
ones. -/
theorem Span.Fits.mono {n m k l : Nat} {s : Span Object} (h : s.Fits n k) (hn : n ≤ m)
    (hl : k ≤ l) : s.Fits m l :=
  ⟨h.start_le, Nat.le_trans h.stop_le hl, Nat.lt_of_lt_of_le h.made_lt hn, h.flag_eq, h.empty_iff⟩

/-- A range with other bounds is empty just for a mark, if it stays empty where it was and is kept
as a style only with some width. -/
theorem Span.Fits.empty_iff_of_kept {n length start stop : Nat} {s : Span Object}
    (h : s.Fits n length) (hempty : s.start = s.stop → start = stop)
    (hkeep : ¬ (s.flag = .exclusive ∧ start = stop ∧ s.start ≠ s.stop)) :
    start = stop ↔ s.flag = .mark := by
  refine ⟨fun he => ?_, fun hmark => hempty (h.empty_iff.mpr hmark)⟩
  cases hflag : s.flag with
  | mark => rfl
  | exclusive =>
    have hne : s.start ≠ s.stop := fun h0 => by simpa [hflag] using h.empty_iff.mp h0
    exact absurd ⟨hflag, he, hne⟩ hkeep
  | plain =>
    have := h.flag_eq
    rw [hflag] at this
    cases hw : s.what <;> rw [hw] at this <;> cases this

namespace Canvas

/-- Every span fits the text, and its object was made before event `n`. -/
def Sound (n : Nat) (c : Canvas) : Prop := ∀ s ∈ c.spans, s.Fits n c.length

/-- The canvas with a mark at the end of the text, attached last. -/
def marked (o : Object) (c : Canvas) : Canvas :=
  { c with spans := c.spans ++ [⟨o, c.length, c.length, .mark⟩] }

/-- The spans of styles of event `n` over a range, and none over an empty one. -/
def spread (n : Nat) (styles : List Style) (start stop : Nat) : List (Span Object) :=
  if start = stop then [] else styles.map fun s => ⟨.style n s, start, stop, .exclusive⟩

/-- The canvas with styles of event `n` over a range, attached last. -/
def styled (n : Nat) (styles : List Style) (start stop : Nat) (c : Canvas) : Canvas :=
  { c with spans := c.spans ++ spread n styles start stop }

@[simp] theorem text_marked (o : Object) (c : Canvas) : (marked o c).text = c.text := rfl

@[simp] theorem text_styled (n : Nat) (styles : List Style) (start stop : Nat) (c : Canvas) :
    (styled n styles start stop c).text = c.text := rfl

@[simp] theorem spread_nil (n start stop : Nat) : spread n [] start stop = [] := by
  simp [spread]

@[simp] theorem spread_self (n : Nat) (styles : List Style) (start : Nat) :
    spread n styles start start = [] := if_pos rfl

@[simp] theorem styled_nil (n start stop : Nat) (c : Canvas) : styled n [] start stop c = c := by
  simp [styled]

@[simp] theorem styled_self (n : Nat) (styles : List Style) (start : Nat) (c : Canvas) :
    styled n styles start start c = c := by
  simp [styled]

/-- A span of those that one event spreads is that of one of its styles, over the whole range, which
is then not empty. -/
theorem mem_spread {n start stop : Nat} {styles : List Style} {s : Span Object}
    (h : s ∈ spread n styles start stop) :
    start ≠ stop ∧ ∃ style ∈ styles, s = ⟨.style n style, start, stop, .exclusive⟩ := by
  rw [spread] at h
  split at h
  next => exact absurd h (List.not_mem_nil)
  next hne =>
    obtain ⟨style, hm, rfl⟩ := List.mem_map.mp h
    exact ⟨hne, style, hm, rfl⟩

/-- Styles are spread so that they go when their text goes. -/
theorem flag_of_mem_spread {n start stop : Nat} {styles : List Style} {s : Span Object}
    (h : s ∈ spread n styles start stop) : s.flag = .exclusive := by
  obtain ⟨-, style, -, rfl⟩ := mem_spread h
  rfl

@[simp] theorem append_nil (c : Canvas) : Buffer.append c [] = c := by
  simp [Buffer.append]

/-- The newline that the last line lacks, if it lacks one. -/
def lineEnd (c : Canvas) : Text := if c.text ≠ [] ∧ c.endsWithNewline = false then ['\n'] else []

/-- Ending a line is adding what it lacks. With the text told on its own, a canvas whose line is
ended is one that is appended to. -/
theorem newline_eq_append_lineEnd (c : Canvas) : c.newline = c.append c.lineEnd := by
  unfold newline lineEnd
  split
  · rfl
  · exact (append_nil c).symm

/-- Nothing but newlines is added by that. -/
theorem eq_of_mem_lineEnd {c : Canvas} {x : Char} (h : x ∈ c.lineEnd) : x = '\n' := by
  unfold lineEnd at h
  split at h
  · exact List.mem_singleton.mp h
  · exact absurd h List.not_mem_nil

/-- Nothing happens just where there is no text or where the last line has ended already. -/
theorem newline_eq_self_iff (c : Canvas) :
    c.newline = c ↔ ¬ (c.text ≠ [] ∧ c.endsWithNewline = false) := by
  constructor
  · rintro hsame ⟨htext, hends⟩
    have hlonger := congrArg (fun c : Canvas => c.text.length) hsame
    simp [newline, htext, hends] at hlonger
  · exact fun h => if_neg h

/-- Ending a line makes some room, which is all that has to be known of it where nothing depends on
how much. -/
theorem newline_eq_room (c : Canvas) :
    ∃ t : Text, c.newline = c.append t ∧ ∀ x ∈ t, x = '\n' := by
  by_cases h : c.text ≠ [] ∧ c.endsWithNewline = false
  · exact ⟨['\n'], if_pos h, by simp⟩
  · exact ⟨[], by simp [newline, h], by simp⟩

/-- Ending a line adds to the text at most. All that is kept by `Buffer.append` is therefore kept by
it. -/
theorem newline_eq_append (c : Canvas) : ∃ t : Text, c.newline = c.append t := by
  obtain ⟨t, ht, -⟩ := c.newline_eq_room
  exact ⟨t, ht⟩

@[simp] theorem spans_newline (c : Canvas) : c.newline.spans = c.spans := by
  obtain ⟨t, ht⟩ := c.newline_eq_append
  rw [ht]
  rfl

/-- A line that has been ended ends with a newline, unless there is no text. -/
theorem getLast?_newline {c : Canvas} {x : Char} (h : c.newline.text.getLast? = some x) :
    x = '\n' := by
  unfold newline at h
  split at h
  next =>
    rw [Buffer.text_append, List.getLast?_append] at h
    exact (Option.some.inj h).symm
  next hended =>
    have hnil : c.text ≠ [] := by
      intro hnil
      rw [hnil] at h
      cases h
    have hends : Buffer.endsWithNewline c = true := by
      rw [← Bool.not_eq_false]
      exact fun hfalse => hended ⟨hnil, hfalse⟩
    simpa [Buffer.endsWithNewline, Text.endsWithNewline, h] using hends

/-! ## Attaching what is new -/

/-- No object of event `n` is attached before it. The numbers of events are what keeps one object
from being attached twice. -/
theorem Sound.what_ne {n : Nat} {c : Canvas} (h : c.Sound n) {s : Span Object} (hs : s ∈ c.spans)
    {o : Object} (ho : o.made = n) : s.what ≠ o := by
  intro he
  have := (h s hs).made_lt
  rw [he, ho] at this
  exact absurd this (Nat.lt_irrefl n)

/-- Taking an object off leaves the spans of all others, and so all of them if it has none. -/
theorem filter_what_ne {o : Object} {spans : List (Span Object)} (h : ∀ s ∈ spans, s.what ≠ o) :
    spans.filter (·.what ≠ o) = spans := by
  rw [List.filter_eq_self]
  intro s hm
  simpa using h s hm

/-- A mark that has been put down can be taken off at once, and the canvas is as before: an element
without content leaves no trace of its mark. -/
theorem Sound.remove_marked {n : Nat} {c : Canvas} (h : c.Sound n) {o : Object} (ho : o.made = n) :
    Buffer.remove (c.marked o) o = c := by
  rw [Buffer.remove, marked, List.filter_append, filter_what_ne fun s hs => h.what_ne hs ho]
  simp

/-- A new object comes after all others. One that is there already would have been moved instead, so
this is where newness is used. -/
theorem place_eq_of_new {c : Canvas} {s : Span Object} (h : ∀ r ∈ c.spans, r.what ≠ s.what) :
    c.place s = { c with spans := c.spans ++ [s] } := by
  have hf : c.find? s.what = none := by
    rw [Buffer.find?, List.find?_eq_none]
    intro r hr
    simpa using h r hr
  simp [Buffer.place, hf]

/-- Marking succeeds, since the end of the text is in the text, and puts the new mark last. -/
theorem markEnd_eq_marked {n : Nat} {o : Object} {c : Canvas} (h : c.Sound n) (ho : o.made = n) :
    c.markEnd o = .ok (c.marked o) := by
  rw [markEnd_eq, place_eq_of_new fun r hr => h.what_ne hr ho]
  rfl

/-- Attaching puts new styles last, in their order. The styles of one element have to differ, as the
second of two equal ones would only move the first. -/
theorem attach_eq_of_new {n : Nat} {styles : List Style} {start stop : Nat} (hd : styles.Nodup)
    (hlt : start < stop) :
    ∀ {c : Canvas}, stop ≤ c.length → (∀ r ∈ c.spans, ∀ s ∈ styles, r.what ≠ .style n s) →
      c.attach n styles start stop = .ok (c.styled n styles start stop) := by
  induction styles with
  | nil =>
    intro c _ _
    simp
  | cons s styles ih =>
    intro c hlen hnew
    have hw : c.Within start stop := ⟨by omega, by omega, by omega⟩
    have hset : c.set (.style n s) start stop .exclusive =
        .ok { c with spans := c.spans ++ [⟨.style n s, start, stop, .exclusive⟩] } := by
      rw [Buffer.set, if_pos hw]
      exact congrArg Except.ok
        (place_eq_of_new fun r hr => hnew r hr s (List.mem_cons_self ..))
    -- the other styles are still new, as none of them is the one just attached
    have hrest := ih (List.nodup_cons.mp hd).2
      (c := { c with spans := c.spans ++ [⟨.style n s, start, stop, .exclusive⟩] }) hlen
      (by
        intro r hr s' hs'
        rcases List.mem_append.mp hr with hr | hr
        · exact hnew r hr s' (List.mem_cons_of_mem _ hs')
        · obtain rfl := List.mem_singleton.mp hr
          intro he
          cases he
          exact (List.nodup_cons.mp hd).1 hs')
    rw [attach, List.foldlM_cons, hset]
    refine Eq.trans hrest ?_
    simp [styled, spread, Nat.ne_of_lt hlt]

/-- **Attaching succeeds** on a sound canvas, for any range of the text that is not empty and any
styles that differ. -/
theorem attach_eq_styled {n : Nat} {styles : List Style} {start stop : Nat} {c : Canvas}
    (h : c.Sound n) (hd : styles.Nodup) (hlt : start < stop) (hlen : stop ≤ c.length) :
    c.attach n styles start stop = .ok (c.styled n styles start stop) :=
  attach_eq_of_new hd hlt hlen fun _ hr _ _ => h.what_ne hr rfl

/-! ## What keeps a canvas sound -/

/-- Nothing is attached to an empty canvas, so it is sound before every event. -/
theorem sound_blank (n : Nat) : blank.Sound n := fun _ hs => absurd hs (List.not_mem_nil)

/-- A canvas that an event has left alone is sound before the next one. -/
theorem Sound.mono {n m : Nat} {c : Canvas} (h : c.Sound n) (hn : n ≤ m) : c.Sound m :=
  fun s hs => (h s hs).mono hn (Nat.le_refl _)

/-- Text that is added takes nothing away from what fits. -/
theorem Sound.append {n : Nat} {c : Canvas} (h : c.Sound n) (t : Text) : Sound n (c.append t) :=
  fun s hs => (h s hs).mono (Nat.le_refl _) (by rw [Buffer.length_append]; omega)

/-- Ending a line adds text at most. -/
theorem Sound.newline {n : Nat} {c : Canvas} (h : c.Sound n) : c.newline.Sound n := by
  obtain ⟨t, ht⟩ := c.newline_eq_append
  rw [ht]
  exact h.append t

/-- Taking an object off leaves the spans of others as they are. -/
theorem Sound.remove {n : Nat} {c : Canvas} (h : c.Sound n) (o : Object) :
    Sound n (c.remove o) :=
  fun s hs => h s ((List.mem_filter.mp hs).1)

/-- A mark of event `n` makes the canvas one that is sound before the event after it: the mark is
empty and stands at the end of the text. -/
theorem Sound.marked {n : Nat} {o : Object} {c : Canvas} (h : c.Sound n) (ho : o.made = n)
    (hf : o.flag = .mark) : (c.marked o).Sound (n + 1) := by
  intro s hs
  rcases List.mem_append.mp hs with hs | hs
  · exact (h s hs).mono (Nat.le_succ n) (Nat.le_refl _)
  · obtain rfl := List.mem_singleton.mp hs
    exact ⟨(Nat.le_refl _), (Nat.le_refl _), by simp [ho], hf.symm, by simp⟩

/-- So do styles of event `n`, over any range of the text: over an empty one there are none. -/
theorem Sound.styled {n : Nat} {styles : List Style} {start stop : Nat} {c : Canvas}
    (h : c.Sound n) (hle : start ≤ stop) (hlen : stop ≤ c.length) :
    (c.styled n styles start stop).Sound (n + 1) := by
  intro s hs
  rcases List.mem_append.mp hs with hs | hs
  · exact (h s hs).mono (Nat.le_succ n) (Nat.le_refl _)
  · obtain ⟨hne, style, -, rfl⟩ := mem_spread hs
    exact ⟨hle, hlen, Nat.lt_succ_self n, rfl, by simp [hne]⟩

/-- Where text is taken out the spans move with the rest, and a style that has lost its text goes.
So no style is left empty. -/
theorem Sound.cut {n : Nat} {c : Canvas} (h : c.Sound n) {i j : Nat} (hij : i ≤ j)
    (hj : j ≤ c.length) : Sound n (c.cut i j) := by
  intro s hs
  obtain ⟨r, hr, hcut⟩ := List.mem_filterMap.mp hs
  have hfit := h r hr
  obtain ⟨rfl, hkeep⟩ := Span.cut?_eq_some_iff.mp hcut
  rw [Buffer.length_cut hij hj]
  exact ⟨shift_mono hij hfit.start_le, shift_le hij hj hfit.stop_le, hfit.made_lt, hfit.flag_eq,
    hfit.empty_iff_of_kept (congrArg (shift i j)) hkeep⟩

end Canvas

end StyledText
