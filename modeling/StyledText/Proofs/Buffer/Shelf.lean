import Mathlib.Data.List.Nodup
import StyledText.Buffer.Shelf
import StyledText.Proofs.Buffer.Bounds

/-!
# What calls leave of the buffers on a shelf

Whatever calls are made on the buffers of a shelf, in whatever order and however many of them are
refused, each buffer stays **well formed**: its spans lie in its text, and no object is attached
twice. A call is refused just if it names a range that does not lie in the text, and then nothing
has changed.

An entry without width keeps that, in its buffer and in every copy, until its object is set again
(`Shelf.Carries`, `Shelf.Carries.flat`). All of this rests on what one call can do to one buffer
(`Call.Performs`).
-/

namespace StyledText

namespace Buffer

variable {α : Type}

/-- What holds of the spans of every buffer: they lie in its text, and no object is attached by two
of them. -/
structure WellFormed (b : Buffer α) : Prop where
  inBounds : b.InBounds
  nodup : b.objects.Nodup

/-- A buffer that is made of a text has no spans, so nothing can be wrong with it. -/
theorem wellFormed_ofText (t : Text) : (ofText t : Buffer α).WellFormed :=
  ⟨fun _ hs => absurd hs List.not_mem_nil, List.nodup_nil⟩

/-- What stands for an object has no width; so does nothing, if the object is not attached. -/
def Flat (what : α) (b : Buffer α) : Prop := ∀ s ∈ b.spans, s.what = what → s.start = s.stop

/-- As an object is attached once at most, one span without width is enough. -/
theorem WellFormed.flat {b : Buffer α} (h : b.WellFormed) {s : Span α} (hs : s ∈ b.spans)
    (hempty : s.start = s.stop) : b.Flat s.what := by
  intro t ht hwhat
  obtain rfl := List.inj_on_of_nodup_map h.nodup ht hs hwhat
  exact hempty

namespace Call

/-- The range that a call names. -/
def range? : Call α → Option (Int × Int)
  | append _ => none
  | delete start stop => some (start, stop)
  | set _ start stop _ => some (start, stop)
  | remove _ => none
  | subsequence start stop => some (start, stop)

/-- Whether a call attaches an object, or moves it. -/
def Sets (what : α) : Call α → Prop
  | set what' .. => what' = what
  | _ => False

/-- The offsets of a range of the text are natural numbers. -/
theorem exists_of_within {b : Buffer α} {start stop : Int} (h : b.Within start stop) :
    ∃ i j : Nat, start = i ∧ stop = j ∧ i ≤ j ∧ j ≤ b.length := by
  obtain ⟨hstart, hle, hstop⟩ := h
  exact ⟨start.toNat, stop.toNat, by omega, by omega, by omega, by omega⟩

variable [DecidableEq α]

/-- What a call that is not refused makes of a buffer, and the copy that it makes. -/
inductive Performs (b : Buffer α) : Call α → Buffer α → Option (Buffer α) → Prop
  | append (t : Text) : Performs b (.append t) (b.append t) none
  | delete {i j : Nat} (hij : i ≤ j) (hj : j ≤ b.length) :
      Performs b (.delete i j) (b.cut i j) none
  | set (what : α) {i j : Nat} (hij : i ≤ j) (hj : j ≤ b.length) (flag : Flag) :
      Performs b (.set what i j flag) (b.place ⟨what, i, j, flag⟩) none
  | remove (what : α) : Performs b (.remove what) (b.remove what) none
  | subsequence {i j : Nat} (hij : i ≤ j) (hj : j ≤ b.length) :
      Performs b (.subsequence i j) b (some (b.clip i j))

variable {c : Call α} {b b' : Buffer α} {part? : Option (Buffer α)}

/-- A call that is not refused has done one of these things, with a range of natural numbers that
lies in the text. -/
theorem performs_of_perform (h : c.perform b = .ok (b', part?)) : c.Performs b b' part? := by
  cases c with
  | append t =>
    cases h
    exact .append t
  | delete start stop =>
    simp only [perform, Buffer.delete] at h
    split at h
    next hwithin =>
      obtain ⟨i, j, rfl, rfl, hij, hj⟩ := exists_of_within hwithin
      cases h
      exact .delete hij hj
    next => cases h
  | set what start stop flag =>
    simp only [perform, Buffer.set] at h
    split at h
    next hwithin =>
      obtain ⟨i, j, rfl, rfl, hij, hj⟩ := exists_of_within hwithin
      cases h
      exact .set what hij hj flag
    next => cases h
  | remove what =>
    cases h
    exact .remove what
  | subsequence start stop =>
    simp only [perform, Buffer.subsequence] at h
    split at h
    next hwithin =>
      obtain ⟨i, j, rfl, rfl, hij, hj⟩ := exists_of_within hwithin
      cases h
      exact .subsequence hij hj
    next => cases h

/-- **A call is refused** just if it names a range that does not lie in the text. -/
theorem exists_perform_error_iff :
    (∃ e, c.perform b = .error e) ↔
      ∃ start stop, c.range? = some (start, stop) ∧ ¬ b.Within start stop := by
  cases c with
  | append t => simp [perform, range?]
  | delete start stop =>
    simp only [perform, range?, Buffer.delete]
    split <;> simp_all [Except.map]
  | set what start stop flag =>
    simp only [perform, range?, Buffer.set]
    split <;> simp_all [Except.map]
  | remove what => simp [perform, range?]
  | subsequence start stop =>
    simp only [perform, range?, Buffer.subsequence]
    split <;> simp_all [Except.map]

/-- **A call keeps a buffer well formed**, and makes none that is not. -/
theorem Performs.wellFormed (h : c.Performs b b' part?) (hb : b.WellFormed) :
    b'.WellFormed ∧ ∀ part ∈ part?, part.WellFormed := by
  cases h with
  | append t => exact ⟨⟨hb.inBounds.append t, hb.nodup⟩, by simp⟩
  | @delete i j hij hj =>
    exact ⟨⟨hb.inBounds.cut hij hj, hb.nodup.sublist (objects_cut_sublist b i j)⟩, by simp⟩
  | set what hij hj flag =>
    refine ⟨⟨hb.inBounds.place hij hj, ?_⟩, by simp⟩
    rw [objects_place]
    split
    next => exact hb.nodup
    next hnew =>
      rw [← List.concat_eq_append]
      exact hb.nodup.concat hnew
  | remove what =>
    exact ⟨⟨hb.inBounds.remove what, hb.nodup.sublist (objects_remove_sublist b what)⟩, by simp⟩
  | @subsequence i j hij hj =>
    refine ⟨hb, fun part hpart => ?_⟩
    obtain rfl := Option.mem_some.mp hpart
    exact ⟨hb.inBounds.clip hij hj, hb.nodup.sublist (objects_clip_sublist b i j)⟩

/-- **What has no width gets none**, in the buffer or in a copy, unless its object is set. -/
theorem Performs.flat {what : α} (h : c.Performs b b' part?) (hnot : ¬ c.Sets what)
    (hb : b.Flat what) : b'.Flat what ∧ ∀ part ∈ part?, part.Flat what := by
  cases h with
  | append t => exact ⟨hb, by simp⟩
  | @delete i j hij hj =>
    refine ⟨fun t ht hwhat => ?_, by simp⟩
    obtain ⟨s, hs, hcut⟩ := List.mem_filterMap.mp ht
    -- both ends of a span go to the same place if they are at one
    obtain ⟨rfl, -⟩ := Span.cut?_eq_some_iff.mp hcut
    exact congrArg (shift i j) (hb s hs hwhat)
  | set what' hij hj flag =>
    refine ⟨fun t ht hwhat => ?_, by simp⟩
    simp only [place] at ht
    split at ht
    next =>
      obtain ⟨r, hr, rfl⟩ := List.mem_map.mp ht
      split at hwhat
      next => exact absurd hwhat hnot
      next hother =>
        rw [if_neg hother]
        exact hb r hr hwhat
    next =>
      rcases List.mem_append.mp ht with ht | ht
      · exact hb t ht hwhat
      · obtain rfl := List.mem_singleton.mp ht
        exact absurd hwhat hnot
  | remove what' => exact ⟨fun t ht => hb t (List.mem_filter.mp ht).1, by simp⟩
  | @subsequence i j hij hj =>
    refine ⟨hb, fun part hpart t ht hwhat => ?_⟩
    obtain rfl := Option.mem_some.mp hpart
    obtain ⟨s, hs, hclip⟩ := List.mem_filterMap.mp ht
    obtain ⟨htouches, rfl, -⟩ := Span.clip?_eq_some_iff.mp hclip
    -- both ends are brought into the range, which they touch
    have hempty := hb s hs hwhat
    simp only
    omega

end Call

namespace Shelf

variable [DecidableEq α] {shelf : Shelf α} {calls : List (Nat × Call α)} {c : Call α} {b : Buffer α}
  {what : α} {i j k : Nat}

/-- What a call does to a shelf: nothing, or what it does to one of the buffers. -/
theorem call_cases (i : Nat) (c : Call α) (shelf : Shelf α) :
    (shelf.call i c).2 = shelf ∧ ((shelf.call i c).1 = none → shelf[i]? = none) ∨
      ∃ b b' part?, shelf[i]? = some b ∧ c.Performs b b' part? ∧
        shelf.call i c = (none, shelf.set i b' ++ part?.toList) := by
  rcases hb : shelf[i]? with _ | b
  · rw [call_of_none hb]
    exact .inl ⟨rfl, fun _ => rfl⟩
  · rcases hc : c.perform b with e | ⟨b', part?⟩
    · rw [call_of_error hb hc]
      exact .inl ⟨rfl, fun hnone => by cases hnone⟩
    · exact .inr ⟨b, b', part?, rfl, Call.performs_of_perform hc, call_of_ok hb hc⟩

/-- A call on a buffer is refused just if it names a range that does not lie in the text. -/
theorem call_refused_iff (hb : shelf[i]? = some b) :
    (shelf.call i c).1 ≠ none ↔
      ∃ start stop, c.range? = some (start, stop) ∧ ¬ b.Within start stop := by
  rw [← Call.exists_perform_error_iff]
  rcases hc : c.perform b with e | ⟨b', part?⟩
  · rw [call_of_error hb hc]
    simp
  · rw [call_of_ok hb hc]
    simp

/-- A refused call changes no buffer of the shelf, and so it is as if it had not been made. -/
theorem call_of_refused (h : (shelf.call i c).1 ≠ none) : (shelf.call i c).2 = shelf := by
  rcases call_cases i c shelf with ⟨hsame, -⟩ | ⟨b, b', part?, -, -, hcall⟩
  · exact hsame
  · rw [hcall] at h
    exact absurd rfl h

/-- One call keeps all buffers well formed, and the copy that it may put on the shelf is so too. -/
theorem wellFormed_call (h : ∀ b ∈ shelf, b.WellFormed) :
    ∀ b ∈ (shelf.call i c).2, b.WellFormed := by
  rcases call_cases i c shelf with ⟨hsame, -⟩ | ⟨b, b', part?, hb, hperforms, hcall⟩
  · rw [hsame]
    exact h
  · obtain ⟨hb', hpart⟩ := hperforms.wellFormed (h b (List.mem_of_getElem? hb))
    rw [hcall]
    intro r hr
    rcases List.mem_append.mp hr with hr | hr
    · rcases List.mem_or_eq_of_mem_set hr with hr | rfl
      · exact h r hr
      · exact hb'
    · exact hpart r (Option.mem_toList.mp hr)

/-- **Calls keep all buffers well formed**, by induction over them, whichever of them are
refused. -/
theorem wellFormed_run (h : ∀ b ∈ shelf, b.WellFormed) : ∀ b ∈ run calls shelf, b.WellFormed := by
  induction calls generalizing shelf with
  | nil => exact h
  | cons step calls ih => exact ih (wellFormed_call h)

/-! ## Entries without width -/

/-- What stands for an object in buffer `i` is what stands for it in buffer `j` after the calls: it
has been there all along or has come there by copies, and the object has not been set on the way. -/
inductive Carries (what : α) : Shelf α → List (Nat × Call α) → Nat → Nat → Prop
  | done (shelf : Shelf α) (i : Nat) : Carries what shelf [] i i
  | stay {shelf : Shelf α} {k : Nat} {c : Call α} {calls : List (Nat × Call α)} {i j : Nat}
      (hset : k = i → c.Sets what → (shelf.call k c).1 ≠ none)
      (hrest : Carries what (shelf.call k c).2 calls i j) :
      Carries what shelf ((k, c) :: calls) i j
  | copy {shelf : Shelf α} {start stop : Int} {calls : List (Nat × Call α)} {i j : Nat}
      (hdone : (shelf.call i (.subsequence start stop)).1 = none)
      (hrest : Carries what (shelf.call i (.subsequence start stop)).2 calls shelf.length j) :
      Carries what shelf ((i, .subsequence start stop) :: calls) i j

/-- Buffer `i` is there, and what stands for an object in it has no width. -/
def HasFlat (what : α) (shelf : Shelf α) (i : Nat) : Prop := ∃ b, shelf[i]? = some b ∧ b.Flat what

/-- One call leaves what has no width without, unless it sets the object in this buffer and is not
refused. -/
theorem HasFlat.stay (h : HasFlat what shelf i)
    (hset : k = i → c.Sets what → (shelf.call k c).1 ≠ none) :
    HasFlat what (shelf.call k c).2 i := by
  rcases call_cases k c shelf with ⟨hsame, -⟩ | ⟨b, b', part?, hb, hperforms, hcall⟩
  · rw [hsame]
    exact h
  · obtain ⟨r, hr, hflat⟩ := h
    have hi : i < (shelf.set k b').length := by
      rw [List.length_set]
      exact (List.getElem?_eq_some_iff.mp hr).1
    rw [hcall]
    simp only [HasFlat]
    rw [List.getElem?_append_left hi]
    by_cases hki : k = i
    · subst hki
      obtain rfl := Option.some.inj (hb.symm.trans hr)
      have hnot : ¬ c.Sets what := fun hsets => hset rfl hsets (by rw [hcall])
      exact ⟨b', List.getElem?_set_self (by simpa using hi), (hperforms.flat hnot hflat).1⟩
    · exact ⟨r, by rw [List.getElem?_set_ne hki, hr], hflat⟩

/-- So does a copy, which comes behind all the buffers that are there. -/
theorem HasFlat.copy {start stop : Int} (h : HasFlat what shelf i)
    (hdone : (shelf.call i (.subsequence start stop)).1 = none) :
    HasFlat what (shelf.call i (.subsequence start stop)).2 shelf.length := by
  obtain ⟨r, hr, hflat⟩ := h
  rcases call_cases i (.subsequence start stop) shelf with
    ⟨-, hnone⟩ | ⟨b, b', part?, hb, hperforms, hcall⟩
  · cases (hnone hdone).symm.trans hr
  · obtain rfl := Option.some.inj (hb.symm.trans hr)
    have hcopy : ∀ part ∈ part?, part.Flat what := (hperforms.flat id hflat).2
    rw [hcall]
    cases hperforms with
    | @subsequence i' j' hij hj =>
      refine ⟨b.clip i' j', ?_, hcopy _ (Option.mem_some_self _)⟩
      rw [List.getElem?_append_right (by simp)]
      simp

/-- **What has no width gets none** on the way, unless its object is set. By induction over the
calls, through every copy on the way. -/
theorem Carries.flat (h : Carries what shelf calls i j) (hi : HasFlat what shelf i) :
    HasFlat what (run calls shelf) j := by
  induction h with
  | done shelf i => exact hi
  | stay hset _ ih => exact ih (hi.stay hset)
  | copy hdone _ ih => exact ih (hi.copy hdone)

/-- **What holds of all buffers.** After every run of calls on buffers that began without spans,
with whatever offsets and however many of the calls refused: every span lies in its text and no
object is attached twice in one buffer. A call is refused just if the range that it names does not
lie in the text, and then nothing has changed. And a span without width gets none until its object
is set again, neither in its buffer nor in copies. -/
theorem spans_fit_after_calls (texts : List Text) (calls : List (Nat × Call α)) :
    let shelf := run calls (texts.map ofText)
    (∀ b ∈ shelf, (∀ s ∈ b.spans, s.start ≤ s.stop ∧ s.stop ≤ b.length) ∧ b.objects.Nodup) ∧
    ∀ i b, shelf[i]? = some b →
      (∀ c : Call α,
        ((shelf.call i c).1 ≠ none ↔
          ∃ start stop, c.range? = some (start, stop) ∧
            ¬ (0 ≤ start ∧ start ≤ stop ∧ stop ≤ b.length)) ∧
        ((shelf.call i c).1 ≠ none → (shelf.call i c).2 = shelf)) ∧
      ∀ s ∈ b.spans, s.start = s.stop → ∀ later j, Carries s.what shelf later i j →
        ∃ b', (run later shelf)[j]? = some b' ∧
          ∀ t ∈ b'.spans, t.what = s.what → t.start = t.stop := by
  intro shelf
  have hfresh : ∀ b ∈ texts.map ofText, (b : Buffer α).WellFormed := by
    intro b hb
    obtain ⟨t, -, rfl⟩ := List.mem_map.mp hb
    exact wellFormed_ofText t
  have hshelf : ∀ b ∈ shelf, b.WellFormed := wellFormed_run hfresh
  refine ⟨fun b hb => ⟨(hshelf b hb).inBounds, (hshelf b hb).nodup⟩, fun i b hb => ⟨?_, ?_⟩⟩
  · intro c
    exact ⟨call_refused_iff hb, call_of_refused⟩
  · intro s hs hempty later j hcarries
    exact hcarries.flat ⟨b, hb, (hshelf b (List.mem_of_getElem? hb)).flat hs hempty⟩

/-- An entry without width is cut and copied twice here. It gets none by calls that are refused, nor
by one that sets its object in another buffer. -/
theorem spans_fit_after_calls_copiedMark :
    let shelf : Shelf Nat := run
      [(0, .set 7 1 3 .plain), (0, .set 8 2 2 .exclusive), (0, .set 8 0 9 .mark),
        (0, .subsequence 1 3), (0, .delete 0 2)] (["abc".toList].map ofText)
    let later : List (Nat × Call Nat) :=
      [(0, .subsequence 0 1), (0, .set 8 0 1 .exclusive), (2, .set 8 0 5 .plain), (2, .delete 0 1)]
    shelf = [⟨['c'], [⟨7, 0, 1, .plain⟩, ⟨8, 0, 0, .exclusive⟩]⟩,
      ⟨['b', 'c'], [⟨7, 0, 2, .plain⟩, ⟨8, 1, 1, .exclusive⟩]⟩] ∧
    (shelf.call 0 (.delete 0 2)).1 ≠ none ∧ (shelf.call 0 (.delete 0 2)).2 = shelf ∧
    Carries 8 shelf later 0 2 ∧
    (run later shelf)[2]? = some ⟨[], [⟨7, 0, 0, .plain⟩, ⟨8, 0, 0, .exclusive⟩]⟩ ∧
    ∃ b', (run later shelf)[2]? = some b' ∧ ∀ t ∈ b'.spans, t.what = 8 → t.start = t.stop := by
  intro shelf later
  obtain ⟨-, hcalls⟩ := spans_fit_after_calls ["abc".toList]
    [(0, .set 7 1 3 .plain), (0, .set 8 2 2 .exclusive), (0, .set 8 0 9 .mark),
      (0, .subsequence 1 3), (0, .delete 0 2)]
  obtain ⟨hrefused, hflat⟩ :=
    hcalls 0 ⟨['c'], [⟨7, 0, 1, .plain⟩, ⟨8, 0, 0, .exclusive⟩]⟩ (by decide)
  obtain ⟨hiff, hsame⟩ := hrefused (.delete 0 2)
  have hout : (shelf.call 0 (.delete 0 2)).1 ≠ none := hiff.mpr ⟨0, 2, rfl, by decide⟩
  have hcarries : Carries 8 shelf later 0 2 := by
    refine .copy (by decide) (.stay ?_ (.stay ?_ (.stay ?_ (.done _ _))))
    · intro h
      cases h
    · intro _ _
      decide
    · intro _ hset
      cases hset
  exact ⟨by decide, hout, hsame hout, hcarries, by decide,
    hflat ⟨8, 0, 0, .exclusive⟩ (by decide) rfl later 2 hcarries⟩

end Shelf

end Buffer

end StyledText
