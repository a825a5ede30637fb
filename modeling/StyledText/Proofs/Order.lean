import StyledText.Proofs.Buffer.View
import StyledText.Proofs.Crossing

/-!
# The order of nested ranges

Styled ranges are shown the outer ones first. An element inside of another one ends before it, so
its range is attached before, and the order has to be made from the offsets. That is enough unless
the two ranges are the same: then the order of attachment is left, and the inner one comes first.

What the ranges of an element and of its content have to do with each other (`Nested`) is told by
the numbers of its tags; it is followed along the content as in `Draft.exists_adds`, and then
through the sorting (`Span.pairwise_arrange`).
-/

namespace StyledText

open Markup (Event Attributes Content)

/-! ## Sorting -/

namespace Span

variable {α : Type} {s t r : Span α} {l : List (Span α)} {before : Span α → Span α → Prop}

/-- Of two ranges one leads the other: the one that begins earlier or, where both begin together,
the one that ends later. -/
theorem leads_total (s t : Span α) : s.Leads t ∨ t.Leads s := by
  simp only [Leads]
  omega

theorem Leads.trans (h : s.Leads t) (h' : t.Leads r) : s.Leads r := by
  simp only [Leads] at *
  omega

/-- Whether `s` may stand before `t` in an order that leaves equal ranges as they come. -/
def Precedes (before : Span α → Span α → Prop) (s t : Span α) : Prop :=
  s.Leads t ∧ (t.Leads s → before s t)

/-- A span that has come before the others gets before those that it leads, and behind no other of
the same range. -/
theorem pairwise_insertInto (hs : ∀ t ∈ l, before s t) (hl : l.Pairwise (Precedes before)) :
    (insertInto s l).Pairwise (Precedes before) := by
  induction l with
  | nil => exact List.pairwise_singleton _ s
  | cons t rest ih =>
    obtain ⟨ht, hrest⟩ := List.pairwise_cons.mp hl
    rw [insertInto]
    split
    next hlead =>
      refine List.pairwise_cons.mpr ⟨fun r hr => ⟨?_, fun _ => hs r hr⟩, hl⟩
      rcases List.mem_cons.mp hr with rfl | hr
      · exact hlead
      · exact hlead.trans (ht r hr).1
    next hlead =>
      refine List.pairwise_cons.mpr
        ⟨fun r hr => ?_, ih (fun r hr => hs r (List.mem_cons_of_mem _ hr)) hrest⟩
      rcases List.mem_cons.mp ((insertInto_perm s rest).mem_iff.mp hr) with rfl | hr
      · exact ⟨(leads_total t r).resolve_right hlead, fun h => absurd h hlead⟩
      · exact ht r hr

/-- **Arranging** sorts, and leaves equal ranges in the order in which they come. -/
theorem pairwise_arrange (h : l.Pairwise before) : (arrange l).Pairwise (Precedes before) := by
  induction l with
  | nil => exact .nil
  | cons s rest ih =>
    obtain ⟨hs, hrest⟩ := List.pairwise_cons.mp h
    exact pairwise_insertInto (fun t ht => hs t (mem_arrange.mp ht)) (ih hrest)

end Span

/-! ## Elements by the numbers of their tags -/

/-- The numbers of the start tag and of the end tag of each element, where the first event has
number `n`. -/
def Markup.Content.elements : Content → Nat → List (Nat × Nat)
  | empty, _ => []
  | data _ _ rest, n => rest.elements (n + 1)
  | element _ _ inner rest, n =>
    let m := n + 1 + inner.events.length
    (n, m) :: inner.elements (n + 1) ++ rest.elements (m + 1)

/-- The tags of an element stand in the content, the start tag first. -/
theorem Markup.Content.bounds_of_mem_elements {content : Content} {n : Nat} {e : Nat × Nat}
    (h : e ∈ content.elements n) : n ≤ e.1 ∧ e.1 < e.2 ∧ e.2 < n + content.events.length := by
  induction content generalizing n with
  | empty => exact absurd h List.not_mem_nil
  | data _ _ rest ih =>
    have := ih h
    simp only [events, List.length_cons]
    omega
  | element name attributes inner rest ihi ihr =>
    simp only [events, List.cons_append, List.length_cons, List.length_append]
    rcases List.mem_append.mp h with h | h
    · rcases List.mem_cons.mp h with rfl | h
      · exact ⟨Nat.le_refl n, by omega, by omega⟩
      · have := ihi h
        omega
    · have := ihr h
      omega

/-- What an element has to do with two ranges of which `s` has come before `t`: if `s` is there from
its start tag on, then `t`, if it comes from inside of the element, lies behind it; and if `t` is
there from its end tag on, then `s`, if it comes from inside, lies in it. -/
def Nested (e : Nat × Nat) (s t : Span Object) : Prop :=
  (s.what.made = e.1 → e.1 < t.what.made → t.what.made < e.2 → s.stop ≤ t.start) ∧
    (t.what.made = e.2 → e.1 < s.what.made → s.what.made < e.2 →
      t.start ≤ s.start ∧ s.stop ≤ t.stop)

/-- What an element has to do with a range `s` of its own and a range `t` from inside of it. -/
def Surrounds (e : Nat × Nat) (s t : Span Object) : Prop :=
  s.what.made = e.1 ∨ s.what.made = e.2 → e.1 < t.what.made → t.what.made < e.2 →
    s.stop ≤ t.start ∨ t.what.made < s.what.made ∧ s.start ≤ t.start ∧ t.stop ≤ s.stop

/-- Whether `s` has come before `t`, or from the same tag. -/
def MadeBefore (s t : Span Object) : Prop := s.what.made ≤ t.what.made

/-- Ranges in the order of the tags that they come from, nested as the elements are. -/
structure InOrder (elements : List (Nat × Nat)) (ranges : List (Span Object)) : Prop where
  made : ranges.Pairwise MadeBefore
  nested : ∀ e ∈ elements, ranges.Pairwise (Nested e)

section

variable {elements elements' : List (Nat × Nat)} {l l' : List (Span Object)} {k : Nat}

/-- Ranges from one tag are in order, since none of them is from inside of an element that another
one is of. -/
theorem inOrder_of_made_eq (h : ∀ s ∈ l, s.what.made = k) : InOrder elements l := by
  refine ⟨List.pairwise_of_forall_mem_list fun s hs t ht => ?_,
    fun e _ => List.pairwise_of_forall_mem_list fun s hs t ht => ⟨fun _ h₁ _ => ?_, fun h₂ _ hlt => ?_⟩⟩
  · exact Nat.le_of_eq ((h s hs).trans (h t ht).symm)
  all_goals
    have := h s hs
    have := h t ht
    omega

/-- Elements that no range comes from do not matter, so more of them may be named. -/
theorem InOrder.of_elements (h : InOrder elements l)
    (hout : ∀ e ∈ elements', e ∈ elements ∨ ∀ s ∈ l, s.what.made ≠ e.1 ∧ s.what.made ≠ e.2) :
    InOrder elements' l := by
  refine ⟨h.made, fun e he => ?_⟩
  rcases hout e he with he | hne
  · exact h.nested e he
  · exact List.pairwise_of_forall_mem_list fun s hs t ht =>
      ⟨fun hmade => absurd hmade (hne s hs).1, fun hmade => absurd hmade (hne t ht).2⟩

/-- Ranges from earlier tags and others from later ones, where each element has to do with both as
it should. -/
theorem InOrder.append (h : InOrder elements l) (h' : InOrder elements l')
    (hmade : ∀ s ∈ l, ∀ t ∈ l', MadeBefore s t)
    (hnested : ∀ e ∈ elements, ∀ s ∈ l, ∀ t ∈ l', Nested e s t) : InOrder elements (l ++ l') :=
  ⟨List.pairwise_append.mpr ⟨h.made, h'.made, hmade⟩, fun e he =>
    List.pairwise_append.mpr ⟨h.nested e he, h'.nested e he, hnested e he⟩⟩

/-- What comes from tags before number `k`, and what comes from that one on, with their elements. -/
theorem InOrder.append_behind (h : InOrder elements l) (h' : InOrder elements' l')
    (hl : ∀ s ∈ l, s.what.made < k) (hl' : ∀ s ∈ l', k ≤ s.what.made)
    (he : ∀ e ∈ elements, e.1 < e.2 ∧ e.2 < k) (he' : ∀ e ∈ elements', k ≤ e.1 ∧ e.1 < e.2) :
    InOrder (elements ++ elements') (l ++ l') := by
  refine (h.of_elements fun e hin => ?_).append (h'.of_elements fun e hin => ?_) ?_ ?_
  · refine (List.mem_append.mp hin).imp id fun hin s hs => ?_
    have := he' e hin
    have := hl s hs
    omega
  · refine (List.mem_append.mp hin).symm.imp id fun hin s hs => ?_
    have := he e hin
    have := hl' s hs
    omega
  · intro s hs t ht
    exact Nat.le_trans (Nat.le_of_lt (hl s hs)) (hl' t ht)
  · intro e hin s hs t ht
    have := hl s hs
    have := hl' t ht
    rcases List.mem_append.mp hin with hin | hin
    · have := he e hin
      exact ⟨fun _ _ _ => by omega, fun _ _ _ => by omega⟩
    · have := he' e hin
      exact ⟨fun _ _ _ => by omega, fun _ _ _ => by omega⟩

/-- Two ranges in whichever order they were attached, the one of an element and the other from
inside of it: the first ends before the second, or it comes from the end tag and reaches over it. -/
theorem InOrder.surrounds (h : InOrder elements l) {e : Nat × Nat} (he : e ∈ elements)
    {s t : Span Object} (hs : s ∈ l) (ht : t ∈ l) : Surrounds e s t := by
  have hboth := h.made.and (h.nested e he)
  refine List.Pairwise.forall_of_forall_of_flip (fun s _ hmade hin hin' => ?_) (hboth.imp ?_)
    (hboth.imp ?_) hs ht
  · omega
  · rintro s t ⟨hbefore, hbehind, -⟩ (hmade | hmade) hin hin'
    · exact .inl (hbehind hmade hin hin')
    · exact absurd (Nat.lt_of_le_of_lt hbefore hin') (by omega)
  · rintro t s ⟨hbefore, -, hwithin⟩ (hmade | hmade) hin hin'
    · exact absurd (Nat.lt_of_lt_of_le hin hbefore) (by omega)
    · exact .inr ⟨by omega, hwithin hmade hin hin'⟩

end

/-! ## Along the content -/

namespace Draft

variable {lookup? : Option Image.Lookup} {n m : Nat} {d d' d₁ d₂ d₃ : Draft} {name : Text}
  {attributes : Attributes} {content : Content} {headings : List (Nat × Nat)}
  {own inner new : List (Span Object)}

/-- The ranges of an element: those of its start tag, those of its content, and those of its end
tag. -/
theorem inOrder_element {closing : List (Span Object)} (hm : m = n + 1 + content.events.length)
    (hown : ∀ s ∈ own, s.what.made = n) (hinner : ∀ s ∈ inner, n < s.what.made ∧ s.what.made < m)
    (hclosing : ∀ s ∈ closing, s.what.made = m) (horder : InOrder (content.elements (n + 1)) inner)
    (hbehind : ∀ s ∈ own, ∀ t ∈ inner, s.stop ≤ t.start)
    (hwithin : ∀ s ∈ inner, ∀ t ∈ closing, t.start ≤ s.start ∧ s.stop ≤ t.stop) :
    InOrder ((n, m) :: content.elements (n + 1)) (own ++ inner ++ closing) := by
  -- the elements of the content have their tags between those of this one
  have hbounds (e) (he : e ∈ content.elements (n + 1)) : n < e.1 ∧ e.1 < e.2 ∧ e.2 < m := by
    have := Content.bounds_of_mem_elements he
    omega
  have hcontent : InOrder ((n, m) :: content.elements (n + 1)) inner := by
    refine horder.of_elements fun e he => (List.mem_cons.mp he).symm.imp id fun he s hs => ?_
    have := hinner s hs
    rw [he]
    exact ⟨by omega, by omega⟩
  -- own ranges against those of the content, and then both of them against the closing ones
  refine ((inOrder_of_made_eq hown).append hcontent ?_ ?_).append (inOrder_of_made_eq hclosing) ?_ ?_
  · intro s hs t ht
    have := hown s hs
    have := hinner t ht
    simp only [MadeBefore]
    omega
  · intro e he s hs t ht
    refine ⟨fun _ _ _ => hbehind s hs t ht, fun h₁ h₂ _ => ?_⟩
    have := hown s hs
    have := hinner t ht
    rcases List.mem_cons.mp he with rfl | he
    · omega
    · have := hbounds e he
      omega
  · intro s hs t ht
    have := hclosing t ht
    simp only [MadeBefore]
    rcases List.mem_append.mp hs with hs | hs
    · have := hown s hs
      omega
    · have := hinner s hs
      omega
  · intro e he s hs t ht
    have := hclosing t ht
    rcases List.mem_cons.mp he with rfl | he
    · refine ⟨fun _ _ _ => by omega, fun _ hgt _ => ?_⟩
      rcases List.mem_append.mp hs with hs | hs
      · have := hown s hs
        omega
      · exact hwithin s hs t ht
    · have := hbounds e he
      exact ⟨fun _ _ _ => by omega, fun _ _ _ => by omega⟩

/-- **An element** other than a heading keeps the order: its end tag covers all that its content has
attached, and its start tag attaches nothing or, for an image, a range before all of that. -/
theorem RunsElement.exists_inOrder (hd : d.Sound n)
    (h : RunsElement lookup? n name attributes content d d₁ d₂ d₃) (hname : ¬ IsHeading name)
    (hadds : Adds (n + 1) headings d₁ d₂ inner) (horder : InOrder (content.elements (n + 1)) inner)
    (hm : m = n + 1 + content.events.length) :
    ∃ new, Adds n ((if IsHeading name then [(n, m)] else []) ++ headings) d d₃ new ∧
      InOrder ((n, m) :: content.elements (n + 1)) new := by
  obtain ⟨own, hown⟩ := adds_startElement hd h.start
  obtain ⟨new, hnew⟩ := h.exists_adds hd hown hadds hm
  refine ⟨new, hnew, ?_⟩
  have hends := ends_of_runsElement hd h
  have hd₂ := h.sound₂
  rw [← hm] at hends hd₂
  cases hends with
  -- inside a table nothing of the element is left
  | takenBack hback =>
    have hnil : new = [] := List.self_eq_append_right.mp (hback.symm.trans hnew.ranges)
    rw [hnil]
    exact ⟨.nil, fun _ _ => .nil⟩
  | heading htext hheading => exact absurd hheading hname
  | @styled styles start htext hstart hstyled =>
    have hparts : new = own ++ inner ++ Canvas.spread m styles start d₃.canvas.length := by
      have hranges := hnew.ranges
      rw [hstyled, hadds.ranges, hown.ranges, List.append_assoc, List.append_assoc] at hranges
      rw [List.append_assoc, List.append_cancel_left hranges]
    -- the end tag styles from the start of the element or from behind its start tag, and all ranges
    -- of the content lie further on
    have hstart_le (s) (hs : s ∈ inner) : start ≤ s.start := by
      rcases hstart with rfl | rfl
      · exact hnew.le_start h.around (by simp [hparts, hs])
      · exact hadds.le_start h.inside hs
    rw [hparts]
    refine inOrder_element hm ?_ (fun s hs => ⟨hadds.le_made s hs, (hadds.fits hd₂ hs).made_lt⟩) ?_
      horder ?_ ?_
    · intro s hs
      exact Nat.le_antisymm (Nat.le_of_lt_succ (hown.fits h.sound₁ hs).made_lt) (hown.le_made s hs)
    · intro s hs
      obtain ⟨-, -, -, rfl⟩ := Canvas.mem_spread hs
      rfl
    · intro s hs t ht
      exact Nat.le_trans (hown.fits h.sound₁ hs).stop_le (hadds.le_start h.inside ht)
    · intro s hs t ht
      obtain ⟨-, -, -, rfl⟩ := Canvas.mem_spread ht
      exact ⟨hstart_le s hs, Nat.le_trans (hadds.fits hd₂ hs).stop_le htext.length_le⟩

/-- **Along the content** without headings, by induction over it: what stands behind an element is
attached behind all of its ranges. -/
theorem exists_inOrder (lookup? : Option Image.Lookup) (content : Content)
    (hnames : content.All fun name => ¬ IsHeading name) :
    ∀ {n : Nat} {d d' : Draft}, d.Sound n →
      (intercepted lookup?).runFrom n content.events d = .ok d' →
      ∃ new, Adds n (content.headings n) d d' new ∧ InOrder (content.elements n) new := by
  induction content with
  | empty =>
    intro n d d' _ hok
    cases hok
    exact ⟨[], ⟨(List.append_nil _).symm, fun _ hs => absurd hs List.not_mem_nil, .nil⟩, .nil,
      fun _ _ => .nil⟩
  | data e he rest ih =>
    intro n d d' hd hok
    obtain ⟨d₁, hok₁, hs₁, -⟩ := receive_sound lookup? hd e
    rw [Content.events, Consumer.runFrom_cons_of_ok hok₁] at hok
    obtain ⟨new, hnew, horder⟩ := ih hnames hs₁ hok
    exact ⟨new, ⟨by rw [hnew.ranges, ranges_receive_data he hok₁],
      fun s hs => Nat.le_of_succ_le (hnew.le_made s hs), hnew.settled⟩, horder⟩
  | element name attributes inner rest ihi ihr =>
    intro n d d' hd hok
    obtain ⟨hname, hinner, hrest⟩ := hnames
    obtain ⟨d₁, d₂, d₃, h⟩ := exists_runsElement lookup? hd name attributes inner
    obtain ⟨hrun, hext⟩ := h.rest hok
    obtain ⟨added, hadded, hin⟩ := ihi hinner h.sound₁ h.content
    obtain ⟨new, hnew, horder⟩ := h.exists_inOrder hd hname hadded hin rfl
    obtain ⟨more, hmore, hbehind⟩ := ihr hrest h.sound₃ hrun
    -- the numbers of an element are below all of those that follow, so nothing is compared across
    refine ⟨new ++ more, hnew.append hmore (by omega) h.sound₃ hext,
      horder.append_behind hbehind (fun s hs => (hnew.fits h.sound₃ hs).made_lt) hmore.le_made
        (fun e he => ?_) fun e he => ?_⟩
    · rcases List.mem_cons.mp he with rfl | he
      · exact ⟨by omega, Nat.lt_succ_self _⟩
      · have := Content.bounds_of_mem_elements he
        omega
    · have := Content.bounds_of_mem_elements he
      exact ⟨this.1, this.2.1⟩

/-! ## What is shown -/

/-- None of the ranges that content has added is empty, since a sound draft has no style without
width. -/
theorem Adds.lt_of_mem (h : Adds n headings d d' new) (hd' : d'.Sound m) {s : Span Object}
    (hs : s ∈ new) : s.start < s.stop := by
  have hfit := h.fits hd' hs
  have hmem : s ∈ d'.canvas.ranges := by
    rw [h.ranges]
    exact List.mem_append_right _ hs
  have hflag : s.flag ≠ .mark := of_decide_eq_true (List.mem_filter.mp hmem).2
  exact Nat.lt_of_le_of_ne hfit.start_le fun he => hflag (hfit.empty_iff.mp he)

/-- **The order of nested ranges.** In every well nested document without headings, a range of an
element is shown before a range of an element inside of it, unless the two are the same range; then
it is shown behind. -/
theorem outer_annotation_first_iff (lookup? : Option Image.Lookup) (setup : Intercept.Setup)
    (indent : Option Nat) (content : Content) (hnames : content.All fun name => ¬ IsHeading name) :
    ∃ d : Draft, (intercepted lookup?).run content.events
        ({ setup := setup, indent := indent }, {}) = .ok d ∧
      ∀ outer ∈ content.elements 0, ∀ inner ∈ content.elements 0,
        outer.1 < inner.1 → inner.2 < outer.2 →
        ∀ (i j : Nat) (s t : Span Object),
          d.canvas.annotations[i]? = some s → d.canvas.annotations[j]? = some t →
          s.what.made = outer.1 ∨ s.what.made = outer.2 →
          t.what.made = inner.1 ∨ t.what.made = inner.2 →
          (i < j ↔ ¬ (s.start = t.start ∧ s.stop = t.stop)) := by
  have hfresh : Sound 0 ({ setup := setup, indent := indent }, {}) := ⟨rfl, Canvas.sound_blank 0⟩
  obtain ⟨d, hok, hd, -⟩ := run_content lookup? content hfresh
  obtain ⟨new, hnew, horder⟩ := exists_inOrder lookup? content hnames hfresh hok
  have hranges : d.canvas.ranges = new := hnew.ranges
  have hshown : d.canvas.annotations = Span.arrange new := congrArg Span.arrange hranges
  have hsorted := Span.pairwise_arrange horder.made
  rw [List.pairwise_iff_getElem] at hsorted
  refine ⟨d, hok, fun outer houter inner hinner hstart hstop i j s t hs ht hmade hmade' => ?_⟩
  rw [hshown] at hs ht
  obtain ⟨hi, rfl⟩ := List.getElem?_eq_some_iff.mp hs
  obtain ⟨hj, rfl⟩ := List.getElem?_eq_some_iff.mp ht
  have hs := Span.mem_arrange.mp (List.getElem_mem hi)
  have ht := Span.mem_arrange.mp (List.getElem_mem hj)
  have hwidth := hnew.lt_of_mem hd hs
  have hbounds := Content.bounds_of_mem_elements hinner
  -- the outer range has been attached after the inner one and reaches over it, or lies before it
  have hsurrounds := horder.surrounds houter hs ht hmade (by omega) (by omega)
  have hne : i ≠ j := by
    rintro rfl
    omega
  constructor
  · rintro hlt ⟨hsame, hsame'⟩
    have hbefore := (hsorted i j hi hj hlt).2 (.inr ⟨hsame.symm, Nat.le_of_eq hsame'⟩)
    simp only [MadeBefore] at hbefore
    omega
  · intro hdiffer
    by_contra hnot
    have hlead := (hsorted j i hj hi (by omega)).1
    simp only [Span.Leads] at hlead
    omega

/-- Three elements one in the other, the two inner ones over the same text, so that both sides of
the equivalence come about. -/
def enclosedStyles : Content :=
  .element "u".toList []
    (.characters "a".toList
      (.element "b".toList []
        (.element "i".toList [] (.characters "x".toList .empty) .empty) .empty)) .empty

theorem outer_annotation_first_iff_enclosedStyles :
    (enclosedStyles.All fun name => ¬ IsHeading name) ∧
      ∃ d : Draft, (intercepted none).run enclosedStyles.events ({}, {}) = .ok d ∧
        d.canvas.annotations[0]? = some ⟨.style 7 .underline, 0, 2, .exclusive⟩ ∧
        d.canvas.annotations[1]? = some ⟨.style 5 (.face .italic), 1, 2, .exclusive⟩ ∧
        d.canvas.annotations[2]? = some ⟨.style 6 (.face .bold), 1, 2, .exclusive⟩ ∧
        (0 < 2 ↔ ¬ ((0 : Nat) = 1 ∧ (2 : Nat) = 2)) ∧
        (2 < 1 ↔ ¬ ((1 : Nat) = 1 ∧ (2 : Nat) = 2)) := by
  have hnames : enclosedStyles.All fun name => ¬ IsHeading name := by
    simp only [enclosedStyles, Content.characters, Content.All]
    decide +kernel
  obtain ⟨d, hok, horder⟩ := outer_annotation_first_iff none {} none enclosedStyles hnames
  obtain ⟨d', hok', hunder, hitalic, hbold⟩ :
      ∃ d' : Draft, (intercepted none).run enclosedStyles.events ({}, {}) = .ok d' ∧
        d'.canvas.annotations[0]? = some ⟨.style 7 .underline, 0, 2, .exclusive⟩ ∧
        d'.canvas.annotations[1]? = some ⟨.style 5 (.face .italic), 1, 2, .exclusive⟩ ∧
        d'.canvas.annotations[2]? = some ⟨.style 6 (.face .bold), 1, 2, .exclusive⟩ :=
    ⟨_, rfl, by decide +kernel, by decide +kernel, by decide +kernel⟩
  cases hok.symm.trans hok'
  -- the underlined text reaches beyond the bold one, and the bold text is the italic one
  have houter := horder (0, 7) (by decide) (2, 6) (by decide) (by decide) (by decide) 0 2 _ _ hunder
    hbold (.inr rfl) (.inr rfl)
  have hsame := horder (2, 6) (by decide) (3, 5) (by decide) (by decide) (by decide) 2 1 _ _ hbold
    hitalic (.inr rfl) (.inr rfl)
  exact ⟨hnames, d, hok, hunder, hitalic, hbold, houter, hsame⟩

/-- Two elements over the same text, one in the other. -/
def boldItalic : Content :=
  .element "b".toList []
    (.element "i".toList [] (.characters "x".toList .empty) .empty) .empty

/-- **The same range.** The range of an element is not always shown before those from inside of
it. -/
theorem not_outer_annotation_first :
    ¬ ∀ (content : Content) (d : Draft),
      (content.All fun name => ¬ IsHeading name ∧ name.lower ≠ "table".toList) →
      (intercepted none).run content.events ({}, {}) = .ok d →
      ∀ outer ∈ content.elements 0, ∀ inner ∈ content.elements 0,
        outer.1 < inner.1 → inner.2 < outer.2 →
        ∀ (i j : Nat) (s t : Span Object),
          d.canvas.annotations[i]? = some s → d.canvas.annotations[j]? = some t →
          s.what.made = outer.1 ∨ s.what.made = outer.2 →
          t.what.made = inner.1 ∨ t.what.made = inner.2 → i < j := by
  intro h
  have hnames : boldItalic.All fun name => ¬ IsHeading name ∧ name.lower ≠ "table".toList := by
    simp only [boldItalic, Content.characters, Content.All]
    decide +kernel
  have hlt := h boldItalic _ hnames rfl (0, 4) (by decide) (1, 3) (by decide) (by decide) (by decide) 1 0
    ⟨.style 4 (.face .bold), 0, 1, .exclusive⟩ ⟨.style 3 (.face .italic), 0, 1, .exclusive⟩ rfl rfl
    (.inr rfl) (.inr rfl)
  exact absurd hlt (by decide)

end Draft

end StyledText
