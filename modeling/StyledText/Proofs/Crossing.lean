import StyledText.Proofs.Flow.Text
import StyledText.Proofs.Table.Enclosed

/-!
# Ranges that cross

An element is styled from its start to its end, so the ranges of well nested content lie apart or
one in the other. There is one exception: the newlines at the end of a heading are left out of its
style, and not only those that the heading has added itself. An element inside of the heading that
ends with such a newline has it under its own style, and stands out (`Overhangs`).

What an end tag does to the ranges is said once (`Draft.Ends`); an induction over the content does
the rest.
-/

namespace StyledText

open Markup (Event Attributes Content)

/-! ## Crossing -/

/-- Whether two ranges lie apart, or one in the other; they may touch or be the same. -/
def Span.Laminar {α : Type} (s t : Span α) : Prop :=
  s.stop ≤ t.start ∨ t.stop ≤ s.start ∨ s.start ≤ t.start ∧ t.stop ≤ s.stop ∨
    t.start ≤ s.start ∧ s.stop ≤ t.stop

instance {α : Type} (s t : Span α) : Decidable (s.Laminar t) :=
  inferInstanceAs (Decidable (_ ∨ _ ∨ _ ∧ _ ∨ _ ∧ _))

/-- Whether an element of this name is a heading of running text. -/
def IsHeading (name : Text) : Prop := ∃ level, Flow.Tag.ofName? name = some (.heading level)

instance (name : Text) : Decidable (IsHeading name) :=
  inferInstanceAs (Decidable (∃ level, Flow.Tag.ofName? name = some (.heading level)))

/-- The numbers of the start tag and of the end tag of each heading, where the first event has
number `n`. -/
def Markup.Content.headings : Content → Nat → List (Nat × Nat)
  | empty, _ => []
  | data _ _ rest, n => rest.headings (n + 1)
  | element name _ inner rest, n =>
    let m := n + 1 + inner.events.length
    (if IsHeading name then [(n, m)] else []) ++ inner.headings (n + 1) ++ rest.headings (m + 1)

/-- `s` is the range of a heading, `t` that of an element inside of it; `t` begins within `s` and
stands out over nothing but newlines. -/
structure Overhangs (headings : List (Nat × Nat)) (text : Text) (s t : Span Object) : Prop where
  inside : ∃ h ∈ headings, h.1 < t.what.made ∧ t.what.made < h.2 ∧ s.what.made = h.2
  crosses : s.start < t.start ∧ t.start < s.stop ∧ s.stop < t.stop
  newlines : ∀ i, s.stop ≤ i → i < t.stop → text[i]? = some '\n'

/-- Whether two ranges lie apart or one in the other, or one of them stands out of a heading. -/
def Settled (headings : List (Nat × Nat)) (text : Text) (s t : Span Object) : Prop :=
  s.Laminar t ∨ Overhangs headings text s t ∨ Overhangs headings text t s

section

variable {headings headings' : List (Nat × Nat)} {text text' : Text} {s t : Span Object}

theorem Span.Laminar.symm (h : s.Laminar t) : t.Laminar s := by
  unfold Laminar at *
  omega

theorem Settled.symm (h : Settled headings text s t) : Settled headings text t s := by
  rcases h with h | h | h
  · exact .inl h.symm
  · exact .inr (.inr h)
  · exact .inr (.inl h)

/-- Who stands out of a heading does so in a longer text too, and among more headings. -/
theorem Overhangs.mono (h : Overhangs headings text s t) (hh : headings ⊆ headings')
    (ht : text <+: text') : Overhangs headings' text' s t := by
  obtain ⟨p, hp, hin⟩ := h.inside
  refine ⟨⟨p, hh hp, hin⟩, h.crosses, fun i hs hi => ?_⟩
  obtain ⟨r, rfl⟩ := ht
  have hat := h.newlines i hs hi
  rw [List.getElem?_append_left (List.getElem?_eq_some_iff.mp hat).1]
  exact hat

/-- Ranges that are settled stay so while text and headings are added. -/
theorem Settled.mono (h : Settled headings text s t) (hh : headings ⊆ headings')
    (ht : text <+: text') : Settled headings' text' s t :=
  h.imp_right fun h => h.imp (fun h => h.mono hh ht) fun h => h.mono hh ht

end

/-! ## What a start tag does to the ranges -/

/-- The start tag of an intercepted element puts a mark down at most, and no range. -/
theorem Intercept.State.Opens.ranges {n : Nat} {attributes : Attributes} {t t' : Intercept.State}
    {c c' : Canvas} {tag : Intercept.Tag} (h : Opens n attributes t c tag t' c') :
    c'.ranges = c.ranges := by
  cases h with
  | list => rfl
  | looseItem => exact c.ranges_newline
  | bullet => exact (Canvas.ranges_marked ..).trans c.ranges_newline
  | number => exact (Canvas.ranges_marked ..).trans c.ranges_newline
  | root => exact Canvas.ranges_marked _ c
  | _ => exact Canvas.ranges_marked _ c

/-- Only an image is styled where it starts, over the character that it stands on. -/
theorem Flow.State.ranges_startTag {lookup? : Option Image.Lookup} {n : Nat} {tag : Flow.Tag}
    {attributes : Attributes} {f f' : Flow.State} (h : f.canvas.Sound n)
    (hok : f.startTag lookup? n tag attributes = .ok f') :
    ∃ styles, f'.canvas.ranges =
      f.canvas.ranges ++ Canvas.spread n styles f.canvas.length f'.canvas.length := by
  by_cases ht : tag = .image
  · subst ht
    obtain ⟨f'', source, drawable, hf'', hc⟩ := startTag_image_eq lookup? attributes h
    cases hok.symm.trans hf''
    refine ⟨[.image source drawable], ?_⟩
    have hlen : f'.canvas.length = f.canvas.length + 1 := by
      rw [hc]
      exact Buffer.length_append f.canvas [objectReplacement]
    rw [hlen, hc, Canvas.ranges_styled]
    rfl
  · -- any other start tag makes room and puts a mark down
    cases (startTag_eq h ht).symm.trans hok
    refine ⟨[], ?_⟩
    obtain ⟨t, hb⟩ := tag.before_eq_append f.canvas
    have hbefore : (tag.before f.canvas).ranges = f.canvas.ranges := by
      rw [hb]
      rfl
    rw [Canvas.spread_nil, List.append_nil, ← hbefore]
    unfold begun
    split
    · exact Canvas.ranges_marked _ _
    · rfl

namespace Draft

variable {lookup? : Option Image.Lookup} {n m : Nat} {d d' d₁ d₂ d₃ : Draft} {name : Text}
  {attributes : Attributes}

/-- A start tag attaches ranges from the old end of the text to the new one, or none. Only an image
has any. -/
theorem ranges_startElement (hd : d.Sound n)
    (h₁ : (intercepted lookup?).receive n (.startElement name attributes) d = .ok d₁) :
    ∃ styles, d₁.canvas.ranges =
      d.canvas.ranges ++ Canvas.spread n styles d.canvas.length d₁.canvas.length := by
  rcases htag : Intercept.Tag.ofName? name with _ | tag
  · rw [receive_of_declined (by rintro _ ⟨⟩; exact htag)] at h₁
    obtain ⟨f₁, hf₁, rfl⟩ := exists_of_map_eq_ok h₁
    rcases hflow : Flow.Tag.ofName? name with _ | tag
    · simp only [Flow.State.receive, hflow] at hf₁
      cases hf₁
      exact ⟨[], by simp⟩
    · simp only [Flow.State.receive, hflow] at hf₁
      exact Flow.State.ranges_startTag hd.canvas hf₁
  · obtain ⟨t, hopens, -⟩ := opens_of_receive htag hd h₁
    refine ⟨[], ?_⟩
    rw [Canvas.spread_nil, List.append_nil]
    exact hopens.ranges

/-- Data leaves the ranges alone, those of the document and those of the marks. -/
theorem ranges_receive_data {e : Event} (he : e.isTag = false)
    (hok : (intercepted lookup?).receive n e d = .ok d') : d'.canvas.ranges = d.canvas.ranges := by
  cases e with
  | startElement name attributes => cases he
  | endElement name => cases he
  | _ =>
    cases hok
    rfl

/-! ## What an end tag does to the ranges -/

/-- The ways in which the end tag of an element can go, with number `m`, where the content has led
from `d₁` to `d₂`: all that the element has done is taken back; or styles come over the text up to
its end, from the start tag on or from behind it; or, for a heading, over all but the newlines at
the end. -/
inductive Ends (m : Nat) (name : Text) (d d₁ d₂ d₃ : Draft) : Prop
  | takenBack (h : d₃.canvas.ranges = d.canvas.ranges)
  | styled {styles : List Style} {start : Nat} (htext : d₂.canvas.text <+: d₃.canvas.text)
      (hstart : start = d.canvas.length ∨ start = d₁.canvas.length)
      (h : d₃.canvas.ranges = d₂.canvas.ranges ++ Canvas.spread m styles start d₃.canvas.length)
  | heading {styles : List Style} {stop : Nat} (htext : d₂.canvas.text <+: d₃.canvas.text)
      (hname : IsHeading name)
      (hnewlines : ∀ i, stop ≤ i → i < d₃.canvas.length → d₃.canvas.text[i]? = some '\n')
      (h : d₃.canvas.ranges = d₂.canvas.ranges ++ Canvas.spread m styles d₁.canvas.length stop)

/-- The end tag of running text makes room at most, so the text before it stays. -/
theorem prefix_text_of_declined (hname : Intercept.Tag.ofName? name = none) (hd : d.Sound n)
    (hok : (intercepted lookup?).receive n (.endElement name) d = .ok d') :
    d.canvas.text <+: d'.canvas.text := by
  rw [receive_of_declined (by rintro _ ⟨⟩; exact hname)] at hok
  obtain ⟨f, hf, rfl⟩ := exists_of_map_eq_ok hok
  rcases htag : Flow.Tag.ofName? name with _ | tag
  · simp only [Flow.State.receive, htag] at hf
    cases hf
    exact List.prefix_refl _
  · simp only [Flow.State.receive, htag] at hf
    obtain ⟨r, hr⟩ := tag.after_eq_append d.canvas
    change d.canvas.text <+: f.canvas.text
    rw [Flow.State.text_endTag hd.canvas hf]
    change d.canvas.text <+: (tag.after d.canvas).text
    rw [hr]
    exact List.prefix_append _ _

/-- Outside of tables the end tag of an intercepted element takes no text away. -/
theorem prefix_text_outside {tag : Intercept.Tag} (htag : Intercept.Tag.ofName? name = some tag)
    (hd : d.Sound n) (hdepth : d.tags.depth = 0)
    (hok : (intercepted lookup?).receive n (.endElement name) d = .ok d') :
    d.canvas.text <+: d'.canvas.text := by
  obtain ⟨t, hshuts, -⟩ := shuts_of_receive htag hd hok
  exact hshuts.prefix_text hdepth

/-- An element that resolves its own mark is styled up to its end, but for a heading, which leaves
its last newlines out. -/
theorem ends_of_resolves {styles : List Style} (htext : d₂.canvas.text <+: d₃.canvas.text)
    (h : Canvas.Resolves n m (elementStop name d₁.canvas.length d₃.canvas.text) styles d.canvas
      d₁.canvas d₂.canvas d₃.canvas) : Ends m name d d₁ d₂ d₃ := by
  have hranges := h.ranges
  unfold elementStop at hranges
  split at hranges
  · exact .styled htext (.inr rfl) hranges
  split at hranges
  next tag htag =>
    cases tag with
    | heading level =>
      refine .heading htext ⟨level, htag⟩ (fun i hstop hi => ?_) hranges
      -- what is left out of the style has been dropped for being a newline
      obtain ⟨k, rfl⟩ := Nat.exists_eq_add_of_le (Nat.le_trans (Nat.le_add_right _ _) hstop)
      have hk : k < (d₃.canvas.text.drop d₁.canvas.length).length := by
        rw [List.length_drop]
        exact Nat.lt_sub_of_add_lt (Nat.add_comm k _ ▸ hi)
      obtain ⟨x, hx, hnewline⟩ :=
        Text.getElem?_of_length_dropTrailing_le (Nat.le_of_add_le_add_left hstop) hk
      rw [List.getElem?_drop] at hx
      rw [hx, of_decide_eq_true hnewline]
    | _ => exact .styled htext (.inr rfl) hranges
  · exact .styled htext (.inr rfl) hranges

/-- Outside of tables the outermost table is styled from its start on, the placeholder included, or
not at all. -/
theorem ends_of_table (htag : Intercept.Tag.ofName? name = some .table) (hd : d.Sound n)
    (hdepth : d.tags.depth = 0)
    (h₁ : (intercepted lookup?).receive n (.startElement name attributes) d = .ok d₁)
    (h₂ : d₁.Extends d₂) (hd₂ : d₂.Sound m)
    (h₃ : (intercepted lookup?).receive m (.endElement name) d₂ = .ok d₃) :
    Ends m name d d₁ d₂ d₃ := by
  rw [receive_startElement_of_ofName? htag, Intercept.State.startTag_root hd.canvas hdepth] at h₁
  cases h₁
  obtain ⟨c₃, hc₃, hend, -⟩ := Intercept.State.endTag_root hd.canvas
    ((Canvas.grows_append _ _).trans h₂.grows) hd₂.canvas h₂.sameOpen.markers h₂.sameOpen.depth
  rw [receive_endElement_of_ofName? htag, hend] at h₃
  cases h₃
  have hranges : c₃.ranges = d₂.canvas.ranges ++
      Canvas.spread m d₂.tags.complete.tableStyles d.canvas.length c₃.length := by
    rw [hc₃, Intercept.State.closed_inline, Canvas.ranges_styled,
      Canvas.ranges_remove hd₂.canvas rfl]
    rfl
  refine .styled ?_ (.inl rfl) hranges
  change d₂.canvas.text <+: c₃.text
  rw [hc₃, Intercept.State.closed_inline]
  exact List.prefix_refl _

/-- Inside of a table an intercepted element takes back what it has done or adds no style, so in
neither case it can cross another one. -/
theorem ends_inside {tag : Intercept.Tag} (htag : Intercept.Tag.ofName? name = some tag)
    (hd : d.Sound n) (hdepth : 0 < d.tags.depth)
    (h₁ : (intercepted lookup?).receive n (.startElement name attributes) d = .ok d₁)
    (h₂ : d₁.Extends d₂) (hd₂ : d₂.Sound m)
    (h₃ : (intercepted lookup?).receive m (.endElement name) d₂ = .ok d₃) :
    Ends m name d d₁ d₂ d₃ := by
  by_cases henc : tag.encloses = true
  · obtain ⟨d₃', hok, hcanvas⟩ := exists_endElement_enclosing htag henc hd hdepth h₁ h₂ hd₂
    cases hok.symm.trans h₃
    exact .takenBack (congrArg Canvas.ranges hcanvas)
  -- an end tag that leaves the canvas alone counts as one that adds no style
  have hstays (h : d₃.canvas = d₂.canvas) : Ends m name d d₁ d₂ d₃ := by
    have hranges : d₃.canvas.ranges =
        d₂.canvas.ranges ++ Canvas.spread m [] d₁.canvas.length d₃.canvas.length := by
      rw [h, Canvas.spread_nil, List.append_nil]
    exact .styled (h ▸ List.prefix_refl _) (.inr rfl) hranges
  rw [receive_startElement_of_ofName? htag] at h₁
  rw [receive_endElement_of_ofName? htag] at h₃
  obtain ⟨⟨t₁, c₁⟩, hstart, rfl⟩ := exists_of_map_eq_ok h₁
  obtain ⟨⟨t₃, c₃⟩, hend, rfl⟩ := exists_of_map_eq_ok h₃
  obtain ⟨t', hopen, hsame⟩ := Intercept.State.exists_openElement hstart
  obtain ⟨⟨t'', c''⟩, hclose, hrecord⟩ := exists_of_map_eq_ok hend
  cases hrecord
  cases tag with
  | list kind =>
    cases hclose
    exact hstays rfl
  | item =>
    have hs := hsame.trans h₂.sameOpen
    rcases hl : d.tags.lists with _ | ⟨kind, lists⟩
    · cases (Intercept.State.openItem_of_lists_eq_nil hl).symm.trans hopen
      -- an item outside of lists has no mark
      cases (Intercept.State.closeItem_of_lists_eq_nil (hs.lists.trans hl)).symm.trans hclose
      exact hstays rfl
    · obtain ⟨t, hok, -⟩ := Intercept.State.closeItem_inside hl hd.balanced hd.canvas hdepth hopen hs
        h₂.grows hd₂.canvas
      cases hok.symm.trans hclose
      exact .takenBack (Canvas.ranges_newline _)
  | _ => exact absurd rfl henc

/-- **An end tag goes in one of the ways**, by where the element stands and by which of the two
handlers its tags go to. -/
theorem ends_of_runsElement {inner : Content} (hd : d.Sound n)
    (h : RunsElement lookup? n name attributes inner d d₁ d₂ d₃) :
    Ends (n + 1 + inner.events.length) name d d₁ d₂ d₃ := by
  rcases htag : Intercept.Tag.ofName? name with _ | tag
  · obtain ⟨d₃', hok, -, hres⟩ := exists_endElement_of_declined htag hd h.start h.inside h.sound₂
    cases hok.symm.trans h.stop
    exact ends_of_resolves (prefix_text_of_declined htag h.sound₂ h.stop) hres
  rcases Nat.eq_zero_or_pos d.tags.depth with hdepth | hdepth
  · by_cases hname : name.lower = "table".toList
    · exact ends_of_table (Intercept.ofName?_of_lower_eq_table hname) hd hdepth h.start h.inside
        h.sound₂ h.stop
    · obtain ⟨d₃', hok, -, hres⟩ :=
        exists_endElement_resolves hd hdepth hname h.start h.inside h.sound₂
      cases hok.symm.trans h.stop
      have hdepth₂ : d₂.tags.depth = 0 := by
        rw [h.inside.sameOpen.depth, h.depth₁ hname, hdepth]
      exact ends_of_resolves (prefix_text_outside htag h.sound₂ hdepth₂ h.stop) hres
  · exact ends_inside htag hd hdepth h.start h.inside h.sound₂ h.stop

/-! ## Along the content -/

/-- What content adds to the ranges, the first event of which has number `n`. -/
structure Adds (n : Nat) (headings : List (Nat × Nat)) (d d' : Draft) (new : List (Span Object)) :
    Prop where
  ranges : d'.canvas.ranges = d.canvas.ranges ++ new
  le_made : ∀ s ∈ new, n ≤ s.what.made
  settled : new.Pairwise (Settled headings d'.canvas.text)

section

variable {headings headings' : List (Nat × Nat)} {new new' : List (Span Object)} {s : Span Object}

/-- Whatever is added lies in the text in the end, as all spans of a sound draft do. -/
theorem Adds.fits (h : Adds n headings d d' new) (hd' : d'.Sound m) (hs : s ∈ new) :
    s.Fits m d'.canvas.length := by
  have hmem : s ∈ d'.canvas.ranges := by
    rw [h.ranges]
    exact List.mem_append_right _ hs
  exact hd'.canvas s (List.mem_filter.mp hmem).1

/-- What is added where the canvas grows stands behind the old text, hence apart from all ranges
over that. -/
theorem Adds.le_start (h : Adds n headings d d' new) (hext : d.Extends d') (hs : s ∈ new) :
    d.canvas.length ≤ s.start := by
  obtain ⟨added, hranges, hstart⟩ := hext.grows.exists_ranges
  obtain rfl := List.append_cancel_left (h.ranges.symm.trans hranges)
  exact hstart s hs

/-- What comes after the text of other ranges lies apart from them, so that content and the content
behind it are settled together. -/
theorem Adds.append (h : Adds n headings d d₁ new) (h' : Adds m headings' d₁ d₂ new') (hn : n ≤ m)
    {k : Nat} (hd₁ : d₁.Sound k) (hext : d₁.Extends d₂) :
    Adds n (headings ++ headings') d d₂ (new ++ new') := by
  refine ⟨by rw [h'.ranges, h.ranges, List.append_assoc], ?_, List.pairwise_append.mpr ⟨?_, ?_, ?_⟩⟩
  · intro s hs
    rcases List.mem_append.mp hs with hs | hs
    · exact h.le_made s hs
    · exact Nat.le_trans hn (h'.le_made s hs)
  · exact h.settled.imp fun hs => hs.mono (List.subset_append_left _ _) hext.grows.text
  · exact h'.settled.imp fun hs => hs.mono (List.subset_append_right _ _) (List.prefix_refl _)
  · intro s hs t ht
    exact .inl (.inl (Nat.le_trans (h.fits hd₁ hs).stop_le (h'.le_start hext ht)))

/-- Styles of one range are all over the same text, each of them within the other. -/
theorem settled_spread (n start stop : Nat) (styles : List Style) (headings : List (Nat × Nat))
    (text : Text) : (Canvas.spread n styles start stop).Pairwise (Settled headings text) := by
  refine List.pairwise_of_forall_mem_list fun s hs t ht => ?_
  obtain ⟨-, -, -, rfl⟩ := Canvas.mem_spread hs
  obtain ⟨-, -, -, rfl⟩ := Canvas.mem_spread ht
  exact .inl (.inr (.inr (.inl ⟨Nat.le_refl _, Nat.le_refl _⟩)))

/-- What a start tag adds is settled, by the styles of one image or by nothing. -/
theorem adds_startElement (hd : d.Sound n)
    (h₁ : (intercepted lookup?).receive n (.startElement name attributes) d = .ok d₁) :
    ∃ own, Adds n [] d d₁ own := by
  obtain ⟨styles, hranges⟩ := ranges_startElement hd h₁
  refine ⟨_, hranges, fun s hs => ?_, settled_spread ..⟩
  obtain ⟨-, -, -, rfl⟩ := Canvas.mem_spread hs
  exact Nat.le_refl n

/-- **An element.** What its end tag adds to the ranges of the element is settled with them: it
covers all of them, or all but what stands out of a heading. -/
theorem RunsElement.exists_adds {content : Content} (hd : d.Sound n)
    (h : RunsElement lookup? n name attributes content d d₁ d₂ d₃) {own inner : List (Span Object)}
    (hown : Adds n [] d d₁ own) (hinner : Adds (n + 1) headings d₁ d₂ inner)
    (hm : m = n + 1 + content.events.length) :
    ∃ new, Adds n ((if IsHeading name then [(n, m)] else []) ++ headings) d d₃ new := by
  have hends := ends_of_runsElement hd h
  have hd₂ := h.sound₂
  have hnm : n < m := by omega
  rw [← hm] at hends hd₂
  have hboth := hown.append hinner (Nat.le_succ n) h.sound₁ h.inside
  -- the ranges so far stay settled, so only the styles of the end tag have to be compared with them
  have hadd {styles : List Style} {start stop : Nat} (htext : d₂.canvas.text <+: d₃.canvas.text)
      (hranges : d₃.canvas.ranges = d₂.canvas.ranges ++ Canvas.spread m styles start stop)
      (hall : ∀ s ∈ own ++ inner, ∀ t : Span Object, t.start = start → t.stop = stop →
        t.what.made = m →
        Settled ((if IsHeading name then [(n, m)] else []) ++ headings) d₃.canvas.text s t) :
      ∃ new, Adds n ((if IsHeading name then [(n, m)] else []) ++ headings) d d₃ new := by
    refine ⟨own ++ inner ++ Canvas.spread m styles start stop,
      by rw [hranges, hboth.ranges, List.append_assoc], ?_,
      List.pairwise_append.mpr ⟨?_, settled_spread .., ?_⟩⟩
    · intro s hs
      rcases List.mem_append.mp hs with hs | hs
      · exact hboth.le_made s hs
      · obtain ⟨-, -, -, rfl⟩ := Canvas.mem_spread hs
        exact Nat.le_of_lt hnm
    · exact hboth.settled.imp fun hs => hs.mono (List.subset_append_right _ _) htext
    · intro s hs t ht
      obtain ⟨-, -, -, rfl⟩ := Canvas.mem_spread ht
      exact hall s hs _ rfl rfl rfl
  cases hends with
  | takenBack hback => exact ⟨[], by rw [hback, List.append_nil], fun _ hs => absurd hs List.not_mem_nil, .nil⟩
  | @styled styles start htext hstart hstyled =>
    refine hadd htext hstyled fun s hs t hts hte _ => .inl ?_
    have hstop : s.stop ≤ t.stop := by
      rw [hte]
      exact Nat.le_trans (hboth.fits hd₂ hs).stop_le htext.length_le
    rcases hstart with hstart | hstart
    · obtain ⟨added, hranges, hle⟩ := h.around.grows.exists_ranges
      rw [hstyled, hboth.ranges, List.append_assoc] at hranges
      have hadded := List.append_cancel_left hranges
      have hs' : s ∈ added := by
        rw [← hadded]
        exact List.mem_append_left _ hs
      exact .inr (.inr (.inr ⟨by rw [hts, hstart]; exact hle s hs', hstop⟩))
    · rw [hstart] at hts
      rcases List.mem_append.mp hs with hs | hs
      · exact .inl (by rw [hts]; exact (hown.fits h.sound₁ hs).stop_le)
      · exact .inr (.inr (.inr ⟨by rw [hts]; exact hinner.le_start h.inside hs, hstop⟩))
  | @heading styles stop htext hname hnewlines hstyled =>
    refine hadd htext hstyled fun s hs t hts hte hmade => ?_
    rcases List.mem_append.mp hs with hs | hs
    · exact .inl (.inl (by rw [hts]; exact (hown.fits h.sound₁ hs).stop_le))
    have hfit := hinner.fits hd₂ hs
    have hstart : t.start ≤ s.start := by
      rw [hts]
      exact hinner.le_start h.inside hs
    by_cases hlaminar : s.Laminar t
    · exact .inl hlaminar
    · -- what is inside the heading and not within its style ends with newlines
      refine .inr (.inr ⟨⟨(n, m), ?_, hinner.le_made s hs, hfit.made_lt, hmade⟩, ?_, ?_⟩)
      · rw [if_pos hname]
        exact List.mem_append_left _ (List.mem_singleton_self _)
      · unfold Span.Laminar at hlaminar
        omega
      · intro i hi his
        refine hnewlines i (by rw [← hte]; exact hi) ?_
        exact Nat.lt_of_lt_of_le his (Nat.le_trans hfit.stop_le htext.length_le)

end

/-- **Along the content** the ranges that are added are settled with each other, by induction over
it. -/
theorem exists_adds (lookup? : Option Image.Lookup) (content : Content) :
    ∀ {n : Nat} {d d' : Draft}, d.Sound n →
      (intercepted lookup?).runFrom n content.events d = .ok d' →
      ∃ new, Adds n (content.headings n) d d' new := by
  induction content with
  | empty =>
    intro n d d' _ hok
    cases hok
    exact ⟨[], (List.append_nil _).symm, fun _ hs => absurd hs List.not_mem_nil, .nil⟩
  | data e he rest ih =>
    intro n d d' hd hok
    obtain ⟨d₁, hok₁, hs₁, -⟩ := receive_sound lookup? hd e
    rw [Content.events, Consumer.runFrom_cons_of_ok hok₁] at hok
    obtain ⟨new, hnew⟩ := ih hs₁ hok
    exact ⟨new, by rw [hnew.ranges, ranges_receive_data he hok₁],
      fun s hs => Nat.le_of_succ_le (hnew.le_made s hs), hnew.settled⟩
  | element name attributes inner rest ihi ihr =>
    intro n d d' hd hok
    obtain ⟨d₁, d₂, d₃, h⟩ := exists_runsElement lookup? hd name attributes inner
    obtain ⟨hrest, hext⟩ := h.rest hok
    obtain ⟨own, hown⟩ := adds_startElement hd h.start
    obtain ⟨added, hinner⟩ := ihi h.sound₁ h.content
    obtain ⟨new, hnew⟩ := h.exists_adds hd hown hinner rfl
    obtain ⟨more, hmore⟩ := ihr h.sound₃ hrest
    exact ⟨new ++ more, hnew.append hmore (by omega) h.sound₃ hext⟩

/-- **Ranges that cross.** In every well nested document two styled ranges lie apart or one in the
other, except that the range of an element inside of a heading may stand out of that of the heading,
over nothing but newlines. -/
theorem annotations_settled (lookup? : Option Image.Lookup) (setup : Intercept.Setup)
    (indent : Option Nat) (content : Content) :
    ∃ d : Draft, (intercepted lookup?).run content.events
        ({ setup := setup, indent := indent }, {}) = .ok d ∧
      ∀ s ∈ d.canvas.annotations, ∀ t ∈ d.canvas.annotations,
        s.Laminar t ∨ Overhangs (content.headings 0) d.canvas.text s t ∨
          Overhangs (content.headings 0) d.canvas.text t s := by
  have hfresh : Sound 0 ({ setup := setup, indent := indent }, {}) := ⟨rfl, Canvas.sound_blank 0⟩
  obtain ⟨d, hok, -, -⟩ := run_content lookup? content hfresh
  obtain ⟨new, hnew⟩ := exists_adds lookup? content hfresh hok
  have hranges : d.canvas.ranges = new := hnew.ranges
  refine ⟨d, hok, fun s hs t ht => ?_⟩
  have hmem {s : Span Object} (hs : s ∈ d.canvas.annotations) : s ∈ new := by
    rw [← hranges]
    exact Span.mem_arrange.mp hs
  refine hnew.settled.forall_of_forall_of_flip (fun s _ => ?_) (hnew.settled.imp Settled.symm)
    (hmem hs) (hmem ht)
  exact .inl (.inr (.inr (.inl ⟨Nat.le_refl _, Nat.le_refl _⟩)))

/-- A heading with bold text that ends with a line break, behind some text of the heading. -/
def brokenHeading : Content :=
  .element "h1".toList []
    (.characters "x".toList
      (.element "b".toList []
        (.characters "a".toList (.element "br".toList [] .empty .empty)) .empty)) .empty

/-- **A range that stands out.** The ranges of a well nested document do cross: in this heading the
bold text has a newline at its end under its style, which the heading leaves out. -/
theorem not_annotations_laminar :
    ¬ ∀ (content : Content) (d : Draft),
      (intercepted none).run content.events ({}, {}) = .ok d →
      ∀ s ∈ d.canvas.annotations, ∀ t ∈ d.canvas.annotations, s.Laminar t := by
  intro h
  have hlaminar := h brokenHeading _ rfl
  exact absurd hlaminar (by decide +kernel)

end Draft

end StyledText
