import StyledText.Flow.Basic
import StyledText.Proofs.Canvas.Growth
import StyledText.Proofs.Markup.Content

/-!
# Elements of running text

A tag makes room for a block, and a start tag may put the opening of its element behind that room;
the end tag makes room again and closes the newest opening of the kind. So each tag is told by three
things: the room before and after the element, and its opening.

* `startTag_eq`, `endTag_eq` — what a tag does, by these three;
* `State.receive_sound` — no event fails on a sound canvas, and the canvas stays sound;
* `State.receives_of_receive` — the ways in which an event can go;
* `State.endTag_resolves` — an element resolves its own opening if its content has only made the
  canvas grow.
-/

namespace StyledText

namespace Flow

/-! ## What a tag does -/

namespace Tag

/-- The room before an element. -/
def before (tag : Tag) (c : Canvas) : Canvas :=
  match tag with
  | item => c.newline
  | block => blankLine c
  | quote => blankLine c
  | heading _ => blankLine c
  | _ => c

/-- The room after an element. -/
def after (tag : Tag) (c : Canvas) : Canvas :=
  match tag with
  | lineBreak => c.append ['\n']
  | tag => tag.before c

/-- The opening of an element with these attributes. -/
def opening? (tag : Tag) (attributes : Markup.Attributes) : Option Opening :=
  match tag with
  | item => some .bullet
  | inline i => some (.inline i)
  | font => some (.font (attributes.get? "color".toList) (attributes.get? "face".toList))
  | quote => some .quote
  | link => some (.link (attributes.get? "href".toList))
  | heading level => some (.heading level)
  | _ => none

/-- The kind of opening that an end tag closes. -/
def kind? (tag : Tag) : Option Opening.Kind := (tag.opening? []).map (·.kind)

/-- The attributes have no part in the kind, so an end tag, which has none, closes the opening of
its start tag. -/
theorem kind?_eq (tag : Tag) (attributes : Markup.Attributes) :
    tag.kind? = (tag.opening? attributes).map (·.kind) := by
  cases tag <;> rfl

/-- The room before an element is newlines at the end of the text and nothing else. -/
theorem before_eq_room (tag : Tag) (c : Canvas) :
    ∃ t : Text, tag.before c = c.append t ∧ ∀ x ∈ t, x = '\n' := by
  have hid : ∃ t : Text, c = c.append t ∧ ∀ x ∈ t, x = '\n' := ⟨[], by simp, by simp⟩
  have hblank : ∃ t : Text, blankLine c = c.append t ∧ ∀ x ∈ t, x = '\n' := by
    rw [blankLine]
    split
    · exact hid
    · exact hid
    · exact ⟨_, rfl, by simp⟩
    · exact ⟨_, rfl, by simp⟩
  cases tag with
  | item => exact c.newline_eq_room
  | block => exact hblank
  | quote => exact hblank
  | heading level => exact hblank
  | lineBreak => exact hid
  | inline i => exact hid
  | font => exact hid
  | link => exact hid
  | image => exact hid

/-- So is the room after an element; a line break has only this one. -/
theorem after_eq_room (tag : Tag) (c : Canvas) :
    ∃ t : Text, tag.after c = c.append t ∧ ∀ x ∈ t, x = '\n' := by
  unfold after
  split
  · exact ⟨_, rfl, by simp⟩
  · exact before_eq_room _ c

/-- The room before an element is some text at the end, which is all that the growth of the canvas
depends on. -/
theorem before_eq_append (tag : Tag) (c : Canvas) : ∃ t : Text, tag.before c = c.append t := by
  obtain ⟨t, ht, -⟩ := tag.before_eq_room c
  exact ⟨t, ht⟩

/-- The room after an element is some text at the end, in the same way. -/
theorem after_eq_append (tag : Tag) (c : Canvas) : ∃ t : Text, tag.after c = c.append t := by
  obtain ⟨t, ht, -⟩ := tag.after_eq_room c
  exact ⟨t, ht⟩

end Tag

namespace Tag

/-- The styles of an element with these attributes. -/
def styles (tag : Tag) (attributes : Markup.Attributes) : List Style :=
  ((tag.opening? attributes).map (·.styles)).getD []

/-- The offset up to which an element is styled whose text begins at `start`: the end of the text,
and for a heading the end of its last line. -/
def stop (tag : Tag) (start : Nat) (t : Text) : Nat :=
  match tag with
  | heading _ => start + (Text.dropTrailing (· = '\n') (t.drop start)).length
  | _ => t.length

/-- The offset up to which the opening of a tag is styled depends on the tag and on the text alone,
not on the spans. -/
theorem stopOf_kind {tag : Tag} {attributes : Markup.Attributes} {o : Opening}
    (h : tag.opening? attributes = some o) (start : Nat) (c : Canvas) :
    stopOf o.kind start c = tag.stop start c.text := by
  cases tag <;> cases h <;> rfl

end Tag

/-- Puts an opening of event `n` at the end of the text, if there is one. -/
def begun (n : Nat) (o? : Option Opening) (c : Canvas) : Canvas :=
  match o? with
  | some o => c.marked (.opening n o)
  | none => c

namespace State

variable {lookup? : Option Image.Lookup} {n m : Nat} {tag : Tag} {attributes : Markup.Attributes}
  {f : State}

/-- What a start tag other than that of an image does: it makes room and puts its opening, if it has
one, at the end of the text. -/
theorem startTag_eq (h : f.canvas.Sound n) (ht : tag ≠ .image) :
    f.startTag lookup? n tag attributes =
      .ok { f with canvas := begun n (tag.opening? attributes) (tag.before f.canvas) } := by
  have hmark : ∀ o, f.draw (fun c => beginElement n o (tag.before c)) =
      .ok { f with canvas := (tag.before f.canvas).marked (.opening n o) } := by
    intro o
    obtain ⟨t, hb⟩ := tag.before_eq_append f.canvas
    have hs : Canvas.Sound n (tag.before f.canvas) := by
      rw [hb]
      exact h.append t
    rw [draw, beginElement, Canvas.markEnd_eq_marked hs rfl]
    rfl
  cases tag with
  | image => exact absurd rfl ht
  | lineBreak => rfl
  | block => rfl
  | item => exact hmark _
  | inline i => exact hmark _
  | font => exact hmark _
  | quote => exact hmark _
  | link => exact hmark _
  | heading level => exact hmark _

/-- Looking an image up leaves the canvas alone: only the record of what the resolver was asked may
change. -/
theorem canvas_drawable (source : Option Text) :
    (f.drawable lookup? source).2.canvas = f.canvas := by
  unfold drawable
  split
  · split <;> rfl
  · rfl

/-- An image stands on a character of its own, over which it is styled at once; there is nothing
left for an end tag to do. -/
theorem startTag_image_eq (lookup? : Option Image.Lookup) (attributes : Markup.Attributes)
    (h : f.canvas.Sound n) :
    ∃ f' source drawable, f.startTag lookup? n .image attributes = .ok f' ∧
      f'.canvas = Canvas.styled n [.image source drawable] f.canvas.length (f.canvas.length + 1)
        (f.canvas.append [objectReplacement]) := by
  have hlen : (f.canvas.append [objectReplacement]).length = f.canvas.length + 1 := by
    rw [Buffer.length_append]
    rfl
  have hc : (f.drawable lookup? (attributes.get? "src".toList)).2.canvas = f.canvas :=
    canvas_drawable _
  have hattach (s : Style) : Canvas.attach n [s] f.canvas.length (f.canvas.length + 1)
      (f.canvas.append [objectReplacement]) =
        .ok (Canvas.styled n [s] f.canvas.length (f.canvas.length + 1)
          (f.canvas.append [objectReplacement])) :=
    Canvas.attach_eq_styled (h.append _) (by simp) (Nat.lt_succ_self _) (Nat.le_of_eq hlen.symm)
  refine ⟨{ (f.drawable lookup? (attributes.get? "src".toList)).2 with
    canvas := Canvas.styled n [.image (attributes.get? "src".toList)
      (f.drawable lookup? (attributes.get? "src".toList)).1] f.canvas.length (f.canvas.length + 1)
      (f.canvas.append [objectReplacement]) }, _, _, ?_, rfl⟩
  simp only [startTag, image, hc]
  rw [hlen, hattach]
  rfl

/-- What an end tag does: it makes room and closes the newest opening of its kind, if the tag has a
kind at all. -/
theorem endTag_eq :
    f.endTag n tag =
      match tag.kind? with
      | some kind => f.draw fun c => finish n kind (tag.after c)
      | none => .ok { f with canvas := tag.after f.canvas } := by
  cases tag <;> rfl

end State

/-! ## Closing an element -/

/-- An opening has no style twice, so its styles may be attached one after the other. -/
theorem nodup_styles (o : Opening) : o.styles.Nodup := by
  cases o with
  | font color face =>
    simp only [Opening.styles]
    cases face.filter (· ≠ []) <;> cases Opening.fontColor? color <;> simp
  | heading level => simp [Opening.styles]
  | _ => simp [Opening.styles]

/-- What is styled ends between the start of the element and the end of the text, also where a
heading leaves its last newlines out. -/
theorem le_stopOf {kind : Opening.Kind} {start : Nat} {c : Canvas} (h : start ≤ c.length) :
    start ≤ stopOf kind start c ∧ stopOf kind start c ≤ c.length := by
  cases kind with
  | heading =>
    obtain ⟨r, hr, -⟩ := Text.exists_dropTrailing_append (· = '\n') (c.text.drop start)
    have hlen := congrArg List.length hr
    simp only [List.length_append, List.length_drop] at hlen
    simp only [stopOf, Buffer.length] at *
    omega
  | _ => exact ⟨h, Nat.le_refl _⟩

/-- The newest opening of a kind is attached to the canvas, and it has that kind. -/
theorem newest?_eq_some {kind : Opening.Kind} {c : Canvas} {o : Opening} {s : Span Object}
    (h : newest? kind c = some (o, s)) :
    s ∈ c.spans ∧ s.what.opening? = some o ∧ o.kind = kind := by
  obtain ⟨r, hr, hrs⟩ := Option.bind_eq_some_iff.mp h
  obtain ⟨o', ho', heq⟩ := Option.map_eq_some_iff.mp hrs
  cases heq
  have hp := List.find?_some hr
  simp only [ho', Option.any_some, Bool.and_eq_true, decide_eq_true_eq] at hp
  exact ⟨List.mem_reverse.mp (List.mem_of_find?_eq_some hr), ho', hp.2⟩

/-- Without an opening of the kind, closing does nothing and does not fail. -/
theorem finish_of_newest?_eq_none {n : Nat} {kind : Opening.Kind} {c : Canvas}
    (h : newest? kind c = none) : finish n kind c = .ok c := by
  simp [finish, h]

/-- The canvas after the opening `s` with these styles has been closed. -/
def closed (n : Nat) (kind : Opening.Kind) (styles : List Style) (s : Span Object) (c : Canvas) :
    Canvas :=
  Canvas.styled n styles s.start (stopOf kind s.start c) (Buffer.remove c s.what)

/-- With one, closing takes its mark off and puts its styles over the text from the mark on. All
lookups on the way succeed, since the mark is attached. -/
theorem finish_of_newest? {n : Nat} {kind : Opening.Kind} {c : Canvas} {o : Opening}
    {s : Span Object} (hc : c.Sound n) (h : newest? kind c = some (o, s)) :
    finish n kind c = .ok (closed n kind o.styles s c) := by
  have hfit := hc s (newest?_eq_some h).1
  have hstop : s.start ≤ stopOf kind s.start c ∧ stopOf kind s.start c ≤ c.length :=
    le_stopOf (Nat.le_trans hfit.start_le hfit.stop_le)
  simp only [finish, h, closed]
  split
  next he => rw [← he, Canvas.styled_self]
  next hne =>
    exact Canvas.attach_eq_styled (hc.remove _) (nodup_styles o)
      (Nat.lt_of_le_of_ne hstop.1 hne) hstop.2

/-- Closing the newest opening of a kind never fails on a sound canvas, whether there is one or not,
and leaves a sound canvas. -/
theorem finish_sound {n : Nat} {kind : Opening.Kind} {c : Canvas} (hc : c.Sound n) :
    ∃ c', finish n kind c = .ok c' ∧ c'.Sound (n + 1) := by
  rcases h : newest? kind c with _ | ⟨o, s⟩
  · exact ⟨c, finish_of_newest?_eq_none h, hc.mono (Nat.le_succ n)⟩
  · have hfit := hc s (newest?_eq_some h).1
    have hstop : s.start ≤ stopOf kind s.start c ∧ stopOf kind s.start c ≤ c.length :=
      le_stopOf (Nat.le_trans hfit.start_le hfit.stop_le)
    exact ⟨_, finish_of_newest? hc h, (hc.remove _).styled hstop.1 hstop.2⟩

namespace State

variable {lookup? : Option Image.Lookup} {n m : Nat} {tag : Tag} {attributes : Markup.Attributes}
  {f : State}

/-- No start tag fails on a sound canvas: an opening is marked under a number that no span has, so
attaching it is never refused. -/
theorem startTag_sound (h : f.canvas.Sound n) :
    ∃ f', f.startTag lookup? n tag attributes = .ok f' ∧ f'.canvas.Sound (n + 1) := by
  by_cases ht : tag = .image
  · subst ht
    obtain ⟨f', source, drawable, hf', hc⟩ := startTag_image_eq lookup? attributes h
    refine ⟨f', hf', ?_⟩
    rw [hc]
    exact (h.append _).styled (Nat.le_succ _) (by rw [Buffer.length_append]; exact Nat.le_refl _)
  · refine ⟨_, startTag_eq h ht, ?_⟩
    obtain ⟨t, hb⟩ := tag.before_eq_append f.canvas
    have hs : Canvas.Sound n (tag.before f.canvas) := by
      rw [hb]
      exact h.append t
    cases tag.opening? attributes with
    | none => exact hs.mono (Nat.le_succ n)
    | some o => exact hs.marked rfl rfl

/-- No end tag fails on a sound canvas: the room is text at the end, and closing the newest opening
does not fail. -/
theorem endTag_sound (h : f.canvas.Sound n) :
    ∃ f', f.endTag n tag = .ok f' ∧ f'.canvas.Sound (n + 1) := by
  obtain ⟨t, ha⟩ := tag.after_eq_append f.canvas
  have hs : Canvas.Sound n (tag.after f.canvas) := by
    rw [ha]
    exact h.append t
  rw [endTag_eq]
  cases tag.kind? with
  | none => exact ⟨_, rfl, hs.mono (Nat.le_succ n)⟩
  | some kind =>
    obtain ⟨c', hc', hs'⟩ : ∃ c', finish n kind (tag.after f.canvas) = .ok c' ∧
        c'.Sound (n + 1) := finish_sound hs
    refine ⟨{ f with canvas := c' }, ?_, hs'⟩
    simp only [draw, hc']
    rfl

/-- **An element resolves its own opening.** Content that has made the canvas grow leaves the
opening as the newest of its kind, so the end tag closes it. -/
theorem endTag_resolves {f₁ f₂ : State} (hc : f.canvas.Sound n)
    (h₁ : f.startTag lookup? n tag attributes = .ok f₁) (h₂ : f₁.canvas.Grows f₂.canvas)
    (hc₂ : f₂.canvas.Sound m) :
    ∃ f₃, f₂.endTag m tag = .ok f₃ ∧ f.canvas.Grows f₃.canvas ∧
      Canvas.Resolves n m (tag.stop f₁.canvas.length f₃.canvas.text) (tag.styles attributes)
        f.canvas f₁.canvas f₂.canvas f₃.canvas := by
  by_cases ht : tag = .image
  · -- an image is complete with its start tag, which leaves no mark
    subst ht
    obtain ⟨f', source, drawable, hf', hf'c⟩ := startTag_image_eq lookup? attributes hc
    obtain rfl := Except.ok.inj (hf'.symm.trans h₁)
    have hgrows : f.canvas.Grows f'.canvas := by
      rw [hf'c]
      exact (Canvas.grows_append _ _).styled (Nat.le_refl _)
    exact ⟨f₂, rfl, hgrows.trans h₂, Canvas.resolves_of_no_mark n m _ hgrows h₂ rfl⟩
  · obtain rfl := Except.ok.inj ((startTag_eq hc ht).symm.trans h₁)
    obtain ⟨t, hb⟩ := tag.before_eq_append f.canvas
    obtain ⟨t', ha⟩ := tag.after_eq_append f₂.canvas
    rw [endTag_eq, tag.kind?_eq attributes]
    cases ho : tag.opening? attributes with
    -- no opening: two pieces of room, and nothing to take off
    | none =>
      rw [ho] at h₂
      have hbefore : f.canvas.Grows (tag.before f.canvas) := by
        rw [hb]
        exact Canvas.grows_append _ _
      have hafter : f₂.canvas.Grows (tag.after f₂.canvas) := by
        rw [ha]
        exact Canvas.grows_append _ _
      refine ⟨_, rfl, (hbefore.trans h₂).trans hafter, ?_⟩
      have hstyles : tag.styles attributes = [] := by
        rw [Tag.styles, ho]
        rfl
      rw [hstyles]
      exact Canvas.resolves_of_no_mark n m _ hbefore h₂ (by rw [ha]; rfl)
    | some o =>
      rw [ho] at h₂
      have htext : f.canvas.text <+: (tag.before f.canvas).text := by
        rw [hb]
        exact List.prefix_append _ _
      have hspans : (tag.before f.canvas).spans = f.canvas.spans := by
        rw [hb]
        rfl
      have hs : Canvas.Sound m (tag.after f₂.canvas) := by
        rw [ha]
        exact hc₂.append t'
      -- the mark of the start tag is pending under the content, and so the newest of its kind
      have hp : f.canvas.Pending (.opening n o) (tag.before f.canvas).length
          (tag.after f₂.canvas) := by
        rw [ha]
        exact ((Canvas.Pending.of_marked _ htext hspans).grows h₂).grows
          (Canvas.grows_append _ _)
      have hnewest : newest? o.kind (tag.after f₂.canvas) = some (o, ⟨.opening n o,
          (tag.before f.canvas).length, (tag.before f.canvas).length, .mark⟩) := by
        rw [newest?, hp.lastMark?_eq (by simp [Object.opening?])]
        rfl
      have hstyles : tag.styles attributes = o.styles := by
        rw [Tag.styles, ho]
        rfl
      refine ⟨{ f₂ with canvas := closed m o.kind o.styles ⟨.opening n o,
        (tag.before f.canvas).length, (tag.before f.canvas).length, .mark⟩ (tag.after f₂.canvas) },
        ?_, ?_, ?_⟩
      · simp only [Option.map_some, draw, finish_of_newest? hs hnewest]
        rfl
      · exact (hp.remove_grows hc hs rfl rfl).styled hp.le
      · rw [hstyles]
        refine Canvas.resolves_of_marked hc rfl rfl htext hspans h₂ hc₂ ?_
        rw [closed, Tag.stopOf_kind ho, ha]
        rfl

/-- No event fails on a sound canvas, and the canvas stays sound under the next number. This is the
step of every run of running text. -/
theorem receive_sound (lookup? : Option Image.Lookup) (h : f.canvas.Sound n) (e : Markup.Event) :
    ∃ f', f.receive lookup? n e = .ok f' ∧ f'.canvas.Sound (n + 1) := by
  have hid : f.canvas.Sound (n + 1) := h.mono (Nat.le_succ n)
  cases e with
  | startElement name attributes =>
    simp only [receive]
    cases Tag.ofName? name with
    | none => exact ⟨f, rfl, hid⟩
    | some tag => exact startTag_sound h
  | endElement name =>
    simp only [receive]
    cases Tag.ofName? name with
    | none => exact ⟨f, rfl, hid⟩
    | some tag => exact endTag_sound h
  | characters t => exact ⟨f.characters t, rfl, hid.append _⟩
  | _ => exact ⟨f, rfl, hid⟩

/-- The ways in which an event can go: it is a tag of a known name, or data that is written, or else
it is passed over. -/
inductive Receives (lookup? : Option Image.Lookup) (n : Nat) (f : State) :
    Markup.Event → State → Prop
  | startTag {name : Text} {attributes : Markup.Attributes} {tag : Tag} {f' : State}
      (htag : Tag.ofName? name = some tag) (h : f.startTag lookup? n tag attributes = .ok f') :
      Receives lookup? n f (.startElement name attributes) f'
  | endTag {name : Text} {tag : Tag} {f' : State} (htag : Tag.ofName? name = some tag)
      (h : f.endTag n tag = .ok f') : Receives lookup? n f (.endElement name) f'
  | characters (t : Text) : Receives lookup? n f (.characters t) (f.characters t)
  | ignored {e : Markup.Event} (hname : ∀ name, e.name? = some name → Tag.ofName? name = none)
      (hdata : ∀ t, e ≠ .characters t) : Receives lookup? n f e f

/-- Every event that succeeds goes in one of these ways, so what is to be shown of running text is
shown of each of them. -/
theorem receives_of_receive {f' : State} {e : Markup.Event} (h : f.receive lookup? n e = .ok f') :
    Receives lookup? n f e f' := by
  cases e with
  | startElement name attributes =>
    simp only [receive] at h
    split at h
    next tag htag => exact .startTag htag h
    next hnone =>
      cases h
      exact .ignored (by rintro _ ⟨⟩; exact hnone) nofun
  | endElement name =>
    simp only [receive] at h
    split at h
    next tag htag => exact .endTag htag h
    next hnone =>
      cases h
      exact .ignored (by rintro _ ⟨⟩; exact hnone) nofun
  | characters t =>
    cases h
    exact .characters t
  | _ =>
    cases h
    exact .ignored (by rintro _ ⟨⟩) nofun

end State

end Flow

end StyledText
