import StyledText.Format
import StyledText.Proofs.Flow.Element
import StyledText.Proofs.Intercept.Run

/-!
# Drafts

A draft is what is held between two events while running text is written behind the interceptor:
what the interceptor knows, and what has been written. Both sides work on one canvas.

* `Draft.Reachable` — the drafts that some events lead to;
* `Draft.receive_sound` — no event fails on a reachable draft;
* `Draft.run_content` — well nested content leaves open what was open, and the canvas grows.
-/

namespace StyledText

open Markup (Event Attributes Content)

/-- What is held between two events. -/
abbrev Draft := Intercept.State × Flow.State

namespace Draft

variable {lookup? : Option Image.Lookup} {n m : Nat} {d d₁ d₂ : Draft}

/-- What the interceptor knows. -/
abbrev tags (d : Draft) : Intercept.State := d.1

/-- What is written on. -/
abbrev canvas (d : Draft) : Canvas := d.2.canvas

/-- The draft with another state of the interceptor and another canvas. -/
def put (d : Draft) : Intercept.State × Canvas → Draft :=
  fun (t, c) => (t, { d.2 with canvas := c })

/-- The drafts before event `n` that events lead to; the indentation of lists may be set between
them. -/
inductive Reachable (lookup? : Option Image.Lookup) : Nat → Draft → Prop
  | start (setup : Intercept.Setup) : Reachable lookup? 0 ({ setup := setup }, {})
  | indent {n : Nat} {t t' : Intercept.State} {f : Flow.State} {px : Binary64} :
      Reachable lookup? n (t, f) → t.setIndent px = .ok t' → Reachable lookup? n (t', f)
  | event {n : Nat} {d d' : Draft} {e : Event} :
      Reachable lookup? n d → (intercepted lookup?).receive n e d = .ok d' →
        Reachable lookup? (n + 1) d'

/-- A balanced interceptor on a canvas that is sound before event `n`. -/
structure Sound (n : Nat) (d : Draft) : Prop where
  balanced : d.tags.Balanced
  canvas : d.canvas.Sound n

/-- `d'` has the same elements open as `d`, and the canvas has grown. -/
structure Extends (d d' : Draft) : Prop where
  sameOpen : d.tags.SameOpen d'.tags
  grows : d.canvas.Grows d'.canvas

theorem Extends.refl (d : Draft) : d.Extends d := ⟨.refl _, .refl _⟩

/-- Parts of the content that come one after another extend the draft together: neither leaves
anything open. -/
theorem Extends.trans {d d' d'' : Draft} (h : d.Extends d') (h' : d'.Extends d'') :
    d.Extends d'' :=
  ⟨h.sameOpen.trans h'.sameOpen, h.grows.trans h'.grows⟩

/-! ## What an event does -/

/-- An intercepted start tag comes to the interceptor alone; of the running text only the canvas
changes. -/
theorem receive_startElement_of_ofName? {name : Text} {tag : Intercept.Tag}
    (h : Intercept.Tag.ofName? name = some tag) (attributes : Attributes) :
    (intercepted lookup?).receive n (.startElement name attributes) d =
      (d.tags.startTag n tag attributes d.canvas).map d.put :=
  Consumer.receive_startElement_of_ofName? h attributes

/-- An intercepted end tag comes to the interceptor alone as well. -/
theorem receive_endElement_of_ofName? {name : Text} {tag : Intercept.Tag}
    (h : Intercept.Tag.ofName? name = some tag) :
    (intercepted lookup?).receive n (.endElement name) d =
      (d.tags.endTag n tag d.canvas).map d.put :=
  Consumer.receive_endElement_of_ofName? h

/-- What the interceptor declines goes to the running text, with the interceptor as it was. -/
theorem receive_of_declined {e : Event}
    (h : ∀ name, e.name? = some name → Intercept.Tag.ofName? name = none) :
    (intercepted lookup?).receive n e d =
      (d.2.receive lookup? n e).map fun f => (d.tags, f) :=
  Consumer.receive_of_declined h

/-- The consumer behind the interceptor keeps the canvas sound, which is all that the interceptor
relies on. -/
theorem flow_keepsSound (lookup? : Option Image.Lookup) :
    (flow lookup?).KeepsSound Flow.State.access :=
  fun _ e _ h => Flow.State.receive_sound lookup? h e

/-- **No event fails** on a sound draft, which stays sound; and unless a table begins or ends, the
number of tables around stays. -/
theorem receive_sound (lookup? : Option Image.Lookup) (hd : d.Sound n) (e : Event) :
    ∃ d' : Draft, (intercepted lookup?).receive n e d = .ok d' ∧ d'.Sound (n + 1) ∧
      ((∀ name, e.name? = some name → name.lower ≠ "table".toList) →
        d'.tags.depth = d.tags.depth) := by
  obtain ⟨t, f, hok, hb, hs, hdepth⟩ :=
    Consumer.receive_sound (flow_keepsSound lookup?) hd.balanced hd.canvas e
  exact ⟨(t, f), hok, ⟨hb, hs⟩, hdepth⟩

/-- **No events fail**, whatever they are and in whatever order, by induction over them. -/
theorem run_sound (lookup? : Option Image.Lookup) (events : List Event) (hd : d.Sound n) :
    ∃ d' : Draft, (intercepted lookup?).runFrom n events d = .ok d' ∧
      d'.Sound (n + events.length) ∧
      ((∀ e ∈ events, ∀ name, e.name? = some name → name.lower ≠ "table".toList) →
        d'.tags.depth = d.tags.depth) := by
  obtain ⟨t, f, hok, hb, hs, hdepth⟩ :=
    Consumer.run_sound (flow_keepsSound lookup?) events hd.balanced hd.canvas
  exact ⟨(t, f), hok, ⟨hb, hs⟩, hdepth⟩

/-- What each event keeps of sound drafts, all of them keep; so an invariant is shown of one event
and holds along every run. -/
theorem runFrom_invariant {P : Nat → Draft → Prop} {events : List Event}
    (hstep : ∀ e ∈ events, ∀ {n : Nat} {d d' : Draft}, d.Sound n → P n d →
      (intercepted lookup?).receive n e d = .ok d' → P (n + 1) d')
    (hd : d.Sound n) (hP : P n d) (hrun : (intercepted lookup?).runFrom n events d = .ok d₂) :
    P (n + events.length) d₂ :=
  Consumer.runFrom_invariant (P := fun n t f => P n (t, f)) (flow_keepsSound lookup?)
    (fun e he _ _ _ _ _ hb hc => hstep e he ⟨hb, hc⟩) hd.balanced hd.canvas hP hrun

/-- Whatever has happened before, a reachable draft is sound: the interceptor is balanced, and the
canvas has room for the marks of the next event. -/
theorem Reachable.sound (h : Reachable lookup? n d) : d.Sound n := by
  induction h with
  | start setup => exact ⟨rfl, Canvas.sound_blank 0⟩
  | indent _ hset ih =>
    rw [Intercept.State.setIndent] at hset
    obtain ⟨k, -, rfl⟩ := exists_of_map_eq_ok hset
    exact ⟨ih.balanced, ih.canvas⟩
  | event _ hok ih =>
    obtain ⟨d', hok', hs, -⟩ := receive_sound lookup? ih _
    cases hok.symm.trans hok'
    exact hs

/-- Events lead from reachable drafts to reachable drafts, so what is shown of those holds at every
place of a document. -/
theorem Reachable.run {d' : Draft} {events : List Event} (h : Reachable lookup? n d)
    (hok : (intercepted lookup?).runFrom n events d = .ok d') :
    Reachable lookup? (n + events.length) d' := by
  induction events generalizing n d with
  | nil =>
    cases hok
    exact h
  | cons e events ih =>
    obtain ⟨d₁, hok₁, hrest⟩ := exists_of_bind_eq_ok hok
    have := ih (h.event hok₁) hrest
    rwa [Nat.add_assoc, Nat.add_comm 1] at this

/-- The ways in which an event can go: it is declined and goes to the running text, or it is a tag
that is intercepted, which opens or closes its element and is recorded. -/
inductive Receives (lookup? : Option Image.Lookup) (n : Nat) (d : Draft) : Event → Draft → Prop
  | declined {e : Event} {f : Flow.State}
      (hnone : ∀ name, e.name? = some name → Intercept.Tag.ofName? name = none)
      (h : d.2.receive lookup? n e = .ok f) : Receives lookup? n d e (d.tags, f)
  | startTag {name : Text} {attributes : Attributes} {tag : Intercept.Tag} {t : Intercept.State}
      {c : Canvas} (htag : Intercept.Tag.ofName? name = some tag)
      (h : Intercept.State.Opens n attributes d.tags d.canvas tag t c) :
      Receives lookup? n d (.startElement name attributes) (d.put (t.record tag.startText, c))
  | endTag {name : Text} {tag : Intercept.Tag} {t : Intercept.State} {c : Canvas}
      (htag : Intercept.Tag.ofName? name = some tag)
      (h : Intercept.State.Shuts n d.tags d.canvas tag t c) :
      Receives lookup? n d (.endElement name) (d.put (t.record tag.endText, c))

/-- On a sound draft every event goes in one of these ways, so what is to be shown of an event is
shown of each of them. -/
theorem receives_of_receive {d' : Draft} {e : Event} (hd : d.Sound n)
    (hok : (intercepted lookup?).receive n e d = .ok d') : Receives lookup? n d e d' := by
  obtain ⟨t', f'⟩ := d'
  cases Consumer.handles_of_receive hok with
  | declined hnone h => exact .declined hnone h
  | startTag htag h =>
    obtain ⟨t, hopens, rfl⟩ := Intercept.State.opens_of_startTag hd.balanced hd.canvas h
    exact .startTag htag hopens
  | endTag htag h =>
    obtain ⟨t, hshuts, rfl⟩ := Intercept.State.shuts_of_endTag hd.balanced hd.canvas h
    exact .endTag htag hshuts

/-- A start tag that is intercepted has opened its element, and has been recorded behind all that
this has written. -/
theorem opens_of_receive {name : Text} {attributes : Attributes} {tag : Intercept.Tag} {d' : Draft}
    (htag : Intercept.Tag.ofName? name = some tag) (hd : d.Sound n)
    (hok : (intercepted lookup?).receive n (.startElement name attributes) d = .ok d') :
    ∃ t, Intercept.State.Opens n attributes d.tags d.canvas tag t d'.canvas ∧
      d'.tags = t.record tag.startText := by
  rw [receive_startElement_of_ofName? htag] at hok
  obtain ⟨⟨t', c⟩, hstart, rfl⟩ := exists_of_map_eq_ok hok
  exact Intercept.State.opens_of_startTag hd.balanced hd.canvas hstart

/-- An end tag that is intercepted has closed its element, and has been recorded behind all that
this has written. -/
theorem shuts_of_receive {name : Text} {tag : Intercept.Tag} {d' : Draft}
    (htag : Intercept.Tag.ofName? name = some tag) (hd : d.Sound n)
    (hok : (intercepted lookup?).receive n (.endElement name) d = .ok d') :
    ∃ t, Intercept.State.Shuts n d.tags d.canvas tag t d'.canvas ∧
      d'.tags = t.record tag.endText := by
  rw [receive_endElement_of_ofName? htag] at hok
  obtain ⟨⟨t', c⟩, hend, rfl⟩ := exists_of_map_eq_ok hok
  exact Intercept.State.shuts_of_endTag hd.balanced hd.canvas hend

/-- What the interceptor declines leaves it alone: markers, lists, counters and the markup of a
table. -/
theorem tags_of_declined {e : Event} {d' : Draft}
    (h : ∀ name, e.name? = some name → Intercept.Tag.ofName? name = none)
    (hok : (intercepted lookup?).receive n e d = .ok d') : d'.tags = d.tags := by
  rw [receive_of_declined h] at hok
  obtain ⟨f, -, rfl⟩ := exists_of_map_eq_ok hok
  rfl

/-! ## Elements -/

/-- The styles of an element with these attributes whose end tag comes in this state of the
interceptor. -/
def elementStyles (name : Text) (attributes : Attributes) (t : Intercept.State) : List Style :=
  match Intercept.Tag.ofName? name with
  | some tag => tag.styles attributes t
  | none =>
    match Flow.Tag.ofName? name with
    | some tag => tag.styles attributes
    | none => []

/-- The offset up to which an element is styled whose text begins at `start` and ends with the whole
text. -/
def elementStop (name : Text) (start : Nat) (text : Text) : Nat :=
  match Intercept.Tag.ofName? name with
  | some _ => text.length
  | none =>
    match Flow.Tag.ofName? name with
    | some tag => tag.stop start text
    | none => text.length

/-- An element of running text resolves its own opening; the interceptor takes no part. -/
theorem exists_endElement_of_declined {name : Text} {attributes : Attributes}
    (hname : Intercept.Tag.ofName? name = none) (hd : d.Sound n)
    (h₁ : (intercepted lookup?).receive n (.startElement name attributes) d = .ok d₁)
    (h₂ : d₁.Extends d₂) (hd₂ : d₂.Sound m) :
    ∃ d₃ : Draft, (intercepted lookup?).receive m (.endElement name) d₂ = .ok d₃ ∧ d.Extends d₃ ∧
      Canvas.Resolves n m (elementStop name d₁.canvas.length d₃.canvas.text)
        (elementStyles name attributes d₂.tags) d.canvas d₁.canvas d₂.canvas d₃.canvas := by
  rw [receive_of_declined (by rintro _ ⟨⟩; exact hname)] at h₁
  obtain ⟨f₁, hf₁, rfl⟩ := exists_of_map_eq_ok h₁
  rw [receive_of_declined (by rintro _ ⟨⟩; exact hname)]
  rcases htag : Flow.Tag.ofName? name with _ | tag
  · simp only [Flow.State.receive, elementStop, elementStyles, hname, htag] at hf₁ ⊢
    cases hf₁
    exact ⟨d₂, rfl, h₂, Canvas.resolves_of_no_mark n m _ (.refl _) h₂.grows rfl⟩
  · simp only [Flow.State.receive, elementStop, elementStyles, hname, htag] at hf₁ ⊢
    obtain ⟨f₃, hf₃, hgrows, hres⟩ :=
      Flow.State.endTag_resolves hd.canvas hf₁ h₂.grows hd₂.canvas
    exact ⟨(d₂.tags, f₃), by rw [hf₃]; rfl, ⟨h₂.sameOpen, hgrows⟩, hres⟩

/-- An element outside of tables resolves its own mark, whichever side it goes to: on both, the
content has left this mark the newest of its kind. -/
theorem exists_endElement_resolves {name : Text} {attributes : Attributes} (hd : d.Sound n)
    (hdepth : d.tags.depth = 0) (hname : name.lower ≠ "table".toList)
    (h₁ : (intercepted lookup?).receive n (.startElement name attributes) d = .ok d₁)
    (h₂ : d₁.Extends d₂) (hd₂ : d₂.Sound m) :
    ∃ d₃ : Draft, (intercepted lookup?).receive m (.endElement name) d₂ = .ok d₃ ∧ d.Extends d₃ ∧
      Canvas.Resolves n m (elementStop name d₁.canvas.length d₃.canvas.text)
        (elementStyles name attributes d₂.tags) d.canvas d₁.canvas d₂.canvas d₃.canvas := by
  rcases htag : Intercept.Tag.ofName? name with _ | tag
  · exact exists_endElement_of_declined htag hd h₁ h₂ hd₂
  · have hne : tag ≠ .table := by
      rintro rfl
      exact hname (Consumer.lower_eq_of_ofName?_table htag)
    rw [receive_startElement_of_ofName? htag] at h₁
    obtain ⟨⟨t₁, c₁⟩, hstart, rfl⟩ := exists_of_map_eq_ok h₁
    obtain ⟨t₃, c₃, hend, hs₃, hgrows, hres⟩ := Intercept.State.endTag_resolves hne hd.balanced
      hd.canvas hdepth hstart h₂.sameOpen h₂.grows hd₂.canvas
    refine ⟨d₂.put (t₃, c₃), ?_, ⟨hs₃, hgrows⟩, ?_⟩
    · rw [receive_endElement_of_ofName? htag, hend]
      rfl
    · simp only [elementStop, elementStyles, htag]
      exact hres

/-- The end tag of an element whose content has left open what was open does so as well, tables
included. -/
theorem exists_endElement {name : Text} {attributes : Attributes} (hd : d.Sound n)
    (h₁ : (intercepted lookup?).receive n (.startElement name attributes) d = .ok d₁)
    (h₂ : d₁.Extends d₂) (hd₂ : d₂.Sound m) :
    ∃ d₃ : Draft, (intercepted lookup?).receive m (.endElement name) d₂ = .ok d₃ ∧
      d.Extends d₃ := by
  rcases hname : Intercept.Tag.ofName? name with _ | tag
  · obtain ⟨d₃, hok, h₃, -⟩ := exists_endElement_of_declined hname hd h₁ h₂ hd₂
    exact ⟨d₃, hok, h₃⟩
  · rw [receive_startElement_of_ofName? hname] at h₁
    obtain ⟨⟨t₁, c₁⟩, hstart, rfl⟩ := exists_of_map_eq_ok h₁
    obtain ⟨t₃, c₃, hend, hs₃, hgrows⟩ := Intercept.State.endTag_grows hd.balanced hd.canvas
      hstart h₂.sameOpen h₂.grows hd₂.canvas
    refine ⟨d₂.put (t₃, c₃), ?_, ⟨hs₃, hgrows⟩⟩
    rw [receive_endElement_of_ofName? hname, hend]
    rfl

/-- Data leaves the interceptor alone and adds to the text at most. -/
theorem exists_receive_data (lookup? : Option Image.Lookup) (n : Nat) {e : Event}
    (he : e.isTag = false) (d : Draft) :
    ∃ d' : Draft, (intercepted lookup?).receive n e d = .ok d' ∧ d.Extends d' := by
  have hnone : ∀ name, e.name? = some name → Intercept.Tag.ofName? name = none := by
    intro name hn
    rw [Event.isTag, hn] at he
    cases he
  rw [receive_of_declined hnone]
  cases e with
  | startElement name attributes => cases he
  | endElement name => cases he
  | characters t => exact ⟨_, rfl, .refl _, Canvas.grows_append _ _⟩
  | _ => exact ⟨d, rfl, .refl d⟩

/-- **Well nested content** leaves open what was open, and the canvas has grown. By induction over
the content: an element puts its own mark down and takes it off again. -/
theorem run_content (lookup? : Option Image.Lookup) (content : Content) :
    ∀ {n : Nat} {d : Draft}, d.Sound n →
      ∃ d' : Draft, (intercepted lookup?).runFrom n content.events d = .ok d' ∧
        d'.Sound (n + content.events.length) ∧ d.Extends d' := by
  intro n d hd
  obtain ⟨d', hok, hs, -⟩ := run_sound lookup? content.events hd
  refine ⟨d', hok, hs, ?_⟩
  clear hs
  -- the run is known to succeed, so the induction only has to follow it
  induction content generalizing n d d' with
  | empty =>
    cases hok
    exact .refl d
  | data e he rest ih =>
    obtain ⟨d₁, hok₁, hs₁, -⟩ := receive_sound lookup? hd e
    obtain ⟨d₁', hok₁', h₁⟩ := exists_receive_data lookup? n he d
    cases hok₁.symm.trans hok₁'
    rw [Content.events, Consumer.runFrom_cons_of_ok hok₁] at hok
    exact h₁.trans (ih hs₁ _ hok)
  | element name attributes inner rest ihi ihr =>
    obtain ⟨d₁, hok₁, hs₁, -⟩ := receive_sound lookup? hd (.startElement name attributes)
    obtain ⟨d₂, hok₂, hs₂, -⟩ := run_sound lookup? inner.events hs₁
    have h₂ : d₁.Extends d₂ := ihi hs₁ _ hok₂
    obtain ⟨d₃, hok₃, hs₃, -⟩ := receive_sound lookup? hs₂ (.endElement name)
    obtain ⟨d₃', hok₃', h₃⟩ := exists_endElement hd hok₁ h₂ hs₂
    cases hok₃.symm.trans hok₃'
    rw [Consumer.runFrom_element_of_ok hok₁ hok₂ hok₃] at hok
    exact h₃.trans (ihr hs₃ _ hok)

/-- The tags and the content of an element, run from `d` on; behind them are `d₁`, `d₂` and `d₃`. -/
structure RunsElement (lookup? : Option Image.Lookup) (n : Nat) (name : Text)
    (attributes : Attributes) (inner : Content) (d d₁ d₂ d₃ : Draft) : Prop where
  start : (intercepted lookup?).receive n (.startElement name attributes) d = .ok d₁
  content : (intercepted lookup?).runFrom (n + 1) inner.events d₁ = .ok d₂
  stop : (intercepted lookup?).receive (n + 1 + inner.events.length) (.endElement name) d₂ = .ok d₃
  sound₁ : d₁.Sound (n + 1)
  sound₂ : d₂.Sound (n + 1 + inner.events.length)
  sound₃ : d₃.Sound (n + 1 + inner.events.length + 1)
  depth₁ : name.lower ≠ "table".toList → d₁.tags.depth = d.tags.depth
  inside : d₁.Extends d₂
  around : d.Extends d₃

/-- Every element can be run from a sound draft, with all that is known of the drafts on the way. -/
theorem exists_runsElement (lookup? : Option Image.Lookup) (hd : d.Sound n) (name : Text)
    (attributes : Attributes) (inner : Content) :
    ∃ d₁ d₂ d₃ : Draft, RunsElement lookup? n name attributes inner d d₁ d₂ d₃ := by
  obtain ⟨d₁, hok₁, hs₁, hdepth⟩ := receive_sound lookup? hd (.startElement name attributes)
  obtain ⟨d₂, hok₂, hs₂, h₂⟩ := run_content lookup? inner hs₁
  obtain ⟨d₃, hok₃, hs₃, -⟩ := receive_sound lookup? hs₂ (.endElement name)
  obtain ⟨d₃', hok₃', h₃⟩ := exists_endElement hd hok₁ h₂ hs₂
  cases hok₃.symm.trans hok₃'
  exact ⟨d₁, d₂, d₃, hok₁, hok₂, hok₃, hs₁, hs₂, hs₃,
    fun hname => hdepth (by rintro _ ⟨⟩; exact hname), h₂, h₃⟩

/-- What comes behind an element goes on from there, and extends what the element has left. -/
theorem RunsElement.rest {name : Text} {attributes : Attributes} {inner : Content}
    {d d' d₁ d₂ d₃ : Draft} (h : RunsElement lookup? n name attributes inner d d₁ d₂ d₃)
    {rest : Content}
    (hok : (intercepted lookup?).runFrom n (Content.element name attributes inner rest).events d =
      .ok d') :
    (intercepted lookup?).runFrom (n + 1 + inner.events.length + 1) rest.events d₃ = .ok d' ∧
      d₃.Extends d' := by
  rw [Consumer.runFrom_element_of_ok h.start h.content h.stop] at hok
  obtain ⟨d'', hok', -, hext⟩ := run_content lookup? rest h.sound₃
  cases hok.symm.trans hok'
  exact ⟨hok, hext⟩

end Draft

end StyledText
