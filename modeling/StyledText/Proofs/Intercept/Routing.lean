import StyledText.Proofs.Draft

/-!
# What passes the interceptor

The interceptor takes a tag for the name in it, in lower case, and for nothing else: neither what is
open nor the attributes count, and a start tag is taken just where an end tag would be. All other
events go on to the consumer behind it as they are, so that gets an element whole or not at all.

What a consumer gets is told by a record of it (`Consumer.recorded`), which takes no part in what
the consumer does.

* `Intercept.Intercepts` — the names that are taken;
* `Markup.Content.passing` — what well nested content is for the consumer behind;
* `Consumer.receive_recorded`, `Consumer.events_pass_by_name` — one event, and all of them.
-/

namespace StyledText

open Markup (Event Attributes Content)

/-! ## Names -/

namespace Intercept

/-- The lower case names of the tags that are intercepted. -/
def interceptedNames : List Text := [
  Markup.Renamed.unorderedList.reserved.lower, Markup.Renamed.orderedList.reserved.lower,
  Markup.Renamed.listItem.reserved.lower, Markup.Renamed.anchor.reserved.lower, "code".toList,
  "center".toList, "s".toList, "strike".toList, "tr".toList, "th".toList, "td".toList,
  "table".toList]

/-- Whether tags of this name are intercepted. -/
def Intercepts (name : Text) : Prop := name.lower ∈ interceptedNames

instance (name : Text) : Decidable (Intercepts name) := inferInstanceAs (Decidable (_ ∈ _))

/-- The names that belong to a tag are those of the list, since the names of the list are those of
all tags. -/
theorem isSome_ofName?_iff {name : Text} : (Tag.ofName? name).isSome ↔ Intercepts name := by
  have hnames : Tag.all.map Tag.eventName = interceptedNames := by decide +kernel
  rw [Tag.ofName?, List.find?_isSome, Intercepts, ← hnames, List.mem_map]
  simp

/-- The names of start tags and those of end tags are compared in other groups and in another order,
and yet the same tag is found for every name. -/
theorem ofStart?_eq_ofEnd? : Tag.ofStart? = Tag.ofEnd? := by
  funext name
  rw [Tag.ofStart?_eq_ofName?, Tag.ofEnd?_eq_ofName?]

/-- So a start tag is intercepted just for one of these names. -/
theorem isSome_ofStart?_iff {name : Text} : (Tag.ofStart? name).isSome ↔ Intercepts name := by
  rw [Tag.ofStart?_eq_ofName?, isSome_ofName?_iff]

/-- And so is an end tag, which makes the interceptor take an element whole or not at all. -/
theorem isSome_ofEnd?_iff {name : Text} : (Tag.ofEnd? name).isSome ↔ Intercepts name := by
  rw [← ofStart?_eq_ofEnd?, isSome_ofStart?_iff]

end Intercept

/-- Whether an event goes past the interceptor: it is no tag, or one of a name that is not
intercepted. -/
def Markup.Event.passes (e : Event) : Bool := e.name?.all fun name => ¬ Intercept.Intercepts name

/-- **Taken for the name.** An event is taken in every state just where it does not pass. -/
theorem Intercept.State.isSome_handle?_iff {n : Nat} {e : Event} {t : Intercept.State}
    {c : Canvas} : (t.handle? n e c).isSome ↔ e.passes = false := by
  cases e with
  | startElement name attributes =>
    simp [handle?, Event.passes, Event.name?, isSome_ofStart?_iff]
  | endElement name => simp [handle?, Event.passes, Event.name?, isSome_ofEnd?_iff]
  | _ => simp [handle?, Event.passes, Event.name?]

/-! ## Content -/

namespace Markup.Content

/-- One content behind another. -/
def append : Content → Content → Content
  | empty, d => d
  | data e h rest, d => .data e h (rest.append d)
  | element name attributes inner rest, d => .element name attributes inner (rest.append d)

/-- The events of content behind other content come behind those of that. -/
theorem events_append (c d : Content) : (c.append d).events = c.events ++ d.events := by
  induction c with
  | empty => rfl
  | data e h rest ih => simp [append, events, ih]
  | element name attributes inner rest _ ih => simp [append, events, ih]

/-- The content without the tags that are intercepted. What stands between them stays. -/
def passing : Content → Content
  | empty => empty
  | data e h rest => .data e h rest.passing
  | element name attributes inner rest =>
    if Intercept.Intercepts name then inner.passing.append rest.passing
    else .element name attributes inner.passing rest.passing

/-- What passes of well nested content is well nested, by induction over it: both tags of an element
pass or neither does. -/
theorem events_passing (c : Content) : c.passing.events = c.events.filter (·.passes) := by
  induction c with
  | empty => rfl
  | data e h rest ih =>
    have hpasses : e.passes = true := by
      rw [Event.isTag, Option.isSome_eq_false_iff, Option.isNone_iff_eq_none] at h
      rw [Event.passes, h]
      rfl
    rw [passing, events, events, List.filter_cons_of_pos hpasses, ih]
  | element name attributes inner rest ihi ihr =>
    -- one name decides on both tags, so they go or stay together
    by_cases hname : Intercept.Intercepts name
    · simp [passing, events, events_append, ihi, ihr, hname, Event.passes, Event.name?]
    · simp [passing, events, ihi, ihr, hname, Event.passes, Event.name?]

end Markup.Content

/-! ## Records -/

/-- The canvas of a state that comes with a record. -/
def Access.recorded {σ : Type} (canvas : Access σ) : Access (List Event × σ) where
  get := fun (_, s) => canvas.get s
  put := fun c (seen, s) => (seen, canvas.put c s)
  get_put := fun c (_, s) => canvas.get_put c s

namespace Consumer

variable {σ : Type}

/-- The consumer with a record of the events that it has taken, the first of them first. -/
def recorded (k : Consumer σ) : Consumer (List Event × σ) where
  receive n e := fun (seen, s) => (k.receive n e s).map fun s => (seen ++ [e], s)
  canvas? := k.canvas?.map Access.recorded

/-- Behind the interceptor an event is put on record if it passes, and all else goes as without a
record. -/
theorem receive_recorded (k : Consumer σ) (canvas : Access σ) (n : Nat) (e : Event)
    (t : Intercept.State) (seen : List Event) (s : σ) :
    (k.recorded.behindIntercept canvas.recorded).receive n e (t, seen, s) =
      ((k.behindIntercept canvas).receive n e (t, s)).map fun (t, s) =>
        (t, seen ++ [e].filter (·.passes), s) := by
  have hget : canvas.recorded.get (seen, s) = canvas.get s := rfl
  simp only [behindIntercept, hget]
  rcases hhandled : t.handle? n e (canvas.get s) with _ | handled
  · -- declined: the consumer behind gets the event, and its record with it
    have hpasses : e.passes = true := by
      rw [← Bool.not_eq_false, ← Intercept.State.isSome_handle?_iff (t := t), hhandled]
      exact Bool.false_ne_true
    simp only [recorded, List.filter_cons_of_pos hpasses, List.filter_nil]
    cases k.receive n e s <;> rfl
  · -- taken: only the canvas of the consumer can change
    have hpasses : ¬ e.passes = true := by
      rw [Bool.not_eq_true, ← Intercept.State.isSome_handle?_iff (t := t), hhandled]
      rfl
    simp only [List.filter_cons_of_neg hpasses, List.filter_nil, List.append_nil]
    cases handled <;> rfl

/-- So do events one after another: the record is that of the events that pass, in their order. -/
theorem runFrom_recorded (k : Consumer σ) (canvas : Access σ) (events : List Event) :
    ∀ (n : Nat) (t : Intercept.State) (seen : List Event) (s : σ),
      (k.recorded.behindIntercept canvas.recorded).runFrom n events (t, seen, s) =
        ((k.behindIntercept canvas).runFrom n events (t, s)).map fun (t, s) =>
          (t, seen ++ events.filter (·.passes), s) := by
  induction events with
  | nil =>
    intro n t seen s
    simp [runFrom, Except.map]
  | cons e events ih =>
    intro n t seen s
    rw [runFrom, runFrom, receive_recorded]
    cases (k.behindIntercept canvas).receive n e (t, s) with
    | error f => rfl
    | ok p =>
      refine (ih (n + 1) p.1 (seen ++ [e].filter (·.passes)) p.2).trans ?_
      rw [List.append_assoc, ← List.filter_append]
      rfl

/-- **Passing by name.** Whether a tag is taken by the interceptor is told by its lower case name,
in every state, for start tags with any attributes as for end tags. Any consumer behind the
interceptor gets, from any events, just those that pass, unchanged and in their order; it gets
all of them where its own events do not fail; and of well nested content it gets well nested
content. -/
theorem events_pass_by_name (k : Consumer σ) (canvas : Access σ) :
    (∀ name : Text,
      (∀ n attributes (t : Intercept.State) c,
        (t.handle? n (.startElement name attributes) c).isSome ↔ Intercept.Intercepts name) ∧
      ∀ n (t : Intercept.State) c,
        (t.handle? n (.endElement name) c).isSome ↔ Intercept.Intercepts name) ∧
    (∀ n events t seen s,
      (k.recorded.behindIntercept canvas.recorded).runFrom n events (t, seen, s) =
        ((k.behindIntercept canvas).runFrom n events (t, s)).map fun (t, s) =>
          (t, seen ++ events.filter (·.passes), s)) ∧
    (k.KeepsSound canvas → ∀ n events (t : Intercept.State) s, t.Balanced →
      (canvas.get s).Sound n →
        ∃ t' s', (k.behindIntercept canvas).runFrom n events (t, s) = .ok (t', s')) ∧
    ∀ content : Content, content.events.filter (·.passes) = content.passing.events := by
  refine ⟨fun name => ⟨?_, ?_⟩, fun n events => runFrom_recorded k canvas events n, ?_,
    fun content => content.events_passing.symm⟩
  · intro n attributes t c
    rw [Intercept.State.isSome_handle?_iff]
    simp [Event.passes, Event.name?]
  · intro n t c
    rw [Intercept.State.isSome_handle?_iff]
    simp [Event.passes, Event.name?]
  · intro hk n events t s hb hc
    obtain ⟨t', s', hok, -⟩ := run_sound hk events hb hc
    exact ⟨t', s', hok⟩

/-- Tags that do not match, in capitals and small letters. -/
def halfElements : List Event :=
  [.startElement "TD".toList [], .startElement "B".toList [("x".toList, [])],
    .characters "a".toList, .endElement Markup.Renamed.listItem.reserved.lower,
    .endElement "i".toList, .startElement "ul".toList [], .endElement "Table".toList,
    .endDocument]

theorem events_pass_by_name_halfElements :
    ∃ (t : Intercept.State) (f : Flow.State),
      ((flow none).recorded.behindIntercept Flow.State.access.recorded).runFrom 0 halfElements
        ({}, [], {}) =
          .ok (t, [.startElement "B".toList [("x".toList, [])], .characters "a".toList,
            .endElement "i".toList, .startElement "ul".toList [], .endDocument], f) := by
  obtain ⟨-, hrecord, hruns, -⟩ := events_pass_by_name (flow none) Flow.State.access
  obtain ⟨t, f, hok⟩ := hruns (Draft.flow_keepsSound none) 0 halfElements {} {} rfl
    (Canvas.sound_blank 0)
  refine ⟨t, f, ?_⟩
  rw [hrecord, hok]
  have hpass : halfElements.filter (·.passes) =
      [.startElement "B".toList [("x".toList, [])], .characters "a".toList,
        .endElement "i".toList, .startElement "ul".toList [], .endDocument] := by
    decide +kernel
  rw [hpass]
  rfl

end Consumer

end StyledText
