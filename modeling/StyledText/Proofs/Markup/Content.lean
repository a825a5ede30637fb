import StyledText.Markup.Event

/-!
# Well nested content

What stands in a document whose tags match: data and whole elements, one after another. An element
is told by its name, by its attributes and by the content between its tags, and `Content.events`
lists the tags and the data in document order. Data is every event that is not a tag.

Each part comes with all that follows it, so an induction meets the content of an element and the
rest behind it as two smaller contents.
-/

namespace StyledText

namespace Markup

/-- The name in a tag. -/
def Event.name? : Event → Option Text
  | .startElement name _ => some name
  | .endElement name => some name
  | _ => none

/-- Whether an event is a tag. -/
def Event.isTag (e : Event) : Bool := e.name?.isSome

/-- Data and elements, one after another. -/
inductive Content where
  | empty
  | data (e : Event) (h : e.isTag = false) (rest : Content)
  | element (name : Text) (attributes : Attributes) (inner rest : Content)

namespace Content

/-- The events of the content. The tags of an element have one name. -/
def events : Content → List Event
  | empty => []
  | data e _ rest => e :: rest.events
  | element name attributes inner rest =>
    .startElement name attributes :: inner.events ++ .endElement name :: rest.events

/-- Whether the names of all elements have `p`, at any depth. -/
def All (p : Text → Prop) : Content → Prop
  | empty => True
  | data _ _ rest => rest.All p
  | element name _ inner rest => p name ∧ inner.All p ∧ rest.All p

/-- Whether there are only elements side by side, and their names have `p`. -/
def OnlyElements (p : Text → Prop) : Content → Prop
  | empty => True
  | data .. => False
  | element name _ _ rest => p name ∧ rest.OnlyElements p

/-- Character data. -/
def characters (t : Text) (rest : Content) : Content := .data (.characters t) rfl rest

/-- A name in a tag is the name of an element. -/
theorem All.of_mem_events {p : Text → Prop} {d : Content} (h : d.All p) {e : Event}
    (hm : e ∈ d.events) {name : Text} (hn : e.name? = some name) : p name := by
  induction d with
  | empty => exact absurd hm (List.not_mem_nil)
  | data e' he rest ih =>
    rcases List.mem_cons.mp hm with rfl | hm
    · rw [Event.isTag, hn] at he
      cases he
    · exact ih h hm
  | element name' attributes' inner rest ihi ihr =>
    obtain ⟨hp, hi, hr⟩ := h
    simp only [events, List.cons_append, List.mem_cons, List.mem_append] at hm
    rcases hm with rfl | hm | rfl | hm
    · cases hn
      exact hp
    · exact ihi hi hm
    · cases hn
      exact hp
    · exact ihr hr hm

end Content

end Markup

end StyledText
