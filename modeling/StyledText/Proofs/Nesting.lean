import StyledText.Proofs.Draft

/-!
# Nested elements outside of tables

Two sides look for what an end tag closes, and neither looks for the start tag: the interceptor
takes its newest marker of a kind, running text the newest opening of a kind on the canvas. Several
names share a kind, and the kind of an item is that of the list around its end. In well nested
content each end tag nevertheless finds what its own start tag has put there, whatever is open
around.
-/

namespace StyledText

open Markup (Event Attributes Content)

namespace Draft

/-- **An element that resolves its own mark.** The start tag, the content and the end tag of the
element succeed, the first of them as event `n`; the markers are the same before and after the
content, and before and after the element; the mark that the end tag takes off the canvas is the one
that the start tag has put there, and the styles cover the text in between. -/
def ResolvesOwn (lookup? : Option Image.Lookup) (n : Nat) (name : Text) (attributes : Attributes)
    (inner : Content) (d : Draft) : Prop :=
  ∃ d₁ d₂ d₃ : Draft,
    (intercepted lookup?).receive n (.startElement name attributes) d = .ok d₁ ∧
    (intercepted lookup?).runFrom (n + 1) inner.events d₁ = .ok d₂ ∧
    (intercepted lookup?).receive (n + 1 + inner.events.length) (.endElement name) d₂ = .ok d₃ ∧
    d₂.tags.markers = d₁.tags.markers ∧ d₃.tags.markers = d.tags.markers ∧
    Canvas.Resolves n (n + 1 + inner.events.length)
      (elementStop name d₁.canvas.length d₃.canvas.text) (elementStyles name attributes d₂.tags)
      d.canvas d₁.canvas d₂.canvas d₃.canvas

/-- Every element outside of tables resolves its own mark, whatever stands in it but a table and
whatever is open around it: its content leaves open what was open, so its mark is the newest of its
kind when the end tag comes. -/
theorem resolvesOwn {n : Nat} {d : Draft} {name : Text} (lookup? : Option Image.Lookup)
    (hd : d.Sound n) (hdepth : d.tags.depth = 0) (hname : name.lower ≠ "table".toList)
    (attributes : Attributes) (inner : Content) :
    ResolvesOwn lookup? n name attributes inner d := by
  obtain ⟨d₁, hok₁, hs₁, -⟩ := receive_sound lookup? hd (.startElement name attributes)
  obtain ⟨d₂, hok₂, hs₂, h₂⟩ := run_content lookup? inner hs₁
  obtain ⟨d₃, hok₃, h₃, hres⟩ := exists_endElement_resolves hd hdepth hname hok₁ h₂ hs₂
  exact ⟨d₁, d₂, d₃, hok₁, hok₂, hok₃, h₂.sameOpen.markers, h₃.sameOpen.markers, hres⟩

/-- **Nested elements.** Outside of tables, from every reachable draft, well nested content without
a table succeeds; the marks on the canvas, the markers, the lists and the number of counters are
those from before; and each of its elements resolves its own mark. -/
theorem nested_elements_resolve {lookup? : Option Image.Lookup} {n : Nat} {d : Draft}
    (h : Reachable lookup? n d) (hdepth : d.tags.depth = 0) (content : Content)
    (hnames : content.All fun name => name.lower ≠ "table".toList) :
    (∃ d' : Draft, (intercepted lookup?).runFrom n content.events d = .ok d' ∧
      d'.canvas.marks = d.canvas.marks ∧ d'.tags.markers = d.tags.markers ∧
      d'.tags.lists = d.tags.lists ∧ d'.tags.counters.length = d.tags.counters.length) ∧
    ∀ pre name attributes inner post,
      content.events = pre ++ (Content.element name attributes inner .empty).events ++ post →
      ∃ d₀ : Draft, (intercepted lookup?).runFrom n pre d = .ok d₀ ∧
        ResolvesOwn lookup? (n + pre.length) name attributes inner d₀ := by
  refine ⟨?_, ?_⟩
  · obtain ⟨d', hok, -, hext⟩ := run_content lookup? content h.sound
    exact ⟨d', hok, hext.grows.marks_eq, hext.sameOpen.markers, hext.sameOpen.lists,
      hext.sameOpen.counters⟩
  · intro pre name attributes inner post hevents
    have hin : ∀ e, e ∈ pre ++ (Content.element name attributes inner .empty).events →
        ∀ name, e.name? = some name → name.lower ≠ "table".toList := by
      intro e he name hn
      exact hnames.of_mem_events (by rw [hevents]; exact List.mem_append_left _ he) hn
    obtain ⟨d₀, hok, hs, hdepth₀⟩ := run_sound lookup? pre h.sound
    refine ⟨d₀, hok, resolvesOwn lookup? hs ?_ ?_ attributes inner⟩
    · exact (hdepth₀ fun e he => hin e (List.mem_append_left _ he)).trans hdepth
    · exact hin (.startElement name attributes)
        (List.mem_append_right _ (by rw [Content.events]; exact List.mem_cons_self ..)) name rfl

/-- Struck out text in an item: two names for one kind of marker, one in the other, in a list. -/
def struckItem : Content :=
  .element Markup.Renamed.unorderedList.reserved []
    (.element Markup.Renamed.listItem.reserved []
      (.element "s".toList [] (.element "strike".toList [] (.characters "a".toList .empty) .empty)
        .empty) .empty) .empty

/-- Two elements share a kind of marker here, and in the end none of the marks is left. -/
theorem nested_elements_resolve_struckItem :
    Reachable none 0 ({}, {}) ∧ struckItem.All (fun name => name.lower ≠ "table".toList) ∧
      ∃ d' : Draft, (intercepted none).runFrom 0 struckItem.events ({}, {}) = .ok d' ∧
        d'.canvas.marks = [] ∧ d'.tags.markers = [] ∧ d'.tags.lists = [] := by
  have hnames : struckItem.All fun name => name.lower ≠ "table".toList := by
    simp only [struckItem, Content.characters, Content.All]
    decide +kernel
  obtain ⟨⟨d', hok, hmarks, hmarkers, hlists, -⟩, -⟩ :=
    nested_elements_resolve (.start {}) rfl struckItem hnames
  exact ⟨.start {}, hnames, d', hok, hmarks, hmarkers, hlists⟩

end Draft

end StyledText
