import StyledText.Canvas
import StyledText.Markup.Rename

/-!
# The tags that are intercepted

Lists, their items and links come under the reserved names of `Markup.reserveNames`; the other tags
come under their own. Names are compared in lower case. The markup of a table is written down with
the names of the document, so `Tag.name` is the name of every tag there.
-/

namespace StyledText

namespace Intercept

/-- The kinds of list. -/
inductive ListKind where
  | unordered
  | ordered
  deriving DecidableEq, Repr

/-- A tag without anything but its marker. -/
inductive BareTag where
  | code
  | center
  /-- text that is struck out, under the short name -/
  | s
  | strike
  | row
  | headerCell
  | cell
  deriving DecidableEq, Repr

/-- An intercepted tag. -/
inductive Tag where
  | list (kind : ListKind)
  | item
  | link
  | bare (tag : BareTag)
  | table
  deriving DecidableEq, Repr

namespace BareTag

/-- Every tag of this kind. -/
def all : List BareTag := [code, center, s, strike, row, headerCell, cell]

/-- The name of the tag. -/
def name : BareTag → Text
  | code => "code".toList
  | center => "center".toList
  | s => "s".toList
  | strike => "strike".toList
  | row => "tr".toList
  | headerCell => "th".toList
  | cell => "td".toList

/-- The kind of marker that stands for the element; two tags share one. -/
def marker : BareTag → MarkerKind
  | code => .code
  | center => .center
  | s => .strike
  | strike => .strike
  | row => .row
  | headerCell => .headerCell
  | cell => .cell

/-- Whether the style of the element is one of whole paragraphs. -/
def isParagraph : BareTag → Bool
  | center => true
  | _ => false

/-- The styles of the element. -/
def styles : BareTag → List Style
  | code => [.typeface "monospace".toList]
  | center => [.align .center]
  | s => [.strike]
  | strike => [.strike]
  | row => []
  | headerCell => []
  | cell => []

end BareTag

namespace Tag

/-- Every intercepted tag. -/
def all : List Tag := [
  .list .unordered, .list .ordered, .item, .link, .bare .code, .bare .center, .bare .s,
  .bare .strike, .bare .row, .bare .headerCell, .bare .cell, .table]

/-- The name of the tag in a document. -/
def name : Tag → Text
  | list .unordered => "ul".toList
  | list .ordered => "ol".toList
  | item => "li".toList
  | link => "a".toList
  | bare b => b.name
  | table => "table".toList

/-- The renamed element, for a tag that comes under a reserved name. -/
def renamed? : Tag → Option Markup.Renamed
  | list .unordered => some .unorderedList
  | list .ordered => some .orderedList
  | item => some .listItem
  | link => some .anchor
  | _ => none

/-- The lower case name under which the tag comes. -/
def eventName (t : Tag) : Text :=
  match t.renamed? with
  | some r => r.reserved.lower
  | none => t.name

/-- The intercepted tag of this name, if there is one. -/
def ofName? (name : Text) : Option Tag :=
  let name := name.lower
  all.find? (·.eventName = name)

/-- What the name of a start tag is compared with, in this order; tags that only put a marker down
are compared together. -/
def starts : List (List Tag) := [
  [.list .unordered], [.list .ordered], [.item], [.link], BareTag.all.map .bare, [.table]]

/-- What the name of an end tag is compared with, in this order; tags that close alike are compared
together. -/
def ends : List (List Tag) := [
  [.list .unordered, .list .ordered], [.item], [.link], [.bare .code], [.bare .center],
  [.bare .s, .bare .strike], [.table], [.bare .row, .bare .headerCell, .bare .cell]]

/-- The tag of this name in the first group that has one. -/
def among? (groups : List (List Tag)) (name : Text) : Option Tag :=
  let name := name.lower
  groups.findSome? fun tags => tags.find? (·.eventName = name)

/-- The intercepted tag that a start tag of this name is, if it is one. -/
def ofStart? (name : Text) : Option Tag := among? starts name

/-- The intercepted tag that an end tag of this name is, if it is one. -/
def ofEnd? (name : Text) : Option Tag := among? ends name

/-- The text of a start tag. -/
def startText (t : Tag) : Text := '<' :: t.name ++ ['>']

/-- The text of an end tag. -/
def endText (t : Tag) : Text := '<' :: '/' :: t.name ++ ['>']

/-- Every tag is in the list of all. -/
theorem mem_all (t : Tag) : t ∈ all := by
  cases t with
  | list kind => cases kind <;> decide
  | bare tag => cases tag <;> decide
  | item => decide
  | link => decide
  | table => decide

/-- No two tags come under one name, so whichever of them is compared first, the same one is
found. -/
theorem eventName_injective {t u : Tag} (h : t.eventName = u.eventName) : t = u := by
  have hall : ∀ t ∈ all, ∀ u ∈ all, t.eventName = u.eventName → t = u := by decide +kernel
  exact hall t (mem_all t) u (mem_all u) h

/-- In a list with every tag, a search by name finds the tag that has the name. -/
theorem find?_eventName_eq_some_iff {tags : List Tag} (h : ∀ t, t ∈ tags) {name : Text} {t : Tag} :
    tags.find? (·.eventName = name) = some t ↔ t.eventName = name := by
  constructor
  · intro hfind
    have hname := List.find?_some hfind
    exact of_decide_eq_true hname
  · intro hname
    cases hfind : tags.find? (·.eventName = name) with
    | none => exact absurd (decide_eq_true hname) (List.find?_eq_none.mp hfind t (h t))
    | some u =>
      have hu := List.find?_some hfind
      rw [eventName_injective ((of_decide_eq_true hu).trans hname.symm)]

/-- Groups that have every tag among them find the tags of all names, however they are grouped and
whatever their order. -/
theorem among?_eq_ofName? {groups : List (List Tag)} (h : ∀ t, t ∈ groups.flatten) (name : Text) :
    among? groups name = ofName? name := by
  rw [among?, ofName?, ← List.find?_flatten]
  ext t
  rw [find?_eventName_eq_some_iff h, find?_eventName_eq_some_iff mem_all]

/-- A start tag is intercepted for its name. -/
theorem ofStart?_eq_ofName? (name : Text) : ofStart? name = ofName? name := by
  have hall : ∀ t ∈ all, t ∈ starts.flatten := by decide
  exact among?_eq_ofName? (fun t => hall t (mem_all t)) name

/-- So is an end tag, although its name is compared in another order. -/
theorem ofEnd?_eq_ofName? (name : Text) : ofEnd? name = ofName? name := by
  have hall : ∀ t ∈ all, t ∈ ends.flatten := by decide
  exact among?_eq_ofName? (fun t => hall t (mem_all t)) name

/-- The name of a renamed tag is the name that was replaced. -/
theorem name_eq_plain {t : Tag} {r : Markup.Renamed} (h : t.renamed? = some r) :
    t.name = r.plain := by
  cases t with
  | list kind => cases kind <;> cases h <;> rfl
  | item => cases h; rfl
  | link => cases h; rfl
  | bare tag => cases h
  | table => cases h

example : ofName? "TD".toList = some (.bare .cell) ∧ ofName? "ul".toList = none ∧
    ofName? Markup.Renamed.unorderedList.reserved = some (.list .unordered) := by decide +kernel

end Tag

end Intercept

end StyledText
