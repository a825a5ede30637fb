import Mathlib.Algebra.BigOperators.Group.List.Basic
import Mathlib.Tactic.Ring
import StyledText.Proofs.Buffer.View
import StyledText.Proofs.Formatted
import StyledText.Proofs.Table.Capture

/-!
# The indentation of nested lists

An item of a list has two styles that move its lines: a margin that grows with the depth, and a
bullet or a number whose gap takes back what the styles of the items around have added. All of them
cover the text of the innermost item, so what is seen there is their sum. By depth it is the
indentation of a list once for the outermost item, with the room of its bullet, and twice for each
item in it.

* `Canvas.leadingMargin` — how far the styles over some text move the start of its lines;
* `Intercept.State.sum_itemStyles` — what the styles of one item add to that;
* `Consumer.Level`, `Consumer.Writes.exists_wraps` — a list with an open item, and what its tags do;
* `Consumer.Writes.run_levels` — such lists one in another, by induction on the depth;
* `Consumer.nested_lists_indent` — the sum, for the indentation that has been asked for.
-/

namespace StyledText

open Markup (Event)

/-! ## Margins of text -/

/-- How far an object moves the start of a line. -/
def Object.leadingMargin (firstLine : Bool) : Object → Int
  | style _ s => s.leadingMargin firstLine
  | _ => 0

namespace Span

/-- How far those of some spans that cover the characters from `i` up to `j` move the start of a
line together. -/
def marginOver (firstLine : Bool) (i j : Nat) (spans : List (Span Object)) : Int :=
  ((spans.filter (·.Covers i j)).map fun s => s.what.leadingMargin firstLine).sum

variable {firstLine : Bool} {i j : Nat} {l l' : List (Span Object)}

/-- Margins add up, so the styles of each item can be looked at on their own. -/
theorem marginOver_append :
    marginOver firstLine i j (l ++ l') = marginOver firstLine i j l + marginOver firstLine i j l' := by
  rw [marginOver, List.filter_append, List.map_append, List.sum_append]
  rfl

/-- The order of the spans has no part in it. In particular it does not count that the inner items
attach theirs first. -/
theorem marginOver_perm (h : l.Perm l') : marginOver firstLine i j l = marginOver firstLine i j l' :=
  ((h.filter _).map _).sum_eq

/-- Spans that end before the characters do not cover them, so what has been on the canvas before a
list has no part in its indentation. -/
theorem marginOver_eq_zero (h : ∀ s ∈ l, s.stop ≤ i) (hij : i < j) :
    marginOver firstLine i j l = 0 := by
  have hnone : l.filter (·.Covers i j) = [] := by
    rw [List.filter_eq_nil_iff]
    intro s hs
    rw [decide_eq_true_eq]
    rintro ⟨-, hstop⟩
    exact absurd (Nat.le_trans hstop (h s hs)) (Nat.not_le.mpr hij)
  rw [marginOver, hnone]
  rfl

end Span

namespace Canvas

variable {firstLine : Bool} {n i j start stop : Nat} {styles : List Style} {c : Canvas}

/-- How far the styles over the characters from `i` up to `j` move the start of a line together. -/
def leadingMargin (firstLine : Bool) (i j : Nat) (c : Canvas) : Int :=
  Span.marginOver firstLine i j c.annotations

/-- The margin over some text can be told from the ranges as they were attached, without the order
in which they are shown. -/
theorem leadingMargin_eq_ranges :
    c.leadingMargin firstLine i j = Span.marginOver firstLine i j c.ranges :=
  Span.marginOver_perm (Span.arrange_perm _)

/-- On a line that has been ended, white space is judged as at the start of a line. So texts in
front of an item are written alike, whatever stands before the list. -/
theorem lastOf_newline (c : Canvas) : Flow.lastOf c.newline.text = '\n' := by
  rw [Flow.lastOf, List.getLastD_eq_getLast?]
  cases hlast : c.newline.text.getLast? with
  | none => rfl
  | some x => exact getLast?_newline hlast

/-- Styles over a range add up over each part of it, so the lines of an item are moved alike, those
of the items in it included. -/
theorem marginOver_spread (hstart : start ≤ i) (hij : i < j) (hstop : j ≤ stop) :
    Span.marginOver firstLine i j (spread n styles start stop) =
      (styles.map (·.leadingMargin firstLine)).sum := by
  have hall : (spread n styles start stop).filter (·.Covers i j) = spread n styles start stop := by
    rw [List.filter_eq_self]
    intro s hs
    obtain ⟨-, -, -, rfl⟩ := mem_spread hs
    exact decide_eq_true ⟨hstart, hstop⟩
  rw [Span.marginOver, hall, spread, if_neg (by omega), List.map_map]
  rfl

/-- No style covers what is behind the text. It is the start of the induction on the levels: before
the first item is closed nothing covers the innermost text. -/
theorem marginOver_ranges_eq_zero (hc : c.Sound n) (hi : c.length ≤ i) (hij : i < j) :
    Span.marginOver firstLine i j c.ranges = 0 :=
  Span.marginOver_eq_zero
    (fun s hs => Nat.le_trans (hc s (List.mem_filter.mp hs).1).stop_le hi) hij

end Canvas

/-! ## What one item adds -/

namespace Intercept

/-- What an item of a list adds to the indentation of its text, by the lists around its own: a
bullet has room of its own in an outermost list only. -/
def ownMargin (unit : Nat) (around : List ListKind) (kind : ListKind) : Int :=
  match around with
  | [] => unit + if kind = .unordered then 8 else 0
  | _ :: _ => 2 * unit

/-- Margin and gap of an item in an item: the gap takes back what the depth has added to the margin,
so their sum does not depend on the depth. -/
theorem itemMargin_add_itemGap {depth : Nat} (h : 1 < depth) (unit : Nat) (own : Int) :
    itemMargin unit depth + itemGap unit depth own = 3 * unit - own := by
  rw [itemMargin, itemGap, if_neg (Nat.not_le.mpr h)]
  ring

namespace State

variable {n : Nat} {t t' : State} {c c' : Canvas} {kind : ListKind} {lists : List ListKind}

/-- **One item.** Its two styles compensate each other but for the indentation of one level, on the
first line as on the others. -/
theorem sum_itemStyles (hl : t.lists = kind :: lists) (firstLine : Bool) :
    (t.itemStyles.map (·.leadingMargin firstLine)).sum = ownMargin t.unit lists kind := by
  have hsum (margin : Int) (s : Style) :
      (([.margin margin margin, s] : List Style).map (·.leadingMargin firstLine)).sum =
        margin + s.leadingMargin firstLine := by
    cases firstLine <;> simp [Style.leadingMargin]
  rw [itemStyles, hl]
  -- inside of a list the gap gives back what the depth has added to the margin
  cases kind with
  | unordered =>
    refine (hsum _ _).trans ?_
    rw [Style.leadingMargin, Style.bulletMargin]
    cases lists with
    | nil => simp [itemMargin, itemGap, ownMargin, Style.bulletRadius, Int.add_comm]
    | cons kind lists =>
      have hdepth : 1 < lists.length + 1 + 1 := by omega
      have hgap := itemMargin_add_itemGap hdepth t.unit (Style.bulletMargin t.unit)
      simp only [Style.bulletMargin, Style.bulletRadius] at hgap
      simp only [List.length_cons, ownMargin, Style.bulletMargin, Style.bulletRadius]
      omega
  | ordered =>
    refine (hsum _ _).trans ?_
    rw [Style.leadingMargin]
    cases lists with
    | nil => simp [itemMargin, itemGap, ownMargin]
    | cons kind lists =>
      have hdepth : 1 < lists.length + 1 + 1 := by omega
      have hgap := itemMargin_add_itemGap hdepth t.unit t.unit
      simp only [List.length_cons, ownMargin]
      omega

/-! ## The indentation that is asked for -/

/-- Content that leaves open what was open leaves the indentation that is asked for. -/
theorem SameOpen.unit_eq (h : t.SameOpen t') : t'.unit = t.unit := by
  rw [unit, h.indent, unit]

/-- Recording a tag leaves the indentation, as all tags do; it is changed by a caller only. -/
theorem indent_record (text : Text) (t : State) : (t.record text).indent = t.indent :=
  (sameOpen_record text t).indent

/-- No start tag changes the indentation that is asked for. -/
theorem Opens.indent_eq {attributes : Markup.Attributes} {tag : Tag}
    (h : Opens n attributes t c tag t' c') : t'.indent = t.indent := by
  cases h <;> rfl

/-- Nor does closing an element, whatever becomes of its text. -/
theorem Closes.indent_eq {marker : MarkerKind} {isParagraph : Bool} {styles : List Style}
    (h : Closes n marker isParagraph styles t c t' c') : t'.indent = t.indent := by
  cases h <;> rfl

/-- The end of a list changes which lists are open, and nothing about how they are indented. -/
theorem indent_closeList (t : State) : t.closeList.indent = t.indent := by
  rw [closeList_eq]

/-- So no end tag changes the indentation that is asked for, and a run of them does not. -/
theorem Shuts.indent_eq {tag : Tag} (h : Shuts n t c tag t' c') : t'.indent = t.indent := by
  cases h with
  | list kind => exact indent_closeList t
  | strayItem => rfl
  | strayTable => rfl
  | item hl h => exact h.indent_eq
  | link h => exact h.indent_eq
  | bare h => exact h.indent_eq
  | root hdepth ht₀ h =>
    subst ht₀
    exact h.indent_eq.trans (sameOpen_countClick _).indent
  | inner hdepth h => exact h.indent_eq

/-! ## Tags of lists outside of tables -/

/-- Outside of tables the start tag of a list does nothing but open the list: there is no markup in
which it is recorded. -/
theorem startTag_list (hdepth : t.depth = 0) (attributes : Markup.Attributes) :
    t.startTag n (.list kind) attributes c = .ok (t.openList kind, c) :=
  congrArg (fun t => Except.ok (t, c)) (record_of_depth_eq_zero (by exact hdepth) _)

/-- And its end tag does nothing but close the innermost one. -/
theorem endTag_list (hdepth : t.depth = 0) :
    t.endTag n (.list kind) c = .ok (t.closeList, c) :=
  congrArg (fun t => Except.ok (t, c))
    (record_of_depth_eq_zero ((depth_closeList t).trans hdepth) _)

/-- The start tag of an item in a list ends the last line and puts a mark down there. The state
behind it is told by what later tags ask for, since the counter may have moved on. -/
theorem startTag_item (hl : t.lists = kind :: lists) (hb : t.Balanced) (hc : c.Sound n)
    (hdepth : t.depth = 0) (attributes : Markup.Attributes) :
    ∃ t₁ m, t.startTag n .item attributes c = .ok (t₁, c.newline.marked (.marker m)) ∧
      m.made = n ∧ t₁.Balanced ∧ t₁.depth = 0 ∧ t₁.lists = t.lists ∧ t₁.indent = t.indent := by
  obtain ⟨counters, hcounters, hopen⟩ := openItem_eq hl hb hc
  refine ⟨{ t with
    markers := ⟨n, kind.marker, none⟩ :: t.markers
    counters := counters }, ⟨n, kind.marker, none⟩, ?_, rfl, hcounters.trans hb, hdepth, rfl, rfl⟩
  rw [startTag, openElement, hopen]
  exact congrArg (fun t => Except.ok (t, _)) (record_of_depth_eq_zero (by exact hdepth) _)

/-- An item outside of tables whose content has left open what was open: its styles come over its
text, which stays. The newline that its last line lacks is part of that text. -/
theorem endTag_item {m : Nat} {attributes : Markup.Attributes} {t₁ t₂ : State} {c₁ c₂ : Canvas}
    (hb : t.Balanced) (hc : c.Sound n) (hdepth : t.depth = 0)
    (h₁ : t.startTag n .item attributes c = .ok (t₁, c₁)) (hs : t₁.SameOpen t₂)
    (h₂ : c₁.Grows c₂) (hc₂ : c₂.Sound m) :
    ∃ t₃ c₃, t₂.endTag m .item c₂ = .ok (t₃, c₃) ∧ t.SameOpen t₃ ∧ c.Grows c₃ ∧
      c₃.Sound (m + 1) ∧ c₂.text <+: c₃.text ∧
      c₃.ranges = c₂.ranges ++ Canvas.spread m t₂.itemStyles c₁.length c₃.length := by
  obtain ⟨t₃, c₃, hok, hsame, hgrows, hres⟩ :=
    endTag_resolves (by simp) hb hc hdepth h₁ hs h₂ hc₂
  obtain ⟨t', c', hok', hleaves⟩ := startTag_leaves .item attributes hb hc
  cases hok'.symm.trans h₁
  have hb₂ : t₂.Balanced := hs.balanced hleaves.balanced
  have hdepth₂ : t₂.depth = 0 := hs.depth.trans ((hleaves.depth (by simp)).trans hdepth)
  obtain ⟨t₄, hshuts, -⟩ := shuts_of_endTag hb₂ hc₂ hok
  exact ⟨t₃, c₃, hok, hsame, hgrows, (hshuts.leaves hb₂ hc₂).sound, hshuts.prefix_text hdepth₂,
    hres.ranges⟩

end State

end Intercept

/-- The indentation that a list gets: the one that is asked for, as a whole number, and ten pixels
where none or a negative one is asked for. -/
def Request.listIndent (r : Request) : Except Binary64.Unroundable Nat :=
  match r.indent with
  | none => .ok 10
  | some px => px.roundHalfUp.map fun n => if 0 ≤ n then n.toNat else 10

/-- The indentation of a request, read off without the interceptor, is the unit that the interceptor
reckons with. -/
theorem Request.listIndent_eq (r : Request) :
    r.listIndent = r.interceptor.map Intercept.State.unit := by
  unfold listIndent interceptor
  rcases r.indent with _ | px
  · rfl
  · simp only [Intercept.State.setIndent]
    cases px.roundHalfUp with
    | error e => rfl
    | ok n =>
      simp only [Except.map, Intercept.State.unit]
      split <;> rfl

namespace Consumer

variable {σ : Type} {k : Consumer σ} {canvas : Access σ} {write : Char → Text → Text}

open Intercept (Tag ListKind)

/-! ## Runs -/

/-- No event changes the indentation, whether the interceptor takes it or not. -/
theorem indent_of_receive {n : Nat} {t t' : Intercept.State} {s s' : σ} {e : Event}
    (hb : t.Balanced) (hc : (canvas.get s).Sound n)
    (h : (k.behindIntercept canvas).receive n e (t, s) = .ok (t', s')) : t'.indent = t.indent := by
  cases handles_of_receive h with
  | declined => rfl
  | startTag _ hstart =>
    obtain ⟨t₁, hopens, rfl⟩ := Intercept.State.opens_of_startTag hb hc hstart
    exact (Intercept.State.indent_record _ t₁).trans hopens.indent_eq
  | endTag _ hend =>
    obtain ⟨t₁, hshuts, rfl⟩ := Intercept.State.shuts_of_endTag hb hc hend
    exact (Intercept.State.indent_record _ t₁).trans hshuts.indent_eq

/-- So no run does, and the indentation of the outermost list is that of all others. -/
theorem indent_of_run (hk : k.KeepsSound canvas) {events : List Event} {n : Nat}
    {t t' : Intercept.State} {s s' : σ} (hb : t.Balanced) (hc : (canvas.get s).Sound n)
    (hrun : (k.behindIntercept canvas).runFrom n events (t, s) = .ok (t', s')) :
    t'.indent = t.indent := by
  refine runFrom_invariant (P := fun _ u _ => u.indent = t.indent) hk ?_ hb hc rfl hrun
  intro e _ n u u' s s' hb hc hu hok
  exact (indent_of_receive hb hc hok).trans hu

/-- Texts as events. -/
def data (texts : List Text) : List Event := texts.map .characters

/-- Each text is one event, so texts take up as many numbers of events as there are texts. -/
@[simp] theorem length_data (texts : List Text) : (data texts).length = texts.length :=
  List.length_map _

/-- What texts come to on the canvas, one after another. -/
def written (write : Char → Text → Text) : Char → List Text → Text
  | _, [] => []
  | last, t :: texts =>
    write last t ++ written write ((write last t).getLastD last) texts

/-- Texts come to the canvas one after another, each written by what stands before it. The state of
the interceptor stays. -/
theorem Writes.run_data (hk : k.Writes canvas write) (texts : List Text) :
    ∀ (n : Nat) (t : Intercept.State) (s : σ), ∃ s',
      (k.behindIntercept canvas).runFrom n (data texts) (t, s) = .ok (t, s') ∧
        canvas.get s' =
          (canvas.get s).append (written write (Flow.lastOf (canvas.get s).text) texts) := by
  induction texts with
  | nil =>
    intro n t s
    exact ⟨s, rfl, (Canvas.append_nil _).symm⟩
  | cons text texts ih =>
    intro n t s
    obtain ⟨s₁, hok₁, hc₁⟩ := hk.receive_characters n text t s
    obtain ⟨s₂, hok₂, hc₂⟩ := ih (n + 1) t s₁
    refine ⟨s₂, ?_, ?_⟩
    · rw [data, List.map_cons, runFrom_cons_of_ok hok₁]
      exact hok₂
    · rw [hc₂, hc₁, written, Buffer.text_append, Flow.lastOf_append]
      simp [Buffer.append]

/-- Texts add to the canvas and leave all else alone: no range is changed by them, and none of them
is styled yet. -/
theorem Writes.exists_run_data (hk : k.Writes canvas write) (texts : List Text) {n : Nat}
    (t : Intercept.State) {s : σ} (hs : (canvas.get s).Sound n) :
    ∃ s', (k.behindIntercept canvas).runFrom n (data texts) (t, s) = .ok (t, s') ∧
      (canvas.get s').Sound (n + texts.length) ∧ (canvas.get s).Grows (canvas.get s') ∧
      (canvas.get s').ranges = (canvas.get s).ranges := by
  obtain ⟨s', hok, hc⟩ := hk.run_data texts n t s
  refine ⟨s', hok, ?_, ?_, ?_⟩ <;> rw [hc]
  · exact (hs.mono (Nat.le_add_right _ _)).append _
  · exact Canvas.grows_append _ _
  · rfl

/-! ## One level -/

/-- A list with an item of it, and the texts around the two. -/
structure Level where
  kind : ListKind
  beforeList : List Text
  beforeItem : List Text
  behindItem : List Text
  behindList : List Text
  listName : Text
  listAttributes : Markup.Attributes
  itemName : Text
  itemAttributes : Markup.Attributes
  isList : Tag.ofName? listName = some (.list kind)
  isItem : Tag.ofName? itemName = some .item

namespace Level

/-- The start tags of a level, with the texts before each of them. -/
def opening (l : Level) : List Event :=
  data l.beforeList ++ .startElement l.listName l.listAttributes ::
    (data l.beforeItem ++ [.startElement l.itemName l.itemAttributes])

/-- The end tags of a level, with the texts behind each of them. -/
def closing (l : Level) : List Event :=
  .endElement l.itemName :: (data l.behindItem ++ .endElement l.listName :: data l.behindList)

/-- The start tags of levels one in another, the outermost first. -/
def openings (levels : List Level) : List Event := levels.flatMap opening

/-- Their end tags, in the order that closes them. -/
def closings (levels : List Level) : List Event := levels.reverse.flatMap closing

/-- The start tags of the outermost level come first. -/
theorem openings_cons (l : Level) (levels : List Level) :
    openings (l :: levels) = l.opening ++ openings levels := List.flatMap_cons

/-- Its end tags come last. This turns the nesting of levels into a run in three parts, of which the
one in the middle is that of the levels within. -/
theorem closings_cons (l : Level) (levels : List Level) :
    closings (l :: levels) = closings levels ++ l.closing := by
  simp [closings]

end Level

/-- A balanced interceptor outside of tables, on a canvas that is sound before event `n`. -/
structure Ready (canvas : Access σ) (n : Nat) (t : Intercept.State) (s : σ) : Prop where
  balanced : t.Balanced
  sound : (canvas.get s).Sound n
  depth : t.depth = 0

/-- What the tags of a level do around content that leaves open what was open: behind the start
tags, where `t₁` and `s₁` stand, the list is the innermost one and a line begins; the end tags put
the styles of the item over all that has been written since. -/
structure Level.Wraps (k : Consumer σ) (canvas : Access σ) (l : Level) (n : Nat)
    (t : Intercept.State) (s : σ) (t₁ : Intercept.State) (s₁ : σ) : Prop where
  opening : (k.behindIntercept canvas).runFrom n l.opening (t, s) = .ok (t₁, s₁)
  ready : Ready canvas (n + l.opening.length) t₁ s₁
  unit_eq : t₁.unit = t.unit
  lists_eq : t₁.lists = l.kind :: t.lists
  le_length : (canvas.get s).length ≤ (canvas.get s₁).length
  lastOf_eq : Flow.lastOf (canvas.get s₁).text = '\n'
  closing : ∀ {m : Nat} {t₂ : Intercept.State} {s₂ : σ}, t₁.SameOpen t₂ →
    (canvas.get s₁).Grows (canvas.get s₂) → (canvas.get s₂).Sound m →
      ∃ t₃ s₃, (k.behindIntercept canvas).runFrom m l.closing (t₂, s₂) = .ok (t₃, s₃) ∧
        t.SameOpen t₃ ∧ (canvas.get s).Grows (canvas.get s₃) ∧
        (canvas.get s₃).Sound (m + l.closing.length) ∧
        (canvas.get s₂).text <+: (canvas.get s₃).text ∧
        ∃ stop, (canvas.get s₂).length ≤ stop ∧ (canvas.get s₃).ranges =
          (canvas.get s₂).ranges ++
            Canvas.spread m t₂.itemStyles (canvas.get s₁).length stop

/-- A start tag that succeeds on the canvas of a consumer gives a state of the consumer with the new
canvas, whatever else the consumer keeps. -/
theorem exists_receive_startElement {n : Nat} {name : Text} {tag : Tag}
    {attributes : Markup.Attributes} {t t' : Intercept.State} {s : σ} {c : Canvas}
    (htag : Tag.ofName? name = some tag)
    (hok : t.startTag n tag attributes (canvas.get s) = .ok (t', c)) :
    ∃ s', (k.behindIntercept canvas).receive n (.startElement name attributes) (t, s) =
      .ok (t', s') ∧ canvas.get s' = c :=
  ⟨_, receive_startElement_of_ok htag hok, canvas.get_put c s⟩

/-- The same for an end tag. -/
theorem exists_receive_endElement {n : Nat} {name : Text} {tag : Tag} {t t' : Intercept.State}
    {s : σ} {c : Canvas} (htag : Tag.ofName? name = some tag)
    (hok : t.endTag n tag (canvas.get s) = .ok (t', c)) :
    ∃ s', (k.behindIntercept canvas).receive n (.endElement name) (t, s) = .ok (t', s') ∧
      canvas.get s' = c :=
  ⟨_, receive_endElement_of_ok htag hok, canvas.get_put c s⟩

/-- The start tag of the list leaves the canvas as it is, so up to the start tag of the item only
texts have been written. -/
theorem Writes.exists_list (hk : k.Writes canvas write) (l : Level) {n : Nat}
    {t : Intercept.State} {s : σ} (h : Ready canvas n t s) :
    ∃ s₁, (k.behindIntercept canvas).runFrom n
        (data l.beforeList ++ .startElement l.listName l.listAttributes :: data l.beforeItem)
          (t, s) = .ok (t.openList l.kind, s₁) ∧
      (canvas.get s₁).Sound (n + l.beforeList.length + 1 + l.beforeItem.length) ∧
      (canvas.get s).Grows (canvas.get s₁) := by
  obtain ⟨s₁, hok₁, hs₁, hgrows₁, -⟩ := hk.exists_run_data l.beforeList t h.sound
  obtain ⟨s₂, hok₂, hc₂⟩ := exists_receive_startElement (k := k) (n := n + l.beforeList.length)
    l.isList (Intercept.State.startTag_list h.depth l.listAttributes)
  have hs₂ : (canvas.get s₂).Sound (n + l.beforeList.length + 1) := by
    rw [hc₂]
    exact hs₁.mono (Nat.le_succ _)
  obtain ⟨s₃, hok₃, hs₃, hgrows₃, -⟩ := hk.exists_run_data l.beforeItem (t.openList l.kind) hs₂
  refine ⟨s₃, ?_, hs₃, hgrows₁.trans (hc₂ ▸ hgrows₃)⟩
  rw [runFrom_append_of_ok hok₁, length_data, runFrom_cons_of_ok hok₂]
  exact hok₃

/-- The end tags of a level, where the item has been opened on the canvas of `s`. Between them only
texts come, and the one of the list leaves the canvas alone. -/
theorem Writes.exists_closing (hk : k.Writes canvas write) (l : Level) {n m : Nat}
    {t t₁ t₂ : Intercept.State} {s s₁ s₂ : σ} (hb : t.Balanced) (hdepth : t.depth = 0)
    (hs : (canvas.get s).Sound n)
    (hstart : (t.openList l.kind).startTag n .item l.itemAttributes (canvas.get s) =
      .ok (t₁, canvas.get s₁))
    (hsame : t₁.SameOpen t₂) (hgrows : (canvas.get s₁).Grows (canvas.get s₂))
    (hs₂ : (canvas.get s₂).Sound m) :
    ∃ t₃ s₃, (k.behindIntercept canvas).runFrom m l.closing (t₂, s₂) = .ok (t₃, s₃) ∧
      t.SameOpen t₃ ∧ (canvas.get s).Grows (canvas.get s₃) ∧
      (canvas.get s₃).Sound (m + l.closing.length) ∧
      (canvas.get s₂).text <+: (canvas.get s₃).text ∧
      ∃ stop, (canvas.get s₂).length ≤ stop ∧ (canvas.get s₃).ranges =
        (canvas.get s₂).ranges ++
          Canvas.spread m t₂.itemStyles (canvas.get s₁).length stop := by
  -- the end of the item, the texts behind it, the end of the list and the texts behind that
  obtain ⟨t₃, c₃, hend, hsame₃, hgrows₃, hs₃, hkept, hranges⟩ :=
    Intercept.State.endTag_item (hb.openList l.kind) hs hdepth hstart hsame hgrows hs₂
  obtain ⟨s₃, hitem, rfl⟩ := exists_receive_endElement (k := k) l.isItem hend
  obtain ⟨s₄, hok₄, hs₄, hgrows₄, hranges₄⟩ := hk.exists_run_data l.behindItem t₃ hs₃
  obtain ⟨s₅, hlist, hc₅⟩ := exists_receive_endElement (k := k)
    (n := m + 1 + l.behindItem.length) (s := s₄) l.isList
    (Intercept.State.endTag_list (hsame₃.depth.trans hdepth))
  have hs₅ : (canvas.get s₅).Sound (m + 1 + l.behindItem.length + 1) := by
    rw [hc₅]
    exact hs₄.mono (Nat.le_succ _)
  obtain ⟨s₆, hok₆, hs₆, hgrows₆, hranges₆⟩ := hk.exists_run_data l.behindList t₃.closeList hs₅
  rw [hc₅] at hgrows₆ hranges₆
  refine ⟨t₃.closeList, s₆, ?_, hsame₃.closeList, (hgrows₃.trans hgrows₄).trans hgrows₆, ?_,
    (hkept.trans hgrows₄.text).trans hgrows₆.text, (canvas.get s₃).length, hkept.length_le, ?_⟩
  · rw [Level.closing, runFrom_cons_of_ok hitem, runFrom_append_of_ok hok₄, length_data,
      runFrom_cons_of_ok hlist]
    exact hok₆
  · have hlength : m + l.closing.length =
        m + 1 + l.behindItem.length + 1 + l.behindList.length := by
      simp only [Level.closing, List.length_cons, List.length_append, length_data]
      omega
    rw [hlength]
    exact hs₆
  · -- only the end of the item attaches anything
    rw [hranges₆, hranges₄, hranges]

/-- **One level.** Its tags wrap whatever leaves open what was open; the levels within do, by
induction, and so do the texts in the innermost item. -/
theorem Writes.exists_wraps (hk : k.Writes canvas write) (l : Level) {n : Nat}
    {t : Intercept.State} {s : σ} (h : Ready canvas n t s) :
    ∃ t₁ s₁, l.Wraps k canvas n t s t₁ s₁ := by
  obtain ⟨s₁, hlist, hs₁, hgrows₁⟩ := hk.exists_list l h
  have hb₁ := h.balanced.openList l.kind
  obtain ⟨t₂, m, hstart, hmade, hb₂, hdepth₂, hlists₂, hindent₂⟩ :=
    Intercept.State.startTag_item (t := t.openList l.kind) rfl hb₁ hs₁ h.depth l.itemAttributes
  obtain ⟨s₂, hitem, hc₂⟩ := exists_receive_startElement (k := k) l.isItem hstart
  have hbefore : n + (data l.beforeList ++
      .startElement l.listName l.listAttributes :: data l.beforeItem).length =
        n + l.beforeList.length + 1 + l.beforeItem.length := by
    simp only [List.length_append, List.length_cons, length_data]
    omega
  refine ⟨t₂, s₂, ?_, ⟨hb₂, ?_, hdepth₂⟩, ?_, hlists₂, ?_, ?_, ?_⟩
  · have hopening : l.opening = (data l.beforeList ++
        .startElement l.listName l.listAttributes :: data l.beforeItem) ++
          [.startElement l.itemName l.itemAttributes] := by
      simp [Level.opening]
    rw [hopening, runFrom_append_of_ok hlist, hbefore]
    exact runFrom_cons_of_ok hitem []
  · have hlength : n + l.opening.length =
        n + l.beforeList.length + 1 + l.beforeItem.length + 1 := by
      simp only [Level.opening, List.length_append, List.length_cons, List.length_nil, length_data]
      omega
    rw [hlength, hc₂]
    exact hs₁.newline.marked hmade rfl
  · rw [Intercept.State.unit, hindent₂]
    rfl
  · rw [hc₂]
    exact (hgrows₁.trans (Canvas.grows_newline _)).length_le
  · rw [hc₂]
    exact Canvas.lastOf_newline _
  · -- whatever has been written in the item, its level can be closed from there
    intro m t₃ s₃ hsame hgrows hs₃
    rw [← hc₂] at hstart
    obtain ⟨t₄, s₄, hok, hsame₄, hgrows₄, hclosed⟩ :=
      hk.exists_closing l h.balanced h.depth hs₁ hstart hsame hgrows hs₃
    exact ⟨t₄, s₄, hok, hsame₄, hgrows₁.trans hgrows₄, hclosed⟩

/-! ## Levels one in another -/

/-- What the items of some levels add to the indentation of the innermost text, by the lists
around. -/
def nestedMargin (unit : Nat) : List ListKind → List Level → Int
  | _, [] => 0
  | around, l :: levels =>
    nestedMargin unit (l.kind :: around) levels + Intercept.ownMargin unit around l.kind

/-- In a list every level adds the same, twice the unit, of whatever kind the lists are; the kind
counts for the outermost one alone. -/
theorem nestedMargin_inside (unit : Nat) (levels : List Level) :
    ∀ (kind : ListKind) (around : List ListKind),
      nestedMargin unit (kind :: around) levels = 2 * unit * levels.length := by
  induction levels with
  | nil =>
    intro kind around
    simp [nestedMargin]
  | cons l levels ih =>
    intro kind around
    rw [nestedMargin, ih, Intercept.ownMargin, List.length_cons]
    push_cast
    ring

/-- Levels one in another with texts in the innermost item, from `t` and `s` on: the start tags lead
to `t₁` and `s₁`, the texts from there to `s₂`, and the end tags to `t₃` and `s₃`. -/
structure Nests (k : Consumer σ) (canvas : Access σ) (write : Char → Text → Text)
    (levels : List Level) (texts : List Text) (n : Nat) (t : Intercept.State) (s : σ)
    (t₁ : Intercept.State) (s₁ s₂ : σ) (t₃ : Intercept.State) (s₃ : σ) : Prop where
  openings : (k.behindIntercept canvas).runFrom n (Level.openings levels) (t, s) = .ok (t₁, s₁)
  innermost : (k.behindIntercept canvas).runFrom (n + (Level.openings levels).length)
    (data texts) (t₁, s₁) = .ok (t₁, s₂)
  closings : (k.behindIntercept canvas).runFrom
    (n + (Level.openings levels).length + texts.length) (Level.closings levels) (t₁, s₂) =
      .ok (t₃, s₃)
  canvas_eq : canvas.get s₂ = (canvas.get s₁).append
    (written write (Flow.lastOf (canvas.get s₁).text) texts)
  lastOf_eq : levels ≠ [] ∨ Flow.lastOf (canvas.get s).text = '\n' →
    Flow.lastOf (canvas.get s₁).text = '\n'
  sameOpen : t.SameOpen t₃
  grows : (canvas.get s).Grows (canvas.get s₃)
  sound : (canvas.get s₃).Sound
    (n + (Level.openings levels).length + texts.length + (Level.closings levels).length)
  le_length : (canvas.get s).length ≤ (canvas.get s₁).length
  kept : (canvas.get s₂).text <+: (canvas.get s₃).text
  margin : ∀ firstLine i j, (canvas.get s₁).length ≤ i → i < j → j ≤ (canvas.get s₂).length →
    (canvas.get s₃).leadingMargin firstLine i j = nestedMargin t.unit t.lists levels

/-- Texts outside of any level: no tags come, and no style is put over what is written. -/
theorem Writes.nests_nil (hk : k.Writes canvas write) (texts : List Text) {n : Nat}
    {t : Intercept.State} {s : σ} (h : Ready canvas n t s) :
    ∃ s₂, Nests k canvas write [] texts n t s t s s₂ t s₂ := by
  obtain ⟨s₂, hok, hc₂⟩ := hk.run_data texts n t s
  have hgrows : (canvas.get s).Grows (canvas.get s₂) := by
    rw [hc₂]
    exact Canvas.grows_append _ _
  refine ⟨s₂, rfl, hok, rfl, hc₂, fun hlast => hlast.resolve_left (by simp), .refl t, hgrows, ?_,
    Nat.le_refl _, List.prefix_refl _, fun firstLine i j hi hij _ => ?_⟩
  · rw [hc₂]
    exact (h.sound.mono (by simp only [Nat.add_assoc, Nat.le_add_right])).append _
  · have hranges : (canvas.get s₂).ranges = (canvas.get s).ranges := by
      rw [hc₂]
      rfl
    rw [Canvas.leadingMargin_eq_ranges, hranges]
    exact Canvas.marginOver_ranges_eq_zero h.sound hi hij

/-- One more level around: its item is styled over all that is in it, and on the margin of the
innermost text it puts its own on top. -/
theorem Nests.wrap {l : Level} {levels : List Level} {texts : List Text} {n : Nat}
    {t t₁ t₂ t₃ : Intercept.State} {s s₁ s₂ s₃ s₄ : σ} (hw : l.Wraps k canvas n t s t₁ s₁)
    (h : Nests k canvas write levels texts (n + l.opening.length) t₁ s₁ t₂ s₂ s₃ t₃ s₄) :
    ∃ t₄ s₅, Nests k canvas write (l :: levels) texts n t s t₂ s₂ s₃ t₄ s₅ := by
  obtain ⟨t₄, s₅, hclosing, hsame, hgrows, hs₅, hkept, stop, hstop, hranges⟩ :=
    hw.closing h.sameOpen h.grows h.sound
  have hopenings : n + (Level.openings (l :: levels)).length =
      n + l.opening.length + (Level.openings levels).length := by
    rw [Level.openings_cons, List.length_append, Nat.add_assoc]
  refine ⟨t₄, s₅, ?_, ?_, ?_, h.canvas_eq, fun _ => h.lastOf_eq (.inr hw.lastOf_eq), hsame, hgrows,
    ?_, Nat.le_trans hw.le_length h.le_length, h.kept.trans hkept,
    fun firstLine i j hi hij hj => ?_⟩
  · rw [Level.openings_cons, runFrom_append_of_ok hw.opening]
    exact h.openings
  · rw [hopenings]
    exact h.innermost
  · rw [hopenings, Level.closings_cons, runFrom_append_of_ok h.closings]
    exact hclosing
  · rw [hopenings, Level.closings_cons, List.length_append, ← Nat.add_assoc]
    exact hs₅
  · -- the spans further in add up by hypothesis, and those of this item cover all of the text
    have hj' : j ≤ stop := Nat.le_trans hj (Nat.le_trans h.kept.length_le hstop)
    have hinner := h.margin firstLine i j hi hij hj
    rw [Canvas.leadingMargin_eq_ranges] at hinner
    have hlists : t₃.lists = l.kind :: t.lists := h.sameOpen.lists.trans hw.lists_eq
    rw [Canvas.leadingMargin_eq_ranges, hranges, Span.marginOver_append, hinner,
      Canvas.marginOver_spread (Nat.le_trans h.le_length hi) hij hj',
      Intercept.State.sum_itemStyles hlists, h.sameOpen.unit_eq, hw.unit_eq, hw.lists_eq]
    rfl

/-- **Levels add up.** From every place outside of tables lists nest to any depth. The induction is
on the levels, and lets the place vary: behind the tags of the outermost one the others begin. -/
theorem Writes.run_levels (hk : k.Writes canvas write) (levels : List Level) (texts : List Text) :
    ∀ {n : Nat} {t : Intercept.State} {s : σ}, Ready canvas n t s →
      ∃ t₁ s₁ s₂ t₃ s₃, Nests k canvas write levels texts n t s t₁ s₁ s₂ t₃ s₃ := by
  induction levels with
  | nil =>
    intro n t s h
    obtain ⟨s₂, hnests⟩ := hk.nests_nil texts h
    exact ⟨t, s, s₂, t, s₂, hnests⟩
  | cons l levels ih =>
    intro n t s h
    obtain ⟨t₁, s₁, hw⟩ := hk.exists_wraps l h
    obtain ⟨t₂, s₂, s₃, t₃, s₄, hnests⟩ := ih hw.ready
    obtain ⟨t₄, s₅, hnests'⟩ := hnests.wrap hw
    exact ⟨t₂, s₂, s₃, t₄, s₅, hnests'⟩

/-- **Indentation grows linearly.** Behind any events that have left no table and no list open, and
for an effective indentation `u` of the request: lists one in another, with an item each and any
texts around lists and items, succeed from the first start tag to the last end tag. The text in the
innermost item is written at the start of a line, and stays. Wherever one looks in it, the margins,
bullets and numbers over it move the first line and all others by the same sum: by `u` for the
outermost list, and eight more if that one is unordered, and by `2 * u` for each list in it. -/
theorem nested_lists_indent (hk : k.Writes canvas write) {r : Request} {u : Nat}
    (hu : r.listIndent = .ok u) {t₀ : Intercept.State} (ht₀ : r.interceptor = .ok t₀) {s₀ : σ}
    (hs₀ : (canvas.get s₀).spans = []) {events : List Event} {t : Intercept.State} {s : σ}
    (hrun : (k.behindIntercept canvas).run events (t₀, s₀) = .ok (t, s)) (hdepth : t.depth = 0)
    (hlists : t.lists = []) (outer : Level) (inner : List Level) (texts : List Text) :
    ∃ t₁ s₁ s₂ t₃ s₃,
      (k.behindIntercept canvas).runFrom events.length (Level.openings (outer :: inner)) (t, s) =
        .ok (t₁, s₁) ∧
      (k.behindIntercept canvas).runFrom
        (events.length + (Level.openings (outer :: inner)).length) (data texts) (t₁, s₁) =
          .ok (t₁, s₂) ∧
      (k.behindIntercept canvas).runFrom
        (events.length + (Level.openings (outer :: inner)).length + texts.length)
          (Level.closings (outer :: inner)) (t₁, s₂) = .ok (t₃, s₃) ∧
      (canvas.get s₂).text = (canvas.get s₁).text ++ written write '\n' texts ∧
      (canvas.get s₂).text <+: (canvas.get s₃).text ∧
      ∀ firstLine i j, (canvas.get s₁).length ≤ i → i < j → j ≤ (canvas.get s₂).length →
        (canvas.get s₃).leadingMargin firstLine i j =
          u + 2 * u * inner.length + if outer.kind = .unordered then 8 else 0 := by
  -- the indentation is fixed before the first event
  have hbalanced : t₀.Balanced := (Draft.reachable_interceptor ht₀).sound.balanced
  have hsound : (canvas.get s₀).Sound 0 := by
    intro r hr
    rw [hs₀] at hr
    exact absurd hr List.not_mem_nil
  obtain ⟨t', s', hok, hb, hs, -⟩ := run_sound hk.keepsSound events hbalanced hsound
  cases hok.symm.trans hrun
  rw [Nat.zero_add] at hs
  have hunit : t.unit = u := by
    rw [r.listIndent_eq, ht₀] at hu
    cases hu
    rw [Intercept.State.unit, indent_of_run hk.keepsSound hbalanced hsound hrun]
    rfl
  obtain ⟨t₁, s₁, s₂, t₃, s₃, h⟩ := hk.run_levels (outer :: inner) texts ⟨hb, hs, hdepth⟩
  refine ⟨t₁, s₁, s₂, t₃, s₃, h.openings, h.innermost, h.closings, ?_, h.kept,
    fun firstLine i j hi hij hj => ?_⟩
  · rw [h.canvas_eq, h.lastOf_eq (.inl (List.cons_ne_nil _ _))]
    rfl
  · rw [h.margin firstLine i j hi hij hj, hunit, hlists, nestedMargin, nestedMargin_inside,
      Intercept.ownMargin]
    ring

/-- A list behind a text, with its item on a new line. -/
def levelBehind (text : Text) (kind : ListKind) : Level where
  kind := kind
  beforeList := [text]
  beforeItem := ["\n".toList]
  behindItem := []
  behindList := []
  listName := (Tag.list kind).eventName
  listAttributes := []
  itemName := Tag.item.eventName
  itemAttributes := []
  isList := by cases kind <;> decide +kernel
  isItem := by decide +kernel

/-- An ordered list in an unordered one, and one more in that. -/
def innerLevels : List Level := [levelBehind "b".toList .ordered, levelBehind "c".toList .unordered]

theorem nested_lists_indent_threeLevels :
    ∃ t₀ t₁ f₁ f₂ t₃ f₃,
      ({ indent := some (.ofDecimal false 145 (-1)) } : Request).interceptor = .ok t₀ ∧
      ({ indent := some (.ofDecimal false 145 (-1)) } : Request).listIndent = .ok 15 ∧
      (intercepted none).runFrom 0
        (Level.openings (levelBehind "a".toList .unordered :: innerLevels)) (t₀, {}) =
          .ok (t₁, f₁) ∧
      (intercepted none).runFrom 12 [.characters " d e".toList] (t₁, f₁) = .ok (t₁, f₂) ∧
      (intercepted none).runFrom 13
        (Level.closings (levelBehind "a".toList .unordered :: innerLevels)) (t₁, f₂) =
          .ok (t₃, f₃) ∧
      f₁.canvas.text = "a \nb \nc \n".toList ∧ f₂.canvas.text = "a \nb \nc \nd e".toList ∧
      f₂.canvas.text <+: f₃.canvas.text ∧
      ∀ firstLine i j, 9 ≤ i → i < j → j ≤ 12 → f₃.canvas.leadingMargin firstLine i j = 83 := by
  have hindent : ({ indent := some (.ofDecimal false 145 (-1)) } : Request).listIndent = .ok 15 := by
    decide +kernel
  have hinterceptor : ({ indent := some (.ofDecimal false 145 (-1)) } : Request).interceptor =
      .ok { indent := some 15 } := by
    decide +kernel
  have hrun : ((flow none).behindIntercept Flow.State.access).run []
      ({ indent := some 15 }, {}) = .ok ({ indent := some 15 }, {}) := rfl
  obtain ⟨t₁, f₁, f₂, t₃, f₃, hopenings, hinnermost, hclosings, htext, hkept, hmargin⟩ :=
    nested_lists_indent (flow_writes none) hindent hinterceptor rfl hrun rfl rfl
      (levelBehind "a".toList .unordered) innerLevels [" d e".toList]
  have hshown : ((intercepted none).runFrom 0 (Level.openings
      (levelBehind "a".toList .unordered :: innerLevels)) ({ indent := some 15 }, {})).toOption.map
        (fun d : Draft => d.canvas.text) = some "a \nb \nc \n".toList := by
    decide +kernel
  have hopen : (intercepted none).runFrom 0 (Level.openings
      (levelBehind "a".toList .unordered :: innerLevels)) ({ indent := some 15 }, {}) =
        .ok (t₁, f₁) := hopenings
  rw [hopen] at hshown
  have htext₁ : f₁.canvas.text = "a \nb \nc \n".toList := Option.some.inj hshown
  have htext₂ : f₂.canvas.text = f₁.canvas.text ++ written Flow.collapse '\n' [" d e".toList] := htext
  rw [htext₁] at htext₂
  refine ⟨_, t₁, f₁, f₂, t₃, f₃, hinterceptor, hindent, hopen, hinnermost, hclosings, htext₁,
    htext₂.trans (by decide), hkept, fun firstLine i j hi hij hj => ?_⟩
  have hlength₁ : f₁.canvas.length = 9 := congrArg List.length htext₁
  have hlength₂ : f₂.canvas.length = 12 := congrArg List.length htext₂
  exact hmargin firstLine i j (hlength₁.trans_le hi) hij (hj.trans_eq hlength₂.symm)

end Consumer

end StyledText
