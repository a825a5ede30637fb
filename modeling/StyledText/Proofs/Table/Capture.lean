import StyledText.Proofs.Table.Serialise

/-!
# What a table captures

The interceptor stands in front of any consumer that writes its character data at the end of the
canvas (`Consumer.Writes`): as it comes, or as running text with its white space collapsed. Inside a
table, texts and intercepted elements without items then leave all that is known as it was, but for
the markup of the table, which gets what is `written` of the content, and for the canvas, which gets
the `loose` text.
-/

namespace StyledText

open Markup (Event Attributes Content)

/-- A consumer that adds to the canvas what `write` makes of character data, by the last character
before. -/
structure Consumer.Writes {σ : Type} (k : Consumer σ) (canvas : Access σ)
    (write : Char → Text → Text) : Prop where
  characters : ∀ n t s, ∃ s', k.receive n (.characters t) s = .ok s' ∧
    canvas.get s' = (canvas.get s).append (write (Flow.lastOf (canvas.get s).text) t)
  keepsSound : k.KeepsSound canvas

/-- Running text collapses white space, and so it adds less than the data, depending on the last
character before. -/
theorem flow_writes (lookup? : Option Image.Lookup) :
    (flow lookup?).Writes Flow.State.access Flow.collapse where
  characters _ _ _ := ⟨_, rfl, rfl⟩
  keepsSound := Draft.flow_keepsSound lookup?

/-- The canvas of the consumer that keeps the events. -/
def scribeAccess : Access (Canvas × List Event) :=
  { get := Prod.fst, put := fun c s => (c, s.2) }

theorem scribe_writes : scribe.Writes scribeAccess fun _ t => t where
  characters _ _ _ := ⟨_, rfl, rfl⟩
  keepsSound n e s h := by
    cases e with
    | characters t => exact ⟨_, rfl, (h.mono (Nat.le_succ n)).append t⟩
    | _ => exact ⟨_, rfl, h.mono (Nat.le_succ n)⟩

namespace Markup.Content

/-- The content with each text as it is written behind a character. Text that an element takes with
it does not count for what follows the element. -/
def shown (write : Char → Text → Text) : Char → Content → Content
  | _, empty => empty
  | last, data e h rest =>
    match e, h with
    | .characters t, _ =>
      let t := write last t
      .characters t (rest.shown write (t.getLastD last))
    | e, h => .data e h (rest.shown write last)
  | last, element name attributes inner rest =>
    let inner := inner.shown write last
    let last := if Intercept.Encloses name then last else inner.loose.getLastD last
    .element name attributes inner (rest.shown write last)

/-- Text that is written as it comes is shown as it stands in the document. -/
theorem shown_verbatim (d : Content) : ∀ last, d.shown (fun _ t => t) last = d := by
  induction d with
  | empty => exact fun _ => rfl
  | data e h rest ih =>
    intro last
    cases e with
    | characters t => exact congrArg (characters t) (ih _)
    | startElement name attributes => cases h
    | endElement name => cases h
    | _ => exact congrArg (data _ h) (ih _)
  | element name attributes inner rest ihi ihr =>
    intro last
    rw [shown, ihi, ihr]

theorem Tabular.shown {d : Content} (h : d.Tabular) (write : Char → Text → Text) :
    ∀ last, (d.shown write last).Tabular := by
  induction d with
  | empty => exact fun _ => trivial
  | data e he rest ih =>
    intro last
    obtain ⟨⟨t, rfl⟩, hrest⟩ := h
    exact ⟨⟨_, rfl⟩, ih hrest _⟩
  | element name attributes inner rest ihi ihr =>
    intro last
    exact ⟨h.1, ihi h.2.1 _, ihr h.2.2 _⟩

end Markup.Content

namespace Consumer

variable {σ : Type} {k : Consumer σ} {canvas : Access σ} {write : Char → Text → Text}

open Intercept (Tag)

/-- Inside a table and behind the character `last`, the events write `w` to the markup and add the
loose text `l`; nothing else changes. -/
def Captures (k : Consumer σ) (canvas : Access σ) (last : Char) (events : List Event) (w l : Text) :
    Prop :=
  ∀ (n : Nat) (t : Intercept.State) (s : σ), (canvas.get s).Sound n → 0 < t.depth →
    Flow.lastOf (canvas.get s).text = last →
    ∃ s', (k.behindIntercept canvas).runFrom n events (t, s) = .ok (t.write w, s') ∧
      canvas.get s' = (canvas.get s).append l

variable {last : Char} {es fs : List Event} {w w' l l' : Text} {name : Text} {tag : Tag}

theorem Captures.nil (last : Char) : Captures k canvas last [] [] [] := by
  intro n t s _ _ _
  exact ⟨s, by simp [runFrom, Intercept.State.write], (Canvas.append_nil _).symm⟩

theorem Captures.append (h : Captures k canvas last es w l)
    (h' : Captures k canvas (l.getLastD last) fs w' l') :
    Captures k canvas last (es ++ fs) (w ++ w') (l ++ l') := by
  intro n t s hc hdepth hlast
  obtain ⟨s₁, hok₁, hc₁⟩ := h n t s hc hdepth hlast
  have hs₁ : (canvas.get s₁).Sound (n + es.length) := by
    rw [hc₁]
    exact (hc.mono (Nat.le_add_right _ _)).append l
  have hlast₁ : Flow.lastOf (canvas.get s₁).text = l.getLastD last := by
    rw [hc₁, ← hlast]
    exact Flow.lastOf_append _ _
  obtain ⟨s₂, hok₂, hc₂⟩ := h' _ (t.write w) s₁ hs₁ hdepth hlast₁
  refine ⟨s₂, ?_, ?_⟩
  · rw [runFrom_append_of_ok hok₁, hok₂]
    simp [Intercept.State.write]
  · rw [hc₂, hc₁]
    simp [Buffer.append]

/-- Character data is written behind the interceptor, which it does not concern. -/
theorem Writes.receive_characters (hk : k.Writes canvas write) (n : Nat) (text : Text)
    (t : Intercept.State) (s : σ) :
    ∃ s', (k.behindIntercept canvas).receive n (.characters text) (t, s) = .ok (t, s') ∧
      canvas.get s' =
        (canvas.get s).append (write (Flow.lastOf (canvas.get s).text) text) := by
  obtain ⟨s', hok, hc'⟩ := hk.characters n text s
  refine ⟨s', ?_, hc'⟩
  rw [receive_of_declined (by rintro _ ⟨⟩), hok]
  rfl

/-- Text is loose: it stays on the canvas until an enclosing element ends, and writes nothing by
itself. -/
theorem Writes.captures_characters (hk : k.Writes canvas write) (last : Char) (text : Text) :
    Captures k canvas last [.characters text] [] (write last text) := by
  intro n t s hc hdepth hlast
  obtain ⟨s', hok, hc'⟩ := hk.receive_characters n text t s
  rw [hlast] at hc'
  refine ⟨s', ?_, hc'⟩
  rw [runFrom_cons_of_ok hok]
  simp [runFrom, Intercept.State.write]

/-- An element is told by its tags: by what they do around content that writes `w` and leaves
`l`. -/
theorem Captures.element (h : Captures k canvas last es w l) (htag : Tag.ofName? name = some tag)
    (attributes : Attributes)
    (htags : ∀ (n : Nat) (t : Intercept.State) (c : Canvas), c.Sound n → 0 < t.depth →
      ∃ t₁ c₁, t.startTag n tag attributes c = .ok (t₁, c₁) ∧ 0 < t₁.depth ∧ c₁.Sound (n + 1) ∧
        c₁.text = c.text ∧ ∀ m, Canvas.Sound m (Buffer.append c₁ l) →
          (t₁.write w).endTag m tag (Buffer.append c₁ l) = .ok (t.write w', Buffer.append c l')) :
    Captures k canvas last (.startElement name attributes :: es ++ [.endElement name]) w' l' := by
  intro n t s hc hdepth hlast
  obtain ⟨t₁, c₁, hstart, hdepth₁, hs₁, htext, hend⟩ := htags n t (canvas.get s) hc hdepth
  have hok₁ : (k.behindIntercept canvas).receive n (.startElement name attributes) (t, s) =
      .ok (t₁, canvas.put c₁ s) := receive_startElement_of_ok htag hstart
  have hget : canvas.get (canvas.put c₁ s) = c₁ := canvas.get_put c₁ s
  obtain ⟨s₂, hok₂, hc₂⟩ := h (n + 1) t₁ (canvas.put c₁ s) (by rw [hget]; exact hs₁) hdepth₁
    (by rw [hget, htext]; exact hlast)
  rw [hget] at hc₂
  have hs₂ : Canvas.Sound (n + 1 + es.length) (Buffer.append c₁ l) :=
    (hs₁.mono (Nat.le_add_right _ _)).append l
  have hok₃ : (k.behindIntercept canvas).receive (n + 1 + es.length) (.endElement name)
      (t₁.write w, s₂) = .ok (t.write w', canvas.put (Buffer.append (canvas.get s) l') s₂) :=
    receive_endElement_of_ok htag (by rw [hc₂]; exact hend _ hs₂)
  refine ⟨_, ?_, canvas.get_put _ s₂⟩
  rw [List.cons_append, runFrom_cons_of_ok hok₁, runFrom_append_of_ok hok₂,
    runFrom_cons_of_ok hok₃]
  rfl

/-- **An enclosing element** writes its loose text before its end tag. -/
theorem Captures.enclosing (h : Captures k canvas last es w l) (htag : Tag.ofName? name = some tag)
    (henc : tag.encloses = true) (attributes : Attributes) :
    Captures k canvas last (.startElement name attributes :: es ++ [.endElement name])
      (tag.startText ++ w ++ l ++ tag.endText) [] := by
  obtain ⟨kind, hkind⟩ := Tag.exists_kind_of_encloses henc
  refine h.element htag attributes fun n t c hc hdepth => ?_
  refine ⟨_, _, Intercept.State.startTag_inside hkind hc hdepth,
    Nat.lt_of_lt_of_le hdepth (Nat.le_add_right _ _), hc.marked rfl rfl, rfl, fun m hs => ?_⟩
  -- what stands behind the marker is the loose text of the content
  have hdrop : (Buffer.append c l).text.drop c.length = l := List.drop_left
  refine (Intercept.State.endTag_inside hkind hc (Canvas.grows_append _ l) hs rfl hdepth rfl).trans ?_
  rw [Canvas.append_nil]
  change Except.ok (Intercept.State.write _ (Intercept.State.write ((Buffer.append c l).text.drop
    c.length) _), c) = _
  rw [hdrop]
  simp [Intercept.State.write]

/-- **A list** writes its tags and passes its loose text on. -/
theorem Captures.list {kind : Intercept.ListKind} (h : Captures k canvas last es w l)
    (htag : Tag.ofName? name = some (.list kind)) (attributes : Attributes) :
    Captures k canvas last (.startElement name attributes :: es ++ [.endElement name])
      ((Tag.list kind).startText ++ w ++ (Tag.list kind).endText) l := by
  refine h.element htag attributes fun n t c hc hdepth => ?_
  have hrecord (t' : Intercept.State) (ht' : t'.depth = t.depth) (text : Text) :
      t'.record text = t'.write text :=
    Intercept.State.record_of_depth_pos (by rw [ht']; exact hdepth) text
  refine ⟨(t.openList kind).write (Tag.list kind).startText, c, ?_, hdepth,
    hc.mono (Nat.le_succ n), rfl, fun m _ => ?_⟩
  · exact congrArg (fun t => Except.ok (t, c)) (hrecord (t.openList kind) rfl _)
  · refine congrArg (fun t => Except.ok (t, _)) ((hrecord _ (by cases kind <;> rfl) _).trans ?_)
    cases kind <;> simp [Intercept.State.write, Intercept.State.openList, Intercept.State.closeList]

/-- **Capturing.** Inside a table, texts and intercepted elements without items write to the markup
and leave their loose text. -/
theorem Writes.captures (hk : k.Writes canvas write) (content : Content) (ht : content.Tabular) :
    ∀ last, Captures k canvas last content.events (content.shown write last).written
      (content.shown write last).loose := by
  induction content with
  | empty => exact Captures.nil
  | data e he rest ih =>
    intro last
    obtain ⟨⟨text, rfl⟩, htr⟩ := ht
    exact (hk.captures_characters last text).append (ih htr _)
  | element name attributes inner rest ihi ihr =>
    intro last
    obtain ⟨⟨tag, htag, hitem⟩, hti, htr⟩ := ht
    have hevents : (Content.element name attributes inner rest).events =
        (.startElement name attributes :: inner.events ++ [.endElement name]) ++ rest.events := by
      simp [Content.events]
    have hstartText : Content.startText name = tag.startText := by rw [Content.startText, htag]; rfl
    have hendText : Content.endText name = tag.endText := by rw [Content.endText, htag]; rfl
    rw [hevents, Content.shown, Content.written, Content.loose, hstartText, hendText]
    -- an enclosing element writes its loose text, a list hands it on; items are left out
    by_cases hname : Intercept.Encloses name
    · obtain ⟨tag', htag', henc⟩ := Intercept.exists_tag_of_encloses hname
      cases htag.symm.trans htag'
      simp only [if_pos hname]
      exact ((ihi hti last).enclosing htag henc attributes).append (ihr htr _)
    · obtain ⟨kind, rfl⟩ : ∃ kind, tag = .list kind := by
        cases tag with
        | list kind => exact ⟨kind, rfl⟩
        | item => exact absurd rfl hitem
        | _ => exact absurd (Intercept.encloses_of_ofName? htag rfl) hname
      simp only [if_neg hname, List.append_nil]
      exact ((ihi hti last).list htag attributes).append (ihr htr _)

/-- An outermost table with texts and intercepted elements without items. -/
theorem Writes.run_table (hk : k.Writes canvas write) {n : Nat} {t : Intercept.State} {s : σ}
    (hc : (canvas.get s).Sound n) (hdepth : t.depth = 0) (hname : name.lower = "table".toList)
    (attributes : Attributes) {inner : Content} (ht : inner.Tabular) :
    ∃ t' s', (k.behindIntercept canvas).runFrom n
        (Content.element name attributes inner .empty).events (t, s) = .ok (t', s') ∧
      t'.html = Tag.table.startText
        ++ (inner.shown write (Flow.lastOf Intercept.placeholder)).written ++ Tag.table.endText ∧
      canvas.get s' = Canvas.styled (n + 1 + inner.events.length) t'.shownStyles
        (canvas.get s).length
        ((canvas.get s).length + (Intercept.placeholder
          ++ (inner.shown write (Flow.lastOf Intercept.placeholder)).loose).length)
        ((canvas.get s).append (Intercept.placeholder
          ++ (inner.shown write (Flow.lastOf Intercept.placeholder)).loose)) := by
  have htag := Intercept.ofName?_of_lower_eq_table hname
  have hmarked := hc.marked (o := .marker ⟨n, .table, none⟩) rfl rfl
  have hplaced : (Intercept.State.placeTable n (canvas.get s)).Sound (n + 1) := hmarked.append _
  have hok₁ : (k.behindIntercept canvas).receive n (.startElement name attributes) (t, s) = _ :=
    receive_startElement_of_ok htag (Intercept.State.startTag_root hc hdepth)
  have hget := canvas.get_put (Intercept.State.placeTable n (canvas.get s)) s
  -- the content comes behind the placeholder, and the first text is judged by the last character of
  -- that
  obtain ⟨s₂, hok₂, hc₂⟩ := hk.captures inner ht (Flow.lastOf Intercept.placeholder) (n + 1)
    (t.beginTable n) (canvas.put (Intercept.State.placeTable n (canvas.get s)) s)
    (by rw [hget]; exact hplaced) Nat.one_pos
    (by rw [hget]; exact (Flow.lastOf_append _ _).trans rfl)
  rw [hget] at hc₂
  have hs₂ : (canvas.get s₂).Sound (n + 1 + inner.events.length) := by
    rw [hc₂]
    exact (hplaced.mono (Nat.le_add_right _ _)).append _
  have hgrows : (Canvas.marked (.marker ⟨n, .table, none⟩) (canvas.get s)).Grows
      (canvas.get s₂) := by
    rw [hc₂]
    exact (Canvas.grows_append _ _).trans (Canvas.grows_append _ _)
  obtain ⟨c₃, hc₃, hend, -⟩ := Intercept.State.endTag_root
    (u := (t.beginTable n).write (inner.shown write (Flow.lastOf Intercept.placeholder)).written)
    hc hgrows hs₂ rfl rfl
  refine ⟨_, _, runFrom_element_of_ok hok₁ hok₂ (receive_endElement_of_ok htag hend) .empty, ?_, ?_⟩
  · exact Intercept.State.html_countClick _
  · rw [canvas.get_put, hc₃, Intercept.State.closed_inline,
      Intercept.State.shownStyles_countClick, hc₂]
    have hremove (l : Text) : Buffer.remove (Buffer.append (Intercept.State.placeTable n
        (canvas.get s)) l) (.marker ⟨n, .table, none⟩) =
          Buffer.append (canvas.get s) (Intercept.placeholder ++ l) := by
      refine (congrArg (Buffer.append · l) (Intercept.State.remove_placeTable hc)).trans ?_
      simp [Buffer.append]
    have hlength (l : Text) : (Buffer.append (Intercept.State.placeTable n (canvas.get s)) l).length
        = (canvas.get s).length + (Intercept.placeholder ++ l).length := by
      rw [Buffer.length_append, Intercept.State.length_placeTable, List.length_append,
        Nat.add_assoc]
    rw [hremove, hlength]

/-- **The markup of a table.** After any events that have left no table open, a table of texts and
intercepted elements without items gets the markup that is written of its content, with the loose
text of each enclosing element right before the end tag of that element. Its styles get this markup.
Where no text holds the beginning of a tag, the markup is the plain serialisation if and only if
every text is in its place and none is loose in the table. -/
theorem table_markup_eq (hk : k.Writes canvas write) {setup : Intercept.Setup}
    {indent : Option Nat} {s₀ : σ} (hs₀ : canvas.get s₀ = Canvas.blank) {events : List Event}
    {t : Intercept.State} {s : σ}
    (hrun : (k.behindIntercept canvas).run events ({ setup := setup, indent := indent }, s₀) =
      .ok (t, s))
    (hdepth : t.depth = 0) (hname : name.lower = "table".toList) (attributes : Attributes)
    {inner shown : Content} (ht : inner.Tabular)
    (hshown : shown = inner.shown write (Flow.lastOf Intercept.placeholder)) :
    ∃ t' s', (k.behindIntercept canvas).runFrom events.length
        (Content.element name attributes inner .empty).events (t, s) = .ok (t', s') ∧
      t'.html = Tag.table.startText ++ shown.written ++ Tag.table.endText ∧
      canvas.get s' = Canvas.styled (events.length + 1 + inner.events.length) t'.shownStyles
        (canvas.get s).length
        ((canvas.get s).length + (Intercept.placeholder ++ shown.loose).length)
        ((canvas.get s).append (Intercept.placeholder ++ shown.loose)) ∧
      (shown.Clean → (t'.html = (Content.element name attributes shown .empty).serialise ↔
        shown.InPlace ∧ shown.loose = [])) := by
  subst hshown
  have hblank : (canvas.get s₀).Sound 0 := by
    rw [hs₀]
    exact Canvas.sound_blank 0
  obtain ⟨t'', s'', hok, -, hs, -⟩ := run_sound hk.keepsSound events
    (t := { setup := setup, indent := indent }) rfl hblank
  cases hok.symm.trans hrun
  rw [Nat.zero_add] at hs
  obtain ⟨t', s', hok', hhtml, hcanvas⟩ := hk.run_table hs hdepth hname attributes ht
  refine ⟨t', s', hok', hhtml, hcanvas, fun hclean => ?_⟩
  have htag := Intercept.ofName?_of_lower_eq_table hname
  rw [hhtml, ← Content.written_eq_serialise_iff (ht.shown write _) hclean, Content.serialise,
    Content.startText, Content.endText, htag]
  simp [Content.serialise]

/-- A cell with code behind a letter. -/
def codeInCell : Content :=
  .element "td".toList []
    (Content.characters "a".toList
      (.element "code".toList [] (.characters "b".toList .empty) .empty)) .empty

theorem tabular_codeInCell : codeInCell.Tabular :=
  ⟨⟨.bare .cell, by decide +kernel, by decide⟩,
    ⟨⟨_, rfl⟩, ⟨.bare .code, by decide +kernel, by decide⟩, ⟨⟨_, rfl⟩, trivial⟩, trivial⟩, trivial⟩

theorem table_markup_eq_codeInCell :
    (∃ (t : Intercept.State) (s : Canvas × List Event),
      (scribe.behindIntercept scribeAccess).runFrom 0
        (Content.element "table".toList [] codeInCell .empty).events ({}, (Canvas.blank, [])) =
          .ok (t, s) ∧
      t.html = "<table><td><code>b</code>a</td></table>".toList) ∧
    ∃ d : Draft, (intercepted none).runFrom 0
        (Content.element "table".toList [] codeInCell .empty).events ({}, {}) = .ok d ∧
      d.tags.html = "<table><td><code>b</code>a</td></table>".toList := by
  have hname : Text.lower "table".toList = "table".toList := rfl
  have hscribe : (scribe.behindIntercept scribeAccess).run [] ({}, (Canvas.blank, [])) =
      .ok ({}, (Canvas.blank, [])) := rfl
  have hflow : ((flow none).behindIntercept Flow.State.access).run [] ({}, {}) = .ok ({}, {}) := rfl
  refine ⟨?_, ?_⟩
  · obtain ⟨t, s, hok, hhtml, -⟩ :=
      table_markup_eq scribe_writes rfl hscribe rfl hname [] tabular_codeInCell
        (codeInCell.shown_verbatim _).symm
    exact ⟨t, s, hok, hhtml.trans (by decide +kernel)⟩
  · obtain ⟨t, f, hok, hhtml, -⟩ :=
      table_markup_eq (flow_writes none) rfl hflow rfl hname [] tabular_codeInCell rfl
    exact ⟨(t, f), hok, hhtml.trans (by decide +kernel)⟩

/-- **Texts out of their places.** The markup of a table is not always its plain serialisation, for
instance where text stands before an element in a cell. -/
theorem not_table_markup_eq_serialise :
    ¬ ∀ inner : Content, inner.Tabular → inner.Clean → inner.loose = [] →
      ∀ (t : Intercept.State) (s : Canvas × List Event),
        (scribe.behindIntercept scribeAccess).runFrom 0
          (Content.element "table".toList [] inner .empty).events ({}, (Canvas.blank, [])) =
            .ok (t, s) →
        t.html = (Content.element "table".toList [] inner .empty).serialise := by
  intro h
  have hclean : codeInCell.Clean := ⟨⟨by decide, ⟨by decide, trivial⟩, trivial⟩, trivial⟩
  have hhtml := h codeInCell tabular_codeInCell hclean (by decide +kernel) _ _ rfl
  exact absurd hhtml (by decide +kernel)

end Consumer

end StyledText
