import StyledText.Proofs.Flow.Text
import StyledText.Proofs.Table.Serialise
import StyledText.Proofs.Table.Tokens

/-!
# The tags that a table records

A tag inside a table is recorded when the interceptor has handled it. What the interceptor declines
goes on to the running text, and no one records that. So of all the tags between the start and the
end of an outermost table, matching or not, the markup has those that are intercepted, in their
order, with text that has been taken out of the canvas between them (`Text.Woven`). It has a tag for
every event just where every tag is one that is intercepted.
-/

namespace StyledText

open Markup (Event Attributes)

/-! ## Texts in a text -/

namespace Text

/-- `s` is made of the texts `ws` in their order, with text that has `p` before each of them. -/
inductive Woven (p : Text → Prop) : List Text → Text → Prop
  | nil : Woven p [] []
  | concat {ws : List Text} {s x : Text} (h : Woven p ws s) (hx : p x) (w : Text) :
      Woven p (ws ++ [w]) (s ++ x ++ w)

variable {p q : Text → Prop} {ws : List Text} {s : Text}

/-- Less can be asked of the text in between. -/
theorem Woven.mono (h : Woven p ws s) (hpq : ∀ x, p x → q x) : Woven q ws s := by
  induction h with
  | nil => exact .nil
  | concat _ hx w ih => exact ih.concat (hpq _ hx) w

/-- A text behind all that is woven, with nothing in between. -/
theorem Woven.append (h : Woven p ws s) (hp : p []) (w : Text) : Woven p (ws ++ [w]) (s ++ w) := by
  have hconcat := h.concat hp w
  rwa [List.append_nil] at hconcat

/-- What is woven, followed by the like: runs that follow each other weave their tags together. -/
theorem Woven.append_woven {ws' : List Text} {s' : Text} (h : Woven p ws s) (h' : Woven p ws' s') :
    Woven p (ws ++ ws') (s ++ s') := by
  induction h' with
  | nil => rwa [List.append_nil, List.append_nil]
  | concat _ hx w ih =>
    have hconcat := ih.concat hx w
    rwa [← List.append_assoc, ← List.append_assoc, ← List.append_assoc]

/-- There is no text behind the last of the texts, so what is woven of none is empty. Text at the
end of a markup would be that of an element that is still open. -/
theorem Woven.eq_nil (h : Woven p [] s) : s = [] := by
  generalize hall : ([] : List Text) = all at h
  cases h with
  | nil => rfl
  | concat => exact absurd hall.symm (List.append_ne_nil_of_right_ne_nil _ (List.cons_ne_nil _ _))

/-- The first of the texts, with what comes before and behind it. Weaving adds at the end, and this
takes off at the start. -/
theorem Woven.exists_cons {w : Text} (h : Woven p (w :: ws) s) :
    ∃ x s', s = x ++ (w ++ s') ∧ p x ∧ Woven p ws s' := by
  generalize hall : w :: ws = all at h
  induction h generalizing ws with
  | nil => cases hall
  | @concat ws' s' x hs' hx v ih =>
    rcases ws' with _ | ⟨w', ws'⟩
    · cases hall
      exact ⟨x, [], by simp [hs'.eq_nil], hx, .nil⟩
    · obtain ⟨rfl, rfl⟩ := List.cons.inj hall
      obtain ⟨y, s'', rfl, hy, hwoven⟩ := ih rfl
      exact ⟨y, s'' ++ x ++ v, by simp, hy, hwoven.concat hx v⟩

/-- A character that is in none of the parts is not in the whole. -/
theorem Woven.notMem {a : Char} (h : Woven (fun x => a ∉ x) ws s) (hws : ∀ w ∈ ws, a ∉ w) :
    a ∉ s := by
  induction h with
  | nil => exact List.not_mem_nil
  | concat _ hx w ih =>
    have hs := ih fun w' hw' => hws w' (List.mem_append_left _ hw')
    exact List.not_mem_append (List.not_mem_append hs hx) (hws w (by simp))

/-- Where each text begins a tag, there are as many beginnings at least. So a markup with fewer of
them cannot have all of the texts. -/
theorem Woven.length_le_count (h : Woven p ws s) (hws : ∀ w ∈ ws, 0 < w.count '<') :
    ws.length ≤ s.count '<' := by
  induction h with
  | nil => exact Nat.le_refl 0
  | @concat ws s x _ _ w ih =>
    have hle := ih fun w' hw' => hws w' (List.mem_append_left _ hw')
    have hpos := hws w (by simp)
    rw [List.length_append, List.length_singleton, List.count_append, List.count_append]
    omega

/-- Where each text begins one tag and none begins between them, there are as many beginnings: the
texts can be counted in the whole. -/
theorem Woven.count_eq (h : Woven (fun x => '<' ∉ x) ws s) (hws : ∀ w ∈ ws, w.count '<' = 1) :
    s.count '<' = ws.length := by
  induction h with
  | nil => rfl
  | @concat ws s x _ hx w ih =>
    rw [List.count_append, List.count_append, ih fun w' hw' => hws w' (List.mem_append_left _ hw'),
      List.count_eq_zero_of_not_mem hx, hws w (by simp), List.length_append, List.length_singleton]

/-- Tokens with text between them that begins none can be read off again, in their order and with
none besides. -/
theorem Woven.tokens_eq (h : Woven (fun x => '<' ∉ x) ws s) (hws : ∀ w ∈ ws, IsToken w) :
    s.Whole ∧ s.tokens = ws := by
  induction h with
  | nil => exact ⟨fun _ => rfl, rfl⟩
  | @concat ws s x _ hx w ih =>
    obtain ⟨hwhole, htokens⟩ := ih fun w' hw' => hws w' (List.mem_append_left _ hw')
    have hw := hws w (by simp)
    refine ⟨hwhole.append hx hw, ?_⟩
    rw [hwhole.tokens_append hx hw, htokens]

end Text

/-! ## The text of a tag -/

namespace Markup.Event

/-- The text of the tag that an event is, without attributes and in lower case; a reserved name
stands for the name that it has replaced. -/
def tagText? : Event → Option Text
  | startElement name _ =>
    some (((Intercept.Tag.ofName? name).map (·.startText)).getD ('<' :: name.lower ++ ['>']))
  | endElement name =>
    some (((Intercept.Tag.ofName? name).map (·.endText)).getD ('<' :: '/' :: name.lower ++ ['>']))
  | _ => none

/-- The same for the tags that are intercepted, and nothing for the others. -/
def handledText? (e : Event) : Option Text := (Intercept.Action.offer e).tagText?

variable {e : Event} {w : Text}

/-- A tag that is intercepted has the text that it would be written down with. -/
theorem tagText?_of_handledText? (h : e.handledText? = some w) : e.tagText? = some w := by
  cases e with
  | startElement name attributes =>
    obtain ⟨tag, htag, rfl⟩ := Option.map_eq_some_iff.mp h
    simp [tagText?, htag]
  | endElement name =>
    obtain ⟨tag, htag, rfl⟩ := Option.map_eq_some_iff.mp h
    simp [tagText?, htag]
  | _ => cases h

/-- The tags that are intercepted are told by their names, for start tags as for end tags. -/
theorem isSome_handledText?_iff :
    e.handledText?.isSome ↔ ∃ name, e.name? = some name ∧ (Intercept.Tag.ofName? name).isSome := by
  cases e <;> simp [handledText?, Intercept.Action.tagText?, name?]

/-- And tags at all are told by having a name. -/
theorem isSome_tagText?_iff : e.tagText?.isSome ↔ ∃ name, e.name? = some name := by
  cases e <;> simp [tagText?, name?]

/-- If a tag is intercepted, or if there is none, there is nothing else to write down. -/
theorem tagText?_eq_handledText?
    (h : ∀ name, e.name? = some name → (Intercept.Tag.ofName? name).isSome) :
    e.tagText? = e.handledText? := by
  rcases hhandled : e.handledText? with _ | w
  · rw [← Option.not_isSome_iff_eq_none, isSome_tagText?_iff]
    rintro ⟨name, hname⟩
    have hsome := isSome_handledText?_iff.mpr ⟨name, hname, h name hname⟩
    rw [hhandled] at hsome
    cases hsome
  · exact tagText?_of_handledText? hhandled

/-- What is written down for a tag is a single token. -/
theorem isToken_of_handledText? (h : e.handledText? = some w) : w.IsToken := by
  cases e with
  | startElement name attributes =>
    obtain ⟨tag, -, rfl⟩ := Option.map_eq_some_iff.mp h
    exact tag.isToken_startText
  | endElement name =>
    obtain ⟨tag, -, rfl⟩ := Option.map_eq_some_iff.mp h
    exact tag.isToken_endText
  | _ => cases h

/-- A tag that is intercepted begins once. -/
theorem count_of_handledText? (h : e.handledText? = some w) : w.count '<' = 1 := by
  cases e with
  | startElement name attributes =>
    obtain ⟨tag, htag, rfl⟩ := Option.map_eq_some_iff.mp h
    have hcount := Content.count_startText htag
    rwa [Content.startText, htag] at hcount
  | endElement name =>
    obtain ⟨tag, htag, rfl⟩ := Option.map_eq_some_iff.mp h
    have hcount := Content.count_endText htag
    rwa [Content.endText, htag] at hcount
  | _ => cases h

/-- Any tag begins at least once: its name may have a bracket in it, since events can have any
names. -/
theorem count_pos_of_tagText? (h : e.tagText? = some w) : 0 < w.count '<' := by
  rcases hhandled : e.handledText? with _ | w'
  · rw [List.count_pos_iff]
    cases e with
    | startElement name attributes =>
      have hnone := Option.map_eq_none_iff.mp hhandled
      simp only [tagText?, hnone, Option.some.injEq] at h
      rw [← h]
      exact List.mem_cons_self ..
    | endElement name =>
      have hnone := Option.map_eq_none_iff.mp hhandled
      simp only [tagText?, hnone, Option.some.injEq] at h
      rw [← h]
      exact List.mem_cons_self ..
    | _ => cases h
  · cases (tagText?_of_handledText? hhandled).symm.trans h
    rw [count_of_handledText? hhandled]
    exact Nat.one_pos

end Markup.Event

/-- The tags of a table around some others. -/
def Intercept.tableTags (ws : List Text) : List Text :=
  Tag.table.startText :: ws ++ [Tag.table.endText]

/-- What holds of the tags of a table and of those of the events between them holds of all that is
written down. -/
theorem Intercept.forall_mem_tableTags {events : List Event} {text? : Event → Option Text}
    {p : Text → Prop} (hstart : p Tag.table.startText) (hend : p Tag.table.endText)
    (htext : ∀ {e : Event} {w : Text}, text? e = some w → p w) :
    ∀ w ∈ tableTags (events.filterMap text?), p w := by
  intro w hw
  rcases List.mem_append.mp hw with hw | hw
  · rcases List.mem_cons.mp hw with rfl | hw
    · exact hstart
    · obtain ⟨e, -, he⟩ := List.mem_filterMap.mp hw
      exact htext he
  · exact List.mem_singleton.mp hw ▸ hend

/-- Something that holds only where another does, and as often, holds wherever the other does. With
the number of tags this turns a count into a statement on each of them. -/
theorem imp_of_countP_le {α : Type} {p q : α → Bool} (hpq : ∀ a, p a = true → q a = true)
    {l : List α} (h : l.countP q ≤ l.countP p) : ∀ a ∈ l, q a = true → p a = true := by
  induction l with
  | nil => exact fun _ ha => absurd ha List.not_mem_nil
  | cons b l ih =>
    have hle : l.countP p ≤ l.countP q := List.countP_mono_left fun a _ => hpq a
    rw [List.countP_cons, List.countP_cons] at h
    intro a ha hq
    rcases List.mem_cons.mp ha with rfl | ha
    · by_contra hp
      rw [if_pos hq, if_neg hp] at h
      omega
    · refine ih ?_ a ha hq
      by_cases hp : p b = true
      · rw [if_pos hp, if_pos (hpq b hp)] at h
        omega
      · rw [if_neg hp] at h
        omega

/-- The tags of a table around tags that are intercepted can be read off again. -/
theorem tokens_of_woven {events : List Event} {html : Text} (h : Text.Woven (fun x => '<' ∉ x)
      (Intercept.tableTags (events.filterMap (·.handledText?))) html) :
    html.tokens = Intercept.tableTags (events.filterMap (·.handledText?)) :=
  (h.tokens_eq (Intercept.forall_mem_tableTags Intercept.Tag.table.isToken_startText
    Intercept.Tag.table.isToken_endText Event.isToken_of_handledText?)).2

/-- Where no other tag begins in the markup, it has all tags if and only if all are intercepted. One
way is plain; the other counts the brackets. -/
theorem woven_tagText?_iff {events : List Event} {html : Text} (h : Text.Woven (fun x => '<' ∉ x)
      (Intercept.tableTags (events.filterMap (·.handledText?))) html) :
    Text.Woven (fun _ => True) (Intercept.tableTags (events.filterMap (·.tagText?))) html ↔
      ∀ e ∈ events, ∀ name, e.name? = some name → (Intercept.Tag.ofName? name).isSome := by
  constructor
  · intro hall
    have hle := hall.length_le_count
      (Intercept.forall_mem_tableTags (by decide) (by decide) Event.count_pos_of_tagText?)
    have hcount := h.count_eq
      (Intercept.forall_mem_tableTags (by decide) (by decide) Event.count_of_handledText?)
    -- where all tags are found, as many have been handled as there are, hence every one
    have hcountP : events.countP (·.tagText?.isSome) ≤ events.countP (·.handledText?.isSome) := by
      rw [hcount] at hle
      simp only [Intercept.tableTags, List.length_append, List.length_cons,
        List.length_filterMap_eq_countP] at hle
      omega
    intro e he name hname
    have hhandled := imp_of_countP_le (fun e he => by
      obtain ⟨w, hw⟩ := Option.isSome_iff_exists.mp he
      exact Option.isSome_iff_exists.mpr ⟨w, Event.tagText?_of_handledText? hw⟩) hcountP e he
      (Event.isSome_tagText?_iff.mpr ⟨name, hname⟩)
    obtain ⟨name', hname', htag⟩ := Event.isSome_handledText?_iff.mp hhandled
    cases hname.symm.trans hname'
    exact htag
  · intro hnames
    rw [List.filterMap_congr fun e he => Event.tagText?_eq_handledText? (hnames e he)]
    exact h.mono fun _ _ => trivial

/-! ## What an end tag adds -/

namespace Intercept.State

variable {n : Nat} {kind : MarkerKind} {isParagraph : Bool} {styles : List Style} {t t' : State}
  {c c' : Canvas} {tag : Tag}

/-- Closing adds the end of the text, if anything, and so nothing that has not been on the
canvas. -/
theorem Closes.exists_html (h : Closes n kind isParagraph styles t c t' c') :
    ∃ a, t'.html = t.html ++ c.text.drop a := by
  cases h with
  | inside => exact ⟨_, rfl⟩
  | _ => exact ⟨c.text.length, by rw [List.drop_length]; exact (List.append_nil _).symm⟩

/-- While the table stays open, an end tag adds no beginning of a tag that is not on the canvas. An
item may add the newline that has ended its line. -/
theorem Shuts.exists_html (h : Shuts n t c tag t' c') (hpos : 0 < t'.depth) :
    ∃ x : Text, t'.html = t.html ++ x ∧ ('<' ∉ c.text → '<' ∉ x) := by
  have hsame (he : t'.html = t.html) :
      ∃ x : Text, t'.html = t.html ++ x ∧ ('<' ∉ c.text → '<' ∉ x) :=
    ⟨[], by rw [he, List.append_nil], fun _ => List.not_mem_nil⟩
  -- closing writes the end of the text, be it of the canvas as it was or with its line ended
  have hcloses {u : State} {kind isParagraph styles} {e : Canvas}
      (h : Closes n kind isParagraph styles u e t' c') (hu : u.html = t.html)
      (he : '<' ∉ c.text → '<' ∉ e.text) :
      ∃ x : Text, t'.html = t.html ++ x ∧ ('<' ∉ c.text → '<' ∉ x) := by
    obtain ⟨a, ha⟩ := h.exists_html
    exact ⟨_, by rw [ha, hu], fun hc hx => he hc (List.mem_of_mem_drop hx)⟩
  cases h with
  | list kind => exact hsame (html_closeList t)
  | strayItem => exact hsame rfl
  | strayTable => exact hsame rfl
  | item hl h => exact hcloses h rfl notMem_newline
  | link h => exact hcloses h rfl id
  | bare h => exact hcloses h rfl id
  | root hdepth ht₀ h =>
    rw [h.frame.2.2.1, depth_countClick, ht₀] at hpos
    exact absurd hpos (Nat.lt_irrefl 0)
  | inner hdepth h => exact hcloses h rfl id

end Intercept.State

/-! ## What is left on a canvas of running text -/

namespace Flow

variable {c : Canvas}

/-- Collapsing brings in no character but the space, so no beginning of a tag comes from white
space. -/
theorem notMem_collapse {a : Char} (ha : a ≠ ' ') {t : Text} (ht : a ∉ t) (previous : Char) :
    a ∉ collapse previous t := by
  induction t generalizing previous with
  | nil => exact List.not_mem_nil
  | cons x t ih =>
    have hx := List.ne_of_not_mem_cons ht
    have ht := List.not_mem_of_not_mem_cons ht
    rw [collapse]
    split
    · split
      · exact ih ht previous
      · exact List.not_mem_cons_of_ne_of_not_mem ha (ih ht ' ')
    · exact List.not_mem_cons_of_ne_of_not_mem hx (ih ht x)

/-- A blank line brings in newlines only. -/
theorem notMem_blankLine (hc : '<' ∉ c.text) : '<' ∉ (blankLine c).text := by
  rw [blankLine]
  split
  · exact hc
  · exact hc
  · exact List.not_mem_append hc (by decide)
  · exact List.not_mem_append hc (by decide)

/-- So does the room before an element of running text, and the same goes for that behind it. -/
theorem Tag.notMem_before (tag : Tag) (hc : '<' ∉ c.text) : '<' ∉ (tag.before c).text := by
  cases tag with
  | item => exact Intercept.State.notMem_newline hc
  | block => exact notMem_blankLine hc
  | quote => exact notMem_blankLine hc
  | heading level => exact notMem_blankLine hc
  | _ => exact hc

theorem Tag.notMem_after (tag : Tag) (hc : '<' ∉ c.text) : '<' ∉ (tag.after c).text := by
  unfold after
  split
  · exact List.not_mem_append hc (by decide)
  · exact notMem_before _ hc

end Flow

namespace Draft

variable {lookup? : Option Image.Lookup} {n : Nat} {d d' d₁ d₂ : Draft} {e : Event}

/-- Only character data brings the character that begins a tag. Images come with a character of
their own, and all else adds newlines. -/
theorem notMem_receive (hd : d.Sound n) (hok : (intercepted lookup?).receive n e d = .ok d')
    (he : ∀ t, e = .characters t → '<' ∉ t) (hc : '<' ∉ d.canvas.text) : '<' ∉ d'.canvas.text := by
  cases receives_of_receive hd hok with
  | startTag htag hopens => exact hopens.notMem_text hc
  | endTag htag hshuts => exact hshuts.notMem_text hc
  | @declined _ f hnone hf =>
    change '<' ∉ f.canvas.text
    cases Flow.State.receives_of_receive hf with
    | @startTag _ _ tag _ _ hstart =>
      rw [Flow.State.text_startTag hd.canvas hstart]
      split
      · exact List.not_mem_append hc (by decide)
      · exact tag.notMem_before hc
    | @endTag _ tag _ _ hend =>
      rw [Flow.State.text_endTag hd.canvas hend]
      exact tag.notMem_after hc
    | characters t => exact List.not_mem_append hc (Flow.notMem_collapse (by decide) (he t rfl) _)
    | ignored => exact hc

/-- **An event inside a table** is recorded if it is a tag that is intercepted, behind text of the
canvas. Whether that text is clean is carried along as an option, so that one induction serves both
halves of the result. -/
theorem woven_receive {clean : Prop} {ws : List Text} (hd : d.Sound n)
    (hok : (intercepted lookup?).receive n e d = .ok d') (hpos : 0 < d.tags.depth)
    (hpos' : 0 < d'.tags.depth) (hc : clean → '<' ∉ d.canvas.text)
    (hw : Text.Woven (fun x => clean → '<' ∉ x) ws d.tags.html) :
    Text.Woven (fun x => clean → '<' ∉ x) (ws ++ e.handledText?.toList) d'.tags.html := by
  cases receives_of_receive hd hok with
  | declined hnone =>
    -- a declined event records nothing
    have hnot : e.handledText? = none := by
      rw [← Option.not_isSome_iff_eq_none, Event.isSome_handledText?_iff]
      rintro ⟨name, hname, htag⟩
      rw [hnone name hname] at htag
      cases htag
    rw [hnot, Option.toList_none, List.append_nil]
    exact hw
  | @startTag name attributes tag t _ htag hopens =>
    obtain ⟨hdepth, hhtml, -⟩ := hopens.html
    have hhandled : (Event.startElement name attributes).handledText? = some tag.startText :=
      congrArg (Option.map Intercept.Tag.startText) htag
    rw [hhandled]
    change Text.Woven _ _ (t.record _).html
    rw [Intercept.State.html_record (by omega), hhtml hpos]
    exact hw.append (fun _ => List.not_mem_nil) _
  | @endTag name tag t _ htag hshuts =>
    have hhandled : (Event.endElement name).handledText? = some tag.endText :=
      congrArg (Option.map Intercept.Tag.endText) htag
    -- closing puts text of the canvas behind the markup, and the end tag comes behind that
    change 0 < (t.record _).depth at hpos'
    rw [(Intercept.State.sameOpen_record _ _).depth] at hpos'
    obtain ⟨x, hhtml, hx⟩ := hshuts.exists_html hpos'
    rw [hhandled]
    change Text.Woven _ _ (t.record _).html
    rw [Intercept.State.html_record hpos', hhtml]
    exact hw.concat (fun h => hx (hc h)) _

/-! ## Along a run -/

/-- Whether a table is open before each of some events, the first of which has number `n`, and
behind the last. -/
def StaysInTable (lookup? : Option Image.Lookup) (n : Nat) (events : List Event) (d : Draft) :
    Prop :=
  ∀ (done : List Event) (d' : Draft), done <+: events →
    (intercepted lookup?).runFrom n done d = .ok d' → 0 < d'.tags.depth

section

variable {events : List Event}

/-- In particular a table is open before the first of the events. -/
theorem StaysInTable.depth_pos (h : StaysInTable lookup? n events d) : 0 < d.tags.depth :=
  h [] d List.nil_prefix rfl

/-- Behind the first event the others stay in the table. -/
theorem StaysInTable.tail (h : StaysInTable lookup? n (e :: events) d)
    (hok : (intercepted lookup?).receive n e d = .ok d') :
    StaysInTable lookup? (n + 1) events d' := fun done d'' hdone hrun =>
  h (e :: done) d'' (List.cons_prefix_cons.mpr ⟨rfl, hdone⟩)
    ((Consumer.runFrom_cons_of_ok hok done).trans hrun)

/-- No table begins or ends by other tags, so events without the name of a table stay in the one
that is open. -/
theorem staysInTable_of_ne_table (hd : d.Sound n) (hpos : 0 < d.tags.depth)
    (hnames : ∀ e ∈ events, ∀ name, e.name? = some name → name.lower ≠ "table".toList) :
    StaysInTable lookup? n events d := by
  intro done d' hdone hrun
  obtain ⟨d'', hok, -, hdepth⟩ := run_sound lookup? done hd
  cases hrun.symm.trans hok
  rwa [hdepth fun e he => hnames e (hdone.subset he)]

/-- **Events inside a table** are recorded in their order as far as they are tags that are
intercepted. The induction is on the events. -/
theorem woven_run {clean : Prop} {ws : List Text} (hd : d.Sound n)
    (hstays : StaysInTable lookup? n events d)
    (hclean : clean → ∀ t, Event.characters t ∈ events → '<' ∉ t)
    (hc : clean → '<' ∉ d.canvas.text) (hw : Text.Woven (fun x => clean → '<' ∉ x) ws d.tags.html)
    (hrun : (intercepted lookup?).runFrom n events d = .ok d') :
    Text.Woven (fun x => clean → '<' ∉ x) (ws ++ events.filterMap (·.handledText?))
      d'.tags.html := by
  induction events generalizing n d ws with
  | nil =>
    cases hrun
    rw [List.filterMap_nil, List.append_nil]
    exact hw
  | cons e events ih =>
    obtain ⟨d₁, hok, hd₁, -⟩ := receive_sound lookup? hd e
    rw [Consumer.runFrom_cons_of_ok hok] at hrun
    have hstays₁ := hstays.tail hok
    have hc₁ (h : clean) : '<' ∉ d₁.canvas.text := by
      refine notMem_receive hd hok ?_ (hc h)
      rintro t rfl
      exact hclean h t (List.mem_cons_self ..)
    have hrest := ih hd₁ hstays₁ (fun h t ht => hclean h t (List.mem_cons_of_mem _ ht)) hc₁
      (woven_receive hd hok hstays.depth_pos hstays₁.depth_pos hc hw) hrun
    rw [List.append_assoc] at hrest
    rcases hhandled : e.handledText? with _ | w
    · rw [List.filterMap_cons_none hhandled]
      rwa [hhandled] at hrest
    · rw [List.filterMap_cons_some hhandled]
      rwa [hhandled] at hrest

/-- The start tag of an outermost table begins the markup anew, and its own text is the first in
it. -/
theorem exists_startTable (lookup? : Option Image.Lookup) (hd : d.Sound n)
    (hdepth : d.tags.depth = 0) {name : Text} (hname : name.lower = "table".toList)
    (attributes : Attributes) :
    ∃ d₁ : Draft, (intercepted lookup?).receive n (.startElement name attributes) d = .ok d₁ ∧
      d₁.tags.html = Intercept.Tag.table.startText ∧
      d₁.canvas.text = d.canvas.text ++ Intercept.placeholder := by
  refine ⟨d.put (d.tags.beginTable n, Intercept.State.placeTable n d.canvas), ?_, rfl, rfl⟩
  rw [receive_startElement_of_ofName? (Intercept.ofName?_of_lower_eq_table hname),
    Intercept.State.startTag_root hd.canvas hdepth]
  rfl

/-- The end tag of an outermost table completes the markup, whatever has come before it: no text of
the canvas is added for it. -/
theorem exists_endTable (lookup? : Option Image.Lookup) (hd : d.Sound n)
    (hdepth : d.tags.depth = 1) {name : Text} (hname : name.lower = "table".toList) :
    ∃ d₁ : Draft, (intercepted lookup?).receive n (.endElement name) d = .ok d₁ ∧
      d₁.tags.depth = 0 ∧ d₁.tags.html = d.tags.html ++ Intercept.Tag.table.endText := by
  obtain ⟨d₁, hok, -⟩ := receive_sound lookup? hd (.endElement name)
  refine ⟨d₁, hok, ?_⟩
  have htable := Intercept.ofName?_of_lower_eq_table hname
  cases receives_of_receive hd hok with
  | declined hnone => cases (hnone name rfl).symm.trans htable
  | @endTag _ tag t c htag hshuts =>
    obtain rfl : tag = .table := Option.some.inj (htag.symm.trans htable)
    obtain ⟨hzero, hhtml, -⟩ := hshuts.root_spec hd.canvas hdepth
    change (t.record _).depth = 0 ∧ (t.record _).html = _
    rw [Intercept.State.record_of_depth_eq_zero hzero]
    exact ⟨hzero, hhtml⟩

end

/-- **The tags that a table records.** Whatever events come between the start and the end of an
outermost table, matching or not: the markup has the tags of the table and between them those that
are intercepted, in lower case and in their order, with text from the canvas between them. Where no
text holds the character that begins a tag they are all that can be read off the markup, so it has a
tag for every start and end of an element if and only if all these elements are intercepted. -/
theorem recorded_tags_of_table {lookup? : Option Image.Lookup} {n : Nat} {d : Draft}
    (hd : Reachable lookup? n d) (hdepth : d.tags.depth = 0) {name name' : Text}
    (hname : name.lower = "table".toList) (hname' : name'.lower = "table".toList)
    (attributes : Attributes) (events : List Event) :
    ∃ d₁ d₂ d₃ : Draft,
      (intercepted lookup?).receive n (.startElement name attributes) d = .ok d₁ ∧
      (intercepted lookup?).runFrom (n + 1) events d₁ = .ok d₂ ∧
      (intercepted lookup?).receive (n + 1 + events.length) (.endElement name') d₂ = .ok d₃ ∧
      (StaysInTable lookup? (n + 1) events d₁ → d₂.tags.depth = 1 →
        d₃.tags.depth = 0 ∧
        Text.Woven (fun _ => True) (Intercept.tableTags (events.filterMap (·.handledText?)))
          d₃.tags.html ∧
        ('<' ∉ d.canvas.text → (∀ t, Event.characters t ∈ events → '<' ∉ t) →
          d₃.tags.html.tokens = Intercept.tableTags (events.filterMap (·.handledText?)) ∧
          (Text.Woven (fun _ => True) (Intercept.tableTags (events.filterMap (·.tagText?)))
              d₃.tags.html ↔
            ∀ e ∈ events, ∀ name, e.name? = some name →
              (Intercept.Tag.ofName? name).isSome))) := by
  obtain ⟨d₁, hok₁, hhtml₁, htext₁⟩ := exists_startTable lookup? hd.sound hdepth hname attributes
  have hd₁ := (hd.event hok₁).sound
  obtain ⟨d₂, hrun, hd₂, -⟩ := run_sound lookup? events hd₁
  obtain ⟨d₃, hok₃, -⟩ := receive_sound lookup? hd₂ (.endElement name')
  refine ⟨d₁, d₂, d₃, hok₁, hrun, hok₃, fun hstays hone => ?_⟩
  obtain ⟨d₃', hok₃', hzero, hhtml₃⟩ := exists_endTable lookup? hd₂ hone hname'
  cases hok₃.symm.trans hok₃'
  -- both halves of the claim at once: without anything on the texts, and with all of them clean
  have hwoven (clean : Prop) (hclean : clean → ∀ t, Event.characters t ∈ events → '<' ∉ t)
      (hc : clean → '<' ∉ d.canvas.text) :
      Text.Woven (fun x => clean → '<' ∉ x)
        (Intercept.tableTags (events.filterMap (·.handledText?))) d₃.tags.html := by
    have hc₁ (h : clean) : '<' ∉ d₁.canvas.text := by
      rw [htext₁]
      exact List.not_mem_append (hc h) (by decide)
    have hstart : Text.Woven (fun x => clean → '<' ∉ x) [Intercept.Tag.table.startText]
        d₁.tags.html := by
      rw [hhtml₁]
      exact Text.Woven.nil.append (fun _ => List.not_mem_nil) _
    rw [hhtml₃]
    exact (woven_run hd₁ hstays hclean hc₁ hstart hrun).append (fun _ => List.not_mem_nil) _
  refine ⟨hzero, (hwoven False False.elim False.elim).mono fun _ _ => trivial, fun hc hclean => ?_⟩
  have h := (hwoven True (fun _ => hclean) fun _ => hc).mono fun x hx => hx trivial
  exact ⟨tokens_of_woven h, woven_tagText?_iff h⟩

/-- A cell with bold text in it. -/
def boldInCell : List Event :=
  [.startElement "TD".toList [], .startElement "b".toList [], .characters "x".toList,
    .endElement "b".toList, .endElement "td".toList]

theorem recorded_tags_of_table_boldInCell :
    ∃ d₁ d₂ d₃ : Draft,
      (intercepted none).receive 0 (.startElement "table".toList []) ({}, {}) = .ok d₁ ∧
      (intercepted none).runFrom 1 boldInCell d₁ = .ok d₂ ∧
      (intercepted none).receive 6 (.endElement "table".toList) d₂ = .ok d₃ ∧
      d₃.tags.html.tokens =
        ["<table>".toList, "<td>".toList, "</td>".toList, "</table>".toList] ∧
      ¬ Text.Woven (fun _ => True) (Intercept.tableTags (boldInCell.filterMap (·.tagText?)))
        d₃.tags.html := by
  have hname : Text.lower "table".toList = "table".toList := rfl
  have hstart : Reachable none 0 ({}, {}) := .start {}
  obtain ⟨d₁, d₂, d₃, hok₁, hok₂, hok₃, hrecorded⟩ :=
    recorded_tags_of_table hstart rfl hname hname [] boldInCell
  refine ⟨d₁, d₂, d₃, hok₁, hok₂, hok₃, ?_⟩
  have hd₁ : d₁.Sound 1 := (hstart.event hok₁).sound
  have hdepths : d₁.tags.depth = 1 ∧ d₂.tags.depth = 1 := by
    cases hok₁
    cases hok₂
    exact ⟨rfl, rfl⟩
  have hstays : StaysInTable none 1 boldInCell d₁ :=
    staysInTable_of_ne_table hd₁ (Nat.lt_of_lt_of_eq Nat.one_pos hdepths.1.symm)
      (by simp [boldInCell, Event.name?]; decide)
  obtain ⟨-, -, hclean⟩ := hrecorded hstays hdepths.2
  obtain ⟨htokens, hiff⟩ := hclean List.not_mem_nil (by simp [boldInCell])
  refine ⟨htokens, fun hall => ?_⟩
  have hbold := hiff.mp hall (.startElement "b".toList []) (by simp [boldInCell]) "b".toList rfl
  exact absurd hbold (by decide +kernel)

/-- **A table does not record every tag.** -/
theorem not_every_tag_recorded :
    ¬ ∀ (events : List Event) (d₁ d₂ d₃ : Draft), (∀ e ∈ events, e.isTag) →
      (intercepted none).receive 0 (.startElement "table".toList []) ({}, {}) = .ok d₁ →
      (intercepted none).runFrom 1 events d₁ = .ok d₂ → StaysInTable none 1 events d₁ →
      d₂.tags.depth = 1 →
      (intercepted none).receive (1 + events.length) (.endElement "table".toList) d₂ = .ok d₃ →
      Text.Woven (fun _ => True) (Intercept.tableTags (events.filterMap (·.tagText?)))
        d₃.tags.html := by
  intro h
  obtain ⟨d₁, d₂, d₃, hok₁, hok₂, hok₃, hdepth₁, hdepth₂, hhtml⟩ : ∃ d₁ d₂ d₃ : Draft,
      (intercepted none).receive 0 (.startElement "table".toList []) ({}, {}) = .ok d₁ ∧
      (intercepted none).runFrom 1 [.startElement "b".toList [], .endElement "b".toList] d₁ =
        .ok d₂ ∧
      (intercepted none).receive 3 (.endElement "table".toList) d₂ = .ok d₃ ∧
      d₁.tags.depth = 1 ∧ d₂.tags.depth = 1 ∧ d₃.tags.html = "<table></table>".toList :=
    ⟨_, _, _, rfl, rfl, rfl, rfl, rfl, by decide +kernel⟩
  have hd₁ : d₁.Sound 1 := ((Reachable.start {}).event hok₁).sound
  have hall := h _ d₁ d₂ d₃ (by decide) hok₁ hok₂
    (staysInTable_of_ne_table hd₁ (by omega) (by simp [Event.name?]; decide)) hdepth₂ hok₃
  -- four tags would begin four times
  rw [hhtml] at hall
  exact absurd (hall.length_le_count (by decide)) (by decide)

end Draft

end StyledText
