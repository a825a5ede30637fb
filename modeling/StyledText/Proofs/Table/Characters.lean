import StyledText.Proofs.Table.Before
import StyledText.Proofs.Table.Tokens

/-!
# The characters of a table

While a table is open its text moves from the canvas to the markup, piece by piece, and a piece may
begin before the table. Wherever the pieces are cut, no character gets lost on the way and none
comes twice: what there is on both sides together (`Desk.characters`) only gets more by the text
that is added, by the newlines of items (`Desk.newlineOf`) and by the tags that are recorded.

* `State.Closes.characters_perm` — closing an element in a table moves text and adds nothing;
* `Desk.Performs.count_characters` — one step inside a table;
* `Desk.exists_run_count_characters` — many of them;
* `Desk.table_keeps_characters` — a table from its start tag to its end.
-/

namespace StyledText

open Markup (Event Attributes)

namespace Intercept

namespace State

variable {n : Nat} {kind : MarkerKind} {isParagraph : Bool} {styles : List Style} {t t' : State}
  {c c' : Canvas} {tag : Tag} {attributes : Attributes}

/-- The text of a canvas and the markup of the table, one behind the other. -/
def characters (t : State) (c : Canvas) : Text := c.text ++ t.html

/-- The newline that the start tag of an element adds. -/
def startNewline (c : Canvas) : Tag → Text
  | .item => c.lineEnd
  | _ => []

/-- The newline that the end tag of an element in a table adds. -/
def endNewline (t : State) (c : Canvas) : Tag → Text
  | .item => if t.lists = [] then [] else c.lineEnd
  | _ => []

/-- A start tag adds no character but newlines, and only that of an item adds any. -/
theorem eq_of_mem_startNewline {x : Char} (h : x ∈ startNewline c tag) : x = '\n' := by
  cases tag with
  | item => exact Canvas.eq_of_mem_lineEnd h
  | _ => exact absurd h List.not_mem_nil

/-- An end tag inside a table adds no character of its own but newlines either. -/
theorem eq_of_mem_endNewline {x : Char} (h : x ∈ t.endNewline c tag) : x = '\n' := by
  cases tag with
  | item =>
    change x ∈ if t.lists = [] then [] else c.lineEnd at h
    split at h
    · exact absurd h List.not_mem_nil
    · exact Canvas.eq_of_mem_lineEnd h
  | _ => exact absurd h List.not_mem_nil

/-- The characters are counted on both sides, in the text and in the markup. -/
theorem count_characters (x : Char) (t : State) (c : Canvas) :
    (t.characters c).count x = c.text.count x + t.html.count x :=
  List.count_append

/-- The end of a line adds its newline, if there is one, and leaves the other characters as many as
they were. -/
theorem count_newline (x : Char) (c : Canvas) :
    c.newline.text.count x = c.text.count x + c.lineEnd.count x := by
  rw [c.newline_eq_append_lineEnd, Buffer.text_append, List.count_append]

/-- **Text moves.** Closing an element in a table puts the text behind the mark at the end of the
markup. -/
theorem Closes.characters_perm (h : Closes n kind isParagraph styles t c t' c')
    (hpos : 0 < t.depth) : (t'.characters c').Perm (t.characters c) := by
  cases h with
  | nothing => exact .refl _
  | elsewhere => exact .refl _
  | @inside m a =>
    have htext : (Buffer.remove (c.cut a c.length) (.marker m)).text = c.text.take a := by
      simp [Buffer.cut, Buffer.length]
    have hmove : (c.text.take a ++ (t.html ++ c.text.drop a)).Perm
        (c.text.take a ++ (c.text.drop a ++ t.html)) :=
      List.perm_append_comm.append_left _
    rw [← List.append_assoc _ (c.text.drop a), List.take_append_drop] at hmove
    rw [characters, htext]
    exact hmove
  | outside _ _ hzero => omega

/-- Opening an element in a table adds a newline at most: that of an item. No text moves, and the
placeholder stands already. -/
theorem Opens.count_characters (h : Opens n attributes t c tag t' c') (hpos : 0 < t.depth)
    (x : Char) :
    (t'.characters c').count x = (t.characters c).count x + (startNewline c tag).count x := by
  have hline (t' : State) (hhtml : t'.html = t.html) :
      (t'.characters c.newline).count x = (t.characters c).count x + c.lineEnd.count x := by
    rw [State.count_characters, count_newline, hhtml, State.count_characters]
    omega
  cases h with
  | list kind => cases kind <;> rfl
  | looseItem => exact hline t rfl
  | bullet => exact hline _ rfl
  | number => exact hline _ rfl
  | root hzero => omega
  | _ => rfl

/-- While the table stays open, closing an element adds a newline at most; the text that is cut off
is found again at the end of the markup. -/
theorem Shuts.count_characters (h : Shuts n t c tag t' c') (hpos' : 0 < t'.depth) (x : Char) :
    (t'.characters c').count x = (t.characters c).count x + (t.endNewline c tag).count x := by
  have hmoved {kind isParagraph styles} {u : State} {c : Canvas}
      (h : Closes n kind isParagraph styles u c t' c') :
      (t'.characters c').count x = (u.characters c).count x :=
    (h.characters_perm (h.frame.2.2.1 ▸ hpos')).count_eq x
  cases h with
  | list kind => rw [characters, html_closeList]; rfl
  | strayItem hl => simp [endNewline, hl]
  | strayTable => rfl
  | item hl h =>
    rw [hmoved h, endNewline, if_neg (by simp [hl]), State.count_characters, count_newline,
      State.count_characters]
    omega
  | link h => exact hmoved h
  | bare h => exact hmoved h
  | root _ ht₀ h =>
    rw [h.frame.2.2.1, depth_countClick, ht₀] at hpos'
    exact absurd hpos' (Nat.lt_irrefl 0)
  | inner _ h => exact (hmoved h :)

/-- A recorded tag adds its own text to the characters, behind all the markup that is there. -/
theorem count_characters_record (hpos : 0 < t.depth) (text : Text) (c : Canvas) (x : Char) :
    ((t.record text).characters c).count x = (t.characters c).count x + text.count x := by
  rw [count_characters, html_record hpos, count_characters, List.count_append]
  omega

end State

/-! ## Steps inside a table -/

namespace Action

/-- The text that an action adds by itself. -/
def written : Action → Text
  | write text => text
  | _ => []

/-- Only a deletion may fail to fit; all other actions fit every canvas. -/
theorem fits_of_not_isDelete {a : Action} (h : ¬ a.IsDelete) (c : Canvas) : a.Fits c := by
  cases a with
  | delete => exact absurd trivial h
  | _ => trivial

end Action

namespace Desk

variable {n : Nat} {a : Action} {d d' : Desk Unit} {steps : List (Unit × Action)}

/-- The recorded tags of many steps are those of the first step, if it has one, and then those of
the others. -/
theorem tagTexts_cons {ι : Type} (i : ι) (a : Action) (steps : List (ι × Action)) :
    tagTexts ((i, a) :: steps) = a.tagText?.toList ++ tagTexts steps := by
  cases h : a.tagText? <;> simp [tagTexts, h]

/-- All the text that steps add by themselves. -/
def writtenText (steps : List (Unit × Action)) : Text := steps.flatMap (·.2.written)

/-- The written text of many steps is that of the first one, followed by the text of the others. -/
theorem writtenText_cons (i : Unit) (a : Action) (steps : List (Unit × Action)) :
    writtenText ((i, a) :: steps) = a.written ++ writtenText steps :=
  List.flatMap_cons

/-- The text of the canvas and the markup of the table, one behind the other. -/
def characters (d : Desk Unit) : Text := d.tags.characters (d.canvas ())

/-- The newline that an action adds inside a table. -/
def newlineOf (d : Desk Unit) : Action → Text
  | .offer (.startElement name _) =>
    ((Tag.ofName? name).map (State.startNewline (d.canvas ()))).getD []
  | .offer (.endElement name) =>
    ((Tag.ofName? name).map (d.tags.endNewline (d.canvas ()))).getD []
  | _ => []

/-- The newlines that steps add inside a table, the first of which has number `n`. -/
def newlines : Nat → List (Unit × Action) → Desk Unit → Text
  | _, [], _ => []
  | n, (i, a) :: steps, d =>
    d.newlineOf a ++ ((d.perform n i a).toOption.map (newlines (n + 1) steps)).getD []

/-- The newlines of many steps are those of the first one and then those of the others, from the
desk behind the first one on. -/
theorem newlines_cons (h : d.perform n () a = .ok d') (steps : List (Unit × Action)) :
    d.newlines n (((), a) :: steps) = d.newlineOf a ++ d'.newlines (n + 1) steps := by
  rw [newlines, h]
  rfl

/-- **A step inside a table** loses no character, and adds what is written, the newline of an item
and the tag that is recorded. -/
theorem Performs.count_characters (h : Performs n () d a d') (ha : ¬ a.IsDelete)
    (hpos : 0 < d.tags.depth) (hpos' : 0 < d'.tags.depth) (x : Char) :
    d'.characters.count x = d.characters.count x + a.written.count x + (d.newlineOf a).count x +
      (a.tagText?.getD []).count x := by
  cases h with
  | @declined e hnone =>
    cases e with
    | startElement name attributes =>
      simp [Action.written, newlineOf, Action.tagText?, hnone name rfl]
    | endElement name => simp [Action.written, newlineOf, Action.tagText?, hnone name rfl]
    | _ => rfl
  | @startTag _ _ tag t c htag hopens =>
    -- recording leaves the depth, so the table is open before the tag is recorded
    have hpos₁ : 0 < t.depth := by rwa [← State.depth_record tag.startText]
    rw [characters, canvas_put_self, State.count_characters_record hpos₁, hopens.count_characters hpos]
    simp [characters, Action.written, newlineOf, Action.tagText?, htag]
  | @endTag _ tag t c htag hshuts =>
    have hpos₁ : 0 < t.depth := by rwa [← State.depth_record tag.endText]
    rw [characters, canvas_put_self, State.count_characters_record hpos₁,
      hshuts.count_characters hpos₁]
    simp [characters, Action.written, newlineOf, Action.tagText?, htag]
  | write text =>
    rw [characters, canvas_put_self, tags_put, State.count_characters, Buffer.text_append,
      List.count_append, characters, State.count_characters]
    simp [Action.written, newlineOf, Action.tagText?]
    omega
  | delete => exact absurd trivial ha

/-! ## Along the steps inside a table -/

/-- **Many steps inside a table.** None of them fails, and the characters add up: those from before,
the written text, the newlines of items and the recorded tags. By induction over the steps, each of
which begins and ends inside the table. -/
theorem exists_run_count_characters (hd : d.Sound n) (hsteps : ∀ step ∈ steps, ¬ step.2.IsDelete)
    (hopen : ∀ d'', d.Passes n steps d'' → 0 < d''.tags.depth) :
    ∃ d', d.run n steps = .ok d' ∧ d'.Sound (n + steps.length) ∧
      ∀ x, d'.characters.count x = d.characters.count x + (writtenText steps).count x +
        (d.newlines n steps).count x + (tagTexts steps).flatten.count x := by
  induction steps generalizing n d with
  | nil => exact ⟨d, rfl, hd, fun _ => rfl⟩
  | cons step steps ih =>
    obtain ⟨i, a⟩ := step
    have ha : ¬ a.IsDelete := hsteps _ (List.mem_cons_self ..)
    obtain ⟨d₁, hok, hperforms⟩ :=
      exists_perform (i := i) hd (Action.fits_of_not_isDelete ha (d.canvas i))
    have hpass {d''} (h : d₁.Passes (n + 1) steps d'') : d.Passes n (((), a) :: steps) d'' :=
      (passes_cons_iff hok).mpr (.inr h)
    -- the table is open before the step and behind it, as both desks are passed
    have hpos : 0 < d.tags.depth := hopen d ⟨[], List.nil_prefix, rfl⟩
    have hpos₁ : 0 < d₁.tags.depth := hopen d₁ (hpass ⟨[], List.nil_prefix, rfl⟩)
    obtain ⟨d', hrun, hsound, hcount⟩ := ih (hd.perform hperforms)
      (fun step hstep => hsteps step (List.mem_cons_of_mem _ hstep))
      (fun d'' h => hopen d'' (hpass h))
    refine ⟨d', by rw [run_cons_of_ok hok, hrun], ?_, fun x => ?_⟩
    · rwa [Nat.add_assoc, Nat.add_comm 1] at hsound
    · have hfirst := hperforms.count_characters ha hpos hpos₁ x
      have htag : (a.tagText?.toList).flatten = a.tagText?.getD [] := by
        cases a.tagText? <;> simp
      rw [hcount, hfirst, newlines_cons hok, tagTexts_cons, writtenText_cons, List.flatten_append,
        htag, List.count_append, List.count_append, List.count_append]
      omega

/-- Whatever the desk, the characters that an action adds for items are newlines. -/
theorem eq_of_mem_newlineOf {x : Char} (h : x ∈ d.newlineOf a) : x = '\n' := by
  unfold newlineOf at h
  split at h
  next name _ =>
    cases htag : Tag.ofName? name with
    | none => simp [htag] at h
    | some tag => exact State.eq_of_mem_startNewline (by simpa [htag] using h)
  next name =>
    cases htag : Tag.ofName? name with
    | none => simp [htag] at h
    | some tag => exact State.eq_of_mem_endNewline (by simpa [htag] using h)
  next => exact absurd h List.not_mem_nil

/-- So are those that many steps add, at each desk on the way. -/
theorem eq_of_mem_newlines {x : Char} (h : x ∈ d.newlines n steps) : x = '\n' := by
  induction steps generalizing n d with
  | nil => exact absurd h List.not_mem_nil
  | cons step steps ih =>
    obtain ⟨i, a⟩ := step
    rcases List.mem_append.mp h with h | h
    · exact eq_of_mem_newlineOf h
    · rcases hok : d.perform n i a with f | d₁
      · rw [hok] at h
        exact absurd h List.not_mem_nil
      · rw [hok] at h
        exact ih h

/-! ## A whole table -/

/-- **A table keeps its characters.** Whatever comes before it and whatever tags and texts come
inside it, in whatever order: from the start tag of an outermost table on, while this is open, no
step fails, and the text and the markup together have the characters of the text before the table,
those of the placeholder, of all that is added as text, of the newlines of items and of the tags
that are recorded, each as many times. Where one table is open its end tag closes it, and adds
itself to these. -/
theorem table_keeps_characters (setup : Setup) (indent : Option Nat)
    {before inside : List (Unit × Action)} {d₀ : Desk Unit} {name : Text}
    (hbefore : (fresh setup indent).run 0 before = .ok d₀) (hdepth : d₀.tags.depth = 0)
    (hname : Tag.ofName? name = some .table) (attributes : Attributes)
    (hinside : ∀ step ∈ inside, ¬ step.2.IsDelete) :
    ∃ d₁, d₀.perform before.length () (.offer (.startElement name attributes)) = .ok d₁ ∧
      ((∀ d', d₁.Passes (before.length + 1) inside d' → 0 < d'.tags.depth) →
        (∀ x ∈ d₁.newlines (before.length + 1) inside, x = '\n') ∧
        ∃ d, d₁.run (before.length + 1) inside = .ok d ∧
          ((d.canvas ()).text ++ d.tags.html).Perm
            ((d₀.canvas ()).text ++ placeholder ++ writtenText inside ++
              d₁.newlines (before.length + 1) inside ++
              (Tag.table.startText :: tagTexts inside).flatten) ∧
          (d.tags.depth = 1 → ∀ endName, Tag.ofName? endName = some .table →
            ∃ d', d.perform (before.length + 1 + inside.length) ()
                (.offer (.endElement endName)) = .ok d' ∧ d'.tags.depth = 0 ∧
              ((d'.canvas ()).text ++ d'.tags.html).Perm
                ((d₀.canvas ()).text ++ placeholder ++ writtenText inside ++
                  d₁.newlines (before.length + 1) inside ++
                  (Tag.table.startText :: tagTexts inside).flatten ++ Tag.table.endText))) := by
  obtain ⟨hs₀, -⟩ := sound_kept_of_run hbefore
  obtain ⟨d₁, hstart, hperforms⟩ :=
    exists_perform (i := ()) (a := .offer (.startElement name attributes)) hs₀ trivial
  refine ⟨d₁, hstart, fun hopen => ⟨fun x => eq_of_mem_newlines, ?_⟩⟩
  obtain ⟨htags, hcanvas⟩ := eq_of_perform_root hs₀ hdepth hname hstart
  -- behind the start tag of the table there are the placeholder and that tag
  have hfirst : d₁.characters = (d₀.canvas ()).text ++ placeholder ++ Tag.table.startText := by
    rw [characters, htags, hcanvas]
    rfl
  obtain ⟨d, hrun, hs, hcount⟩ :=
    exists_run_count_characters (hs₀.perform hperforms) hinside hopen
  have hperm : d.characters.Perm ((d₀.canvas ()).text ++ placeholder ++ writtenText inside ++
      d₁.newlines (before.length + 1) inside ++
      (Tag.table.startText :: tagTexts inside).flatten) := by
    refine List.perm_iff_count.mpr fun x => ?_
    rw [hcount, hfirst]
    simp only [List.count_append, List.flatten_cons]
    omega
  refine ⟨d, hrun, hperm, ?_⟩
  intro hone endName hendName
  obtain ⟨d', hend, hperforms'⟩ :=
    exists_perform (i := ()) (a := .offer (.endElement endName)) hs trivial
  have htext := text_of_perform_root hs hone hendName hend
  refine ⟨d', hend, ?_⟩
  obtain ⟨t, c, hshuts, rfl⟩ := hperforms'.exists_shuts hendName
  obtain ⟨hzero, hhtml, -⟩ := hshuts.root_spec (hs.canvas ()) hone
  rw [State.record_of_depth_eq_zero hzero] at htext ⊢
  refine ⟨hzero, ?_⟩
  rw [htext]
  change ((d.canvas ()).text ++ t.html).Perm _
  rw [hhtml, ← List.append_assoc]
  exact hperm.append_right _

/-- Text and a code element that is left open. -/
def codeSteps : List (Unit × Action) :=
  [((), .write "a".toList), ((), .offer (.startElement "code".toList [])), ((), .write "b".toList)]

/-- An item and the end of the code element, which takes text from before the table along. -/
def codeEndSteps : List (Unit × Action) :=
  [((), .offer (.startElement Markup.Renamed.listItem.reserved [])), ((), .write "c".toList),
    ((), .offer (.endElement "code".toList))]

/-- Here a code element begins before the table and ends inside it, and so its text and the
placeholder move into the markup; still no character is lost. -/
theorem table_keeps_characters_codeEnd :
    ∃ d₀ d₁ d d' : Desk Unit, (fresh {} none).run 0 codeSteps = .ok d₀ ∧
      d₀.perform 3 () (.offer (.startElement "table".toList [])) = .ok d₁ ∧
      d₁.run 4 codeEndSteps = .ok d ∧
      d.perform 7 () (.offer (.endElement "table".toList)) = .ok d' ∧
      (d'.canvas ()).text = "a".toList ∧
      d'.tags.html = "<table><li>btable placeholder\nc</code></table>".toList ∧
      d₁.newlines 4 codeEndSteps = ['\n'] ∧
      ((d'.canvas ()).text ++ d'.tags.html).Perm
        ("ab".toList ++ placeholder ++ "c".toList ++ ['\n'] ++
          "<table><li></code></table>".toList) := by
  obtain ⟨d₀, e₁, e₂, e₃, e, e', hbefore, hstart, hitem, htext, hcode, hend, hdepth₀, hdepths,
      hnewlines, htext₀, htext', hhtml'⟩ : ∃ d₀ e₁ e₂ e₃ e e' : Desk Unit,
      (fresh {} none).run 0 codeSteps = .ok d₀ ∧
      d₀.perform 3 () (.offer (.startElement "table".toList [])) = .ok e₁ ∧
      e₁.perform 4 () (.offer (.startElement Markup.Renamed.listItem.reserved [])) = .ok e₂ ∧
      e₂.perform 5 () (.write "c".toList) = .ok e₃ ∧
      e₃.perform 6 () (.offer (.endElement "code".toList)) = .ok e ∧
      e.perform 7 () (.offer (.endElement "table".toList)) = .ok e' ∧ d₀.tags.depth = 0 ∧
      (e₁.tags.depth = 1 ∧ e₂.tags.depth = 1 ∧ e₃.tags.depth = 1 ∧ e.tags.depth = 1) ∧
      e₁.newlines 4 codeEndSteps = ['\n'] ∧ (d₀.canvas ()).text = "ab".toList ∧
      (e'.canvas ()).text = "a".toList ∧
      e'.tags.html = "<table><li>btable placeholder\nc</code></table>".toList :=
    ⟨_, _, _, _, _, _, rfl, rfl, rfl, rfl, rfl, rfl, rfl, ⟨rfl, rfl, rfl, rfl⟩, by decide +kernel,
      by decide +kernel, by decide +kernel, by decide +kernel⟩
  obtain ⟨d₁, hstart₁, hinside⟩ := table_keeps_characters {} none hbefore hdepth₀
    (show Tag.ofName? "table".toList = some .table by decide +kernel) []
    (show ∀ step ∈ codeEndSteps, ¬ step.2.IsDelete by simp [codeEndSteps, Action.IsDelete])
  cases hstart.symm.trans hstart₁
  have hopen : ∀ d', e₁.Passes 4 codeEndSteps d' → 0 < d'.tags.depth := by
    intro d' hpass
    rcases (passes_cons_iff hitem).mp hpass with rfl | hpass
    · omega
    rcases (passes_cons_iff htext).mp hpass with rfl | hpass
    · omega
    rcases (passes_cons_iff hcode).mp hpass with rfl | hpass
    · omega
    · rw [passes_nil_iff.mp hpass]
      omega
  have hrun : e₁.run 4 codeEndSteps = .ok e := by
    rw [codeEndSteps, run_cons_of_ok hitem, run_cons_of_ok htext, run_cons_of_ok hcode]
    rfl
  obtain ⟨-, d, hrun', -, hclose⟩ := hinside hopen
  cases hrun.symm.trans hrun'
  obtain ⟨d', hend', -, hperm⟩ := hclose hdepths.2.2.2 "table".toList (by decide +kernel)
  cases hend.symm.trans hend'
  have htags : (Tag.table.startText :: tagTexts codeEndSteps).flatten ++ Tag.table.endText =
      "<table><li></code></table>".toList := by decide +kernel
  rw [List.append_assoc _ _ Tag.table.endText, htags, htext₀, show codeSteps.length + 1 = 4 from rfl,
    hnewlines] at hperm
  exact ⟨d₀, e₁, e, e', hbefore, hstart, hrun, hend, htext', hhtml', hnewlines, hperm⟩

end Desk

end Intercept

end StyledText
