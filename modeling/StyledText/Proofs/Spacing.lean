import Mathlib.Data.List.Chain
import StyledText.Proofs.Flow.Text
import StyledText.Proofs.Formatted

/-!
# Spacing

The text of a document is written in a few ways: data, line breaks, ends of lines, blank lines,
images and the placeholders of tables; and what stands in a table is taken off again. Whatever comes
in which order, the text stays **spaced** (`Flow.Spaced`): all white space in it is newlines and
single spaces within a line.

* `Flow.Writes` — what can be written at once;
* `Draft.receive_writes` — an event writes some of it;
* `Flow.Writes.spaced`, `Draft.Reachable.spaced` — one step, and every draft.
-/

namespace StyledText

open Markup (Event)

namespace Flow

/-! ## Spaced texts -/

/-- Whether `b` can stand behind `a`: it is no white space, or a newline, or a space that neither
follows another one nor begins a line. -/
def Follows (a b : Char) : Prop := isSpace b → b = '\n' ∨ b = ' ' ∧ a ≠ ' ' ∧ a ≠ '\n'

instance : DecidableRel Follows := fun _ _ => inferInstanceAs (Decidable (_ → _))

/-- Whether every character of a text can stand behind the one before; the start of a text is like
the start of a line. -/
def Spaced (t : Text) : Prop := ('\n' :: t).IsChain Follows

variable {a b : Char} {s t : Text}

theorem follows_newline (a : Char) : Follows a '\n' := fun _ => .inl rfl

/-- What is no white space can stand behind every character. -/
theorem follows_of_not_isSpace (h : isSpace b = false) : Follows a b :=
  fun hb => absurd hb (by simp [h])

theorem spaced_nil : Spaced [] := List.isChain_singleton _

/-- What is added to a text has to follow its last character, or to be like the start of a line if
there is none. -/
theorem spaced_append_iff :
    Spaced (s ++ t) ↔ Spaced s ∧ (lastOf s :: t).IsChain Follows := by
  have hlast : ('\n' :: s).getLast? = some (lastOf s) := by
    rw [lastOf, List.getLast?_cons, List.getLastD_eq_getLast?]
  rw [Spaced, ← List.cons_append, List.isChain_append, hlast, Spaced, List.isChain_cons (l := t)]
  simp [and_comm]

theorem Spaced.append_isChain (hs : Spaced s) (h : (lastOf s :: t).IsChain Follows) :
    Spaced (s ++ t) :=
  spaced_append_iff.mpr ⟨hs, h⟩

/-- A text stays spaced when its end is taken off, since each character depends on those before it
alone. -/
theorem Spaced.of_prefix (ht : Spaced t) (h : s <+: t) : Spaced s := by
  obtain ⟨r, rfl⟩ := h
  exact (spaced_append_iff.mp ht).1

/-- Collapsed data follows the character that it is collapsed behind: a space is only kept where
this is neither a space nor a newline. -/
theorem isChain_collapse (previous : Char) (t : Text) :
    (previous :: collapse previous t).IsChain Follows := by
  fun_induction collapse previous t with
  | case1 previous => exact List.isChain_singleton previous
  | case2 previous c t hc hprevious ih => exact ih
  | case3 previous c t hc hprevious ih =>
    rw [not_or] at hprevious
    exact List.isChain_cons_cons.mpr ⟨fun _ => .inr ⟨rfl, hprevious⟩, ih⟩
  | case4 previous c t hc ih =>
    exact List.isChain_cons_cons.mpr ⟨follows_of_not_isSpace (Bool.not_eq_true _ ▸ hc), ih⟩

/-- The placeholder of a table begins with a letter and its words stand apart by one space, so it
can stand behind every character. -/
theorem isChain_placeholder (previous : Char) :
    (previous :: Intercept.placeholder).IsChain Follows := by
  have hrest : Intercept.placeholder.IsChain Follows := by decide +kernel
  exact List.isChain_cons_cons.mpr ⟨follows_of_not_isSpace (by decide), hrest⟩

/-! ## What is written -/

/-- What can be written behind a text at once, or taken off its end. These are all the ways in which
the tags and the data of a document change the text. -/
inductive Writes (t : Text) : Text → Prop
  | data (s : Text) : Writes t (t ++ collapse (lastOf t) s)
  | newline : Writes t (t ++ ['\n'])
  | image : Writes t (t ++ [objectReplacement])
  | table : Writes t (t ++ Intercept.placeholder)
  | takeOff (i : Nat) : Writes t (t.take i)

/-- **What is written leaves a text spaced.** -/
theorem Writes.spaced (h : Writes s t) (hs : Spaced s) : Spaced t := by
  cases h with
  | data s' => exact hs.append_isChain (isChain_collapse _ s')
  | newline => exact hs.append_isChain (List.isChain_pair.mpr (follows_newline _))
  | image => exact hs.append_isChain (List.isChain_pair.mpr (follows_of_not_isSpace (by decide)))
  | table => exact hs.append_isChain (isChain_placeholder _)
  | takeOff i => exact hs.of_prefix (List.take_prefix i s)

/-- Some of what can be written, one after another. -/
abbrev WritesAll : Text → Text → Prop := Relation.ReflTransGen Writes

/-- A text stays spaced along any number of such steps, by induction over them. -/
theorem WritesAll.spaced (h : WritesAll s t) (hs : Spaced s) : Spaced t := by
  induction h with
  | refl => exact hs
  | tail _ h ih => exact h.spaced ih

/-! ## Room -/

variable {c : Canvas}

theorem writesAll_newline (c : Canvas) : WritesAll c.text c.newline.text := by
  unfold Canvas.newline
  split
  · exact .single .newline
  · exact .refl

/-- A blank line is up to two newlines, each of them written by itself. -/
theorem writesAll_blankLine (c : Canvas) : WritesAll c.text (blankLine c).text := by
  rw [blankLine]
  split
  · exact .refl
  · exact .refl
  · exact .single .newline
  · have hone : WritesAll c.text (c.text ++ ['\n']) := .single .newline
    have htwo := hone.tail .newline
    rwa [List.append_assoc] at htwo

/-- The room before an element is written as newlines, one or two or none. -/
theorem Tag.writesAll_before (tag : Tag) (c : Canvas) : WritesAll c.text (tag.before c).text := by
  cases tag with
  | item => exact writesAll_newline c
  | block => exact writesAll_blankLine c
  | quote => exact writesAll_blankLine c
  | heading level => exact writesAll_blankLine c
  | _ => exact .refl

/-- The room after an element is written as newlines too; that of a line break is always one. -/
theorem Tag.writesAll_after (tag : Tag) (c : Canvas) : WritesAll c.text (tag.after c).text := by
  unfold after
  split
  · exact .single .newline
  · exact Tag.writesAll_before _ c

/-- An event of running text makes room, puts down an image or writes its data; what else it does
concerns the spans only. -/
theorem State.receive_writes {lookup? : Option Image.Lookup} {n : Nat} {e : Event} {f f' : State}
    (hf : f.canvas.Sound n) (h : f.receive lookup? n e = .ok f') :
    WritesAll f.canvas.text f'.canvas.text := by
  cases receives_of_receive h with
  | @startTag _ _ tag _ _ hstart =>
    rw [text_startTag hf hstart]
    split
    · exact .single .image
    · exact tag.writesAll_before f.canvas
  | @endTag _ tag _ _ hend =>
    rw [text_endTag hf hend]
    exact tag.writesAll_after f.canvas
  | characters t => exact .single (.data t)
  | ignored => exact .refl

end Flow

/-! ## Intercepted tags -/

namespace Intercept.State

open StyledText.Flow (WritesAll Writes)

variable {n : Nat} {tag : Tag} {attributes : Markup.Attributes} {t t' : State} {c c' : Canvas}

/-- Opening an element ends a line at most, and that of an outermost table writes the
placeholder. -/
theorem Opens.writes (h : Opens n attributes t c tag t' c') : WritesAll c.text c'.text := by
  cases h with
  | looseItem => exact Flow.writesAll_newline c
  | bullet => exact Flow.writesAll_newline c
  | number => exact Flow.writesAll_newline c
  | root => exact .single .table
  | _ => exact .refl

/-- Closing an element takes its text off inside a table; outside it may end a line, and the text
stays. -/
theorem Closes.writes {kind : MarkerKind} {isParagraph : Bool} {styles : List Style}
    (h : Closes n kind isParagraph styles t c t' c') : WritesAll c.text c'.text := by
  cases h with
  | nothing => exact .refl
  | elsewhere => exact .refl
  | @inside m a =>
    have htext : (Buffer.remove (c.cut a c.length) (.marker m)).text = c.text.take a := by
      simp [Buffer.cut, Buffer.length]
    rw [htext]
    exact .single (.takeOff a)
  | @outside m a =>
    unfold closed
    by_cases he : a = (Buffer.remove c (.marker m)).length
    · rw [if_pos he]
      exact .refl
    · rw [if_neg he]
      cases isParagraph with
      | true => exact Flow.writesAll_newline (Buffer.remove c (.marker m))
      | false => exact .refl

/-- So do the end tags that close one: of an item the line is ended first, and all the others write
nothing by themselves. -/
theorem Shuts.writes (h : Shuts n t c tag t' c') : WritesAll c.text c'.text := by
  cases h with
  | list kind => exact .refl
  | strayItem => exact .refl
  | strayTable => exact .refl
  | item hl h => exact (Flow.writesAll_newline c).trans h.writes
  | link h => exact h.writes
  | bare h => exact h.writes
  | root hdepth ht₀ h => exact h.writes
  | inner hdepth h => exact h.writes

end Intercept.State

/-! ## Drafts -/

namespace Draft

variable {lookup? : Option Image.Lookup} {n : Nat} {d d' : Draft}

/-- **Each event writes something of the kind, or nothing.** -/
theorem receive_writes (hd : d.Sound n) {e : Event}
    (h : (intercepted lookup?).receive n e d = .ok d') :
    Flow.WritesAll d.canvas.text d'.canvas.text := by
  cases receives_of_receive hd h with
  | declined hnone hreceive => exact Flow.State.receive_writes hd.canvas hreceive
  | startTag htag hopens => exact hopens.writes
  | endTag htag hshuts => exact hshuts.writes

/-- The text of every draft is spaced, by induction over the events that have led to it. -/
theorem Reachable.spaced (h : Reachable lookup? n d) : Flow.Spaced d.canvas.text := by
  induction h with
  | start setup => exact Flow.spaced_nil
  | indent _ _ ih => exact ih
  | event hd hok ih => exact (receive_writes hd.sound hok).spaced ih

end Draft

/-! ## Formatted text -/

/-- Trimming takes off the end of the text and leaves the rest as it is. -/
theorem Canvas.text_trimEnd_prefix (c : Canvas) : c.trimEnd.text <+: c.text := by
  refine Canvas.trimEnd_induction (P := fun c' => c'.text <+: c.text) ?_ (List.prefix_refl _)
  intro c₁ c₂ hdrop h
  obtain ⟨rfl, -⟩ := Buffer.eq_clip_of_dropNewline? hdrop
  exact (List.take_prefix _ _).trans h

variable {r : Request} {html : Text} {c : Canvas}

/-- The text that formatting returns is that of a draft, trimmed or not, and so it is spaced. -/
theorem spaced_of_format (h : (format r html).result = .ok c) : Flow.Spaced c.text := by
  rcases ht : r.interceptor with e | t
  · cases (result_of_interceptor_error ht html).symm.trans h
  · obtain ⟨n, d, hd, hresult⟩ := exists_draft_of_interceptor ht html
    rw [hresult] at h
    split at h
    next => cases h
    next =>
      cases h
      split
      · exact hd.spaced.of_prefix d.canvas.text_trimEnd_prefix
      · exact hd.spaced

/-- **White space is normal.** Where formatting returns a text, trimmed or not, there is no tab, no
carriage return and no form feed in it; it does not begin with a space, and no space stands behind a
space or a newline. -/
theorem text_spaced (r : Request) (html : Text) (c : Canvas) (h : (format r html).result = .ok c) :
    (∀ x ∈ c.text, x ≠ '\t' ∧ x ≠ '\r' ∧ x ≠ '\x0c') ∧ c.text.head? ≠ some ' ' ∧
      ∀ s x t, c.text = s ++ x :: ' ' :: t → x ≠ ' ' ∧ x ≠ '\n' := by
  have hspaced : ∀ a b s t, '\n' :: c.text = s ++ a :: b :: t → Flow.Follows a b :=
    fun a b s t heq => List.isChain_iff_forall_rel_of_append_cons_cons.mp (spaced_of_format h) heq
  refine ⟨fun x hx => ?_, fun hhead => ?_, fun s x t heq => ?_⟩
  · obtain ⟨s, t, hst⟩ := List.append_of_mem hx
    -- every character has one before it, if only the newline in front of the text
    obtain ⟨s', a, hs'⟩ := List.eq_nil_or_concat ('\n' :: s) |>.resolve_left (List.cons_ne_nil _ _)
    have hfollows := hspaced a x s' t (by rw [hst, ← List.cons_append, hs']; simp)
    refine ⟨?_, ?_, ?_⟩ <;>
      · rintro rfl
        rcases hfollows rfl with hx | ⟨hx, -⟩ <;> exact absurd hx (by decide)
  · obtain ⟨t, ht⟩ := List.head?_eq_some_iff.mp hhead
    exact absurd (hspaced '\n' ' ' [] t (by rw [ht]; rfl) rfl) (by decide)
  · rcases hspaced x ' ' ('\n' :: s) t (by rw [heq]; rfl) rfl with hx | ⟨-, hx⟩
    · exact absurd hx (by decide)
    · exact hx

/-- Data with white space of all kinds around a break, a table and a paragraph that is never closed,
and left untrimmed. -/
theorem text_spaced_openParagraph :
    ∃ c, (format { trim := false } " a \t<br> b<table>c</table> \n<p>d".toList).result = .ok c ∧
      c.text = "a \nbtable placeholderc \n\nd".toList ∧
      (∀ x ∈ c.text, x ≠ '\t' ∧ x ≠ '\r' ∧ x ≠ '\x0c') ∧ c.text.head? ≠ some ' ' ∧
      ∀ s x t, c.text = s ++ x :: ' ' :: t → x ≠ ' ' ∧ x ≠ '\n' := by
  have hshown : ((format { trim := false } " a \t<br> b<table>c</table> \n<p>d".toList).result.toOption.map
      fun c => c.text) = some "a \nbtable placeholderc \n\nd".toList := by decide +kernel
  rcases hresult : (format { trim := false } " a \t<br> b<table>c</table> \n<p>d".toList).result
    with e | c
  · rw [hresult] at hshown
    cases hshown
  · rw [hresult] at hshown
    exact ⟨c, rfl, Option.some.inj hshown, text_spaced _ _ c hresult⟩

end StyledText
