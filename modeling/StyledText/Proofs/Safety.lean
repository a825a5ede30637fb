import StyledText.Proofs.Draft
import StyledText.Proofs.Flow.Indexed
import StyledText.Proofs.Intercept.Desk

/-!
# Nothing fails

Four things could fail while a document is written: attaching to a range or taking a range out,
reading a character by its index, counting an item in a list without a counter, and finding the size
of a heading by its level. None of them does, for any events in any order, and the interceptor at a
desk with several canvases does not fail either, unless it is asked to take out what is not there.
-/

namespace StyledText

open Markup (Event)

/-- Running text behind the interceptor, by indices. -/
def interceptedByIndex (lookup? : Option Image.Lookup) : Consumer (Intercept.State × Flow.State) :=
  (flowByIndex lookup?).behindIntercept Flow.State.access

namespace Draft

variable {n : Nat} {d : Draft}

theorem receive_byIndex (lookup? : Option Image.Lookup) (hd : d.Sound n) (e : Event) :
    (interceptedByIndex lookup?).receive n e d = (intercepted lookup?).receive n e d := by
  obtain ⟨t, f⟩ := d
  have hflow : (flowByIndex lookup?).receive n e f = (flow lookup?).receive n e f :=
    Flow.Indexed.receive_eq lookup? hd.canvas e
  simp only [interceptedByIndex, intercepted, Consumer.behindIntercept, hflow]

/-- On a sound draft it makes no difference whether characters are read by indices. -/
theorem runFrom_byIndex (lookup? : Option Image.Lookup) (events : List Event) :
    ∀ {n : Nat} {d : Draft}, d.Sound n →
      (interceptedByIndex lookup?).runFrom n events d = (intercepted lookup?).runFrom n events d := by
  induction events with
  | nil => exact fun _ => rfl
  | cons e events ih =>
    intro n d hd
    obtain ⟨d₁, hok, hs₁, -⟩ := receive_sound lookup? hd e
    have hindex := (receive_byIndex lookup? hd e).trans hok
    rw [Consumer.runFrom_cons_of_ok hok, Consumer.runFrom_cons_of_ok hindex]
    exact ih hs₁

/-- **Nothing fails.** Whatever events come, on a canvas with whatever text, each of them succeeds,
also where characters are read by indices, and the digit of a heading is always one of a level. At a
desk, a run fails if and only if it comes to a deletion of a range that does not lie in the text. -/
theorem no_step_fails (lookup? : Option Image.Lookup) (setup : Intercept.Setup)
    (indent : Option Nat) :
    (∀ (text : Text) (events : List Event), ∃ d : Draft,
      (interceptedByIndex lookup?).run events
        ({ setup := setup, indent := indent }, { canvas := Buffer.ofText text }) = .ok d ∧
      (intercepted lookup?).run events
        ({ setup := setup, indent := indent }, { canvas := Buffer.ofText text }) = .ok d) ∧
    (∀ (name : Text) (k : Int), Flow.Indexed.headingLevel? name.lower = some k →
      ∃ level : Fin 6, k = level ∧ Flow.Tag.ofName? name = some (.heading level)) ∧
    ∀ (ι : Type) [DecidableEq ι] (steps : List (ι × Intercept.Action)),
      (∃ f, (Intercept.Desk.fresh setup indent).run 0 steps = .error f) ↔
        ∃ pre i start stop post d, steps = pre ++ (i, .delete start stop) :: post ∧
          (Intercept.Desk.fresh setup indent).run 0 pre = .ok d ∧
          ¬ (d.canvas i).Within start stop := by
  refine ⟨fun text events => ?_, fun name k => Flow.Indexed.exists_level_of_headingLevel?,
    fun ι _ steps => Intercept.Desk.run_eq_error_iff (Intercept.Desk.sound_fresh setup indent)⟩
  have hd : Sound 0 ({ setup := setup, indent := indent }, { canvas := Buffer.ofText text }) :=
    ⟨rfl, fun s hs => absurd hs (List.not_mem_nil)⟩
  obtain ⟨d, hok, -, -⟩ := run_sound lookup? events hd
  exact ⟨d, (runFrom_byIndex lookup? events hd).trans hok, hok⟩

/-- Tags that cross, with end tags before any start tag and a table that is left open. -/
def tangledTags : List Event := [
  .endElement "H6".toList, .startElement "b".toList [], .startElement "h6".toList [],
  .characters "x".toList, .endElement "b".toList,
  .startElement Markup.Renamed.orderedList.reserved [],
  .startElement Markup.Renamed.listItem.reserved [], .endElement "h6".toList,
  .startElement "table".toList [], .endElement Markup.Renamed.unorderedList.reserved,
  .endElement Markup.Renamed.listItem.reserved, .characters "y".toList,
  .endElement Markup.Renamed.anchor.reserved, .endDocument]

/-- A code element begins on each of two canvases and ends on both. On the first one the text from
offset 1 to `stop` is taken out before. -/
def stepsWithDeletion (stop : Int) : List (Bool × Intercept.Action) := [
  (false, .write "ab".toList), (false, .offer (.startElement "code".toList [])),
  (true, .offer (.startElement "code".toList [])), (true, .offer (.endElement "code".toList)),
  (false, .delete 1 stop), (false, .offer (.endElement "code".toList))]

theorem no_step_fails_tangledTags :
    (∃ d : Draft, (interceptedByIndex none).run tangledTags
        ({ setup := { clickable := true } }, { canvas := Buffer.ofText "a\n".toList }) = .ok d ∧
      d.canvas.text = "a\n\nx\n\ntable placeholdery".toList ∧
      d.tags.html = "<table></ul></li></a>".toList) ∧
    (Flow.Indexed.headingLevel? (Text.lower "H6".toList) = some 5 ∧
      ∃ level : Fin 6, (5 : Int) = level ∧ Flow.Tag.ofName? "H6".toList = some (.heading level)) ∧
    ((∃ d, (Intercept.Desk.fresh {} none).run 0 (stepsWithDeletion 2) = .ok d ∧
        (d.canvas false).text = "a".toList) ∧
      ¬ ∃ pre i start stop post d,
        stepsWithDeletion 2 = pre ++ (i, .delete start stop) :: post ∧
          (Intercept.Desk.fresh {} none).run 0 pre = .ok d ∧
          ¬ (d.canvas i).Within start stop) ∧
    ∃ f, (Intercept.Desk.fresh {} none).run 0 (stepsWithDeletion 3) = .error f := by
  obtain ⟨hrun, hlevel, -⟩ := no_step_fails none { clickable := true } none
  obtain ⟨-, -, hdesk⟩ := no_step_fails none {} none
  obtain ⟨d, hok, -⟩ := hrun "a\n".toList tangledTags
  have hshown : ((interceptedByIndex none).run tangledTags
      ({ setup := { clickable := true } }, { canvas := Buffer.ofText "a\n".toList })).toOption.map
        (fun d : Draft => (d.canvas.text, d.tags.html)) =
      some ("a\n\nx\n\ntable placeholdery".toList, "<table></ul></li></a>".toList) := by
    decide +kernel
  rw [hok] at hshown
  obtain ⟨htext, hhtml⟩ := Prod.mk.inj (Option.some.inj hshown)
  have hdigit : Flow.Indexed.headingLevel? (Text.lower "H6".toList) = some 5 := by decide +kernel
  -- the range from 1 to 2 is there, so the run in which it is taken out has nothing to fail for
  obtain ⟨e, hin, htaken⟩ : ∃ e : Intercept.Desk Bool,
      (Intercept.Desk.fresh {} none).run 0 (stepsWithDeletion 2) = .ok e ∧
        (e.canvas false).text = "a".toList := ⟨_, rfl, by decide +kernel⟩
  refine ⟨⟨d, hok, htext, hhtml⟩, ⟨hdigit, hlevel "H6".toList 5 hdigit⟩, ⟨⟨e, hin, htaken⟩, ?_⟩, ?_⟩
  · rw [← hdesk Bool (stepsWithDeletion 2), hin]
    rintro ⟨f, ⟨⟩⟩
  · refine (hdesk Bool (stepsWithDeletion 3)).mpr
      ⟨(stepsWithDeletion 3).take 4, false, 1, 3, (stepsWithDeletion 3).drop 5, _, rfl, rfl, ?_⟩
    decide +kernel

end Draft

end StyledText
