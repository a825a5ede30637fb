import Mathlib.Data.List.Induction
import StyledText.Intercept.Desk
import StyledText.Proofs.Intercept.Sound
import StyledText.Proofs.Markup.Content

/-!
# Steps at a desk

What a step can do is said once (`Desk.Performs`); whatever holds along all steps is told from
there. A desk is **sound** before step `n` when the interceptor is balanced and each canvas is
sound, and every step keeps it so. On a sound desk only one thing can go wrong, which is a range
that is to be taken out and does not lie in the text (`Desk.run_eq_error_iff`).
-/

namespace StyledText

open Markup (Event Attributes)

namespace Intercept

/-- Whether an action can be done to a canvas: the range of a deletion lies in the text. -/
def Action.Fits (c : Canvas) : Action → Prop
  | offer _ => True
  | write _ => True
  | delete start stop => c.Within start stop

namespace Desk

variable {ι : Type} {n : Nat} {i : ι} {a : Action} {d d' : Desk ι} {steps : List (ι × Action)}

/-- A balanced interceptor and canvases that are sound before step `n`. -/
structure Sound (n : Nat) (d : Desk ι) : Prop where
  balanced : d.tags.Balanced
  canvas : ∀ i, (d.canvas i).Sound n

/-- A desk on which nothing has been done yet. -/
def fresh (setup : Setup) (indent : Option Nat) : Desk ι :=
  { tags := { setup := setup, indent := indent } }

/-- A fresh desk is sound: nothing is open, and all canvases are blank. -/
theorem sound_fresh (setup : Setup) (indent : Option Nat) : (fresh setup indent : Desk ι).Sound 0 :=
  ⟨rfl, fun _ => Canvas.sound_blank 0⟩

variable [DecidableEq ι]

/-! ## What a step does -/

/-- What step `n` can do to a canvas. An event is declined by its name alone. -/
inductive Performs (n : Nat) (i : ι) (d : Desk ι) : Action → Desk ι → Prop
  | declined {e : Event} (h : ∀ name, e.name? = some name → Tag.ofName? name = none) :
      Performs n i d (.offer e) d
  | startTag {name : Text} {attributes : Attributes} {tag : Tag} {t : State} {c : Canvas}
      (htag : Tag.ofName? name = some tag)
      (h : State.Opens n attributes d.tags (d.canvas i) tag t c) :
      Performs n i d (.offer (.startElement name attributes))
        { d.put i c with tags := t.record tag.startText }
  | endTag {name : Text} {tag : Tag} {t : State} {c : Canvas}
      (htag : Tag.ofName? name = some tag) (h : State.Shuts n d.tags (d.canvas i) tag t c) :
      Performs n i d (.offer (.endElement name))
        { d.put i c with tags := t.record tag.endText }
  | write (text : Text) : Performs n i d (.write text) (d.put i ((d.canvas i).append text))
  | delete {start stop : Int} (h : (d.canvas i).Within start stop) :
      Performs n i d (.delete start stop) (d.put i ((d.canvas i).cut start.toNat stop.toNat))

/-- A step that fits succeeds, and does one of the things that a step can do. -/
theorem exists_perform (hd : d.Sound n) (ha : a.Fits (d.canvas i)) :
    ∃ d', d.perform n i a = .ok d' ∧ Performs n i d a d' := by
  cases a with
  | offer e =>
    cases e with
    | startElement name attributes =>
      rcases htag : Tag.ofName? name with _ | tag
      · exact ⟨d, by simp [perform, State.handle?_startElement, htag],
          .declined (by rintro _ ⟨⟩; exact htag)⟩
      · obtain ⟨t, c, hok, h⟩ :=
          State.exists_startTag_opens tag attributes hd.balanced (hd.canvas i)
        exact ⟨_, by simp [perform, State.handle?_startElement, htag, hok, Except.map],
          .startTag htag h⟩
    | endElement name =>
      rcases htag : Tag.ofName? name with _ | tag
      · exact ⟨d, by simp [perform, State.handle?_endElement, htag],
          .declined (by rintro _ ⟨⟩; exact htag)⟩
      · obtain ⟨t, c, hok, h⟩ := State.exists_endTag_shuts tag hd.balanced (hd.canvas i)
        exact ⟨_, by simp [perform, State.handle?_endElement, htag, hok, Except.map],
          .endTag htag h⟩
    | _ => exact ⟨d, rfl, .declined (by rintro _ ⟨⟩)⟩
  | write text => exact ⟨_, rfl, .write text⟩
  | delete start stop =>
    refine ⟨_, ?_, .delete ha⟩
    rw [perform, Buffer.delete_eq_ok_iff.mpr ⟨ha, rfl⟩]
    rfl

/-- Only a step that fits succeeds, so deletions that are out of range fail. -/
theorem fits_of_perform (h : d.perform n i a = .ok d') : a.Fits (d.canvas i) := by
  cases a with
  | offer e => trivial
  | write text => trivial
  | delete start stop =>
    obtain ⟨c, hc, -⟩ := exists_of_map_eq_ok h
    exact (Buffer.delete_eq_ok_iff.mp (Fault.ofRange_eq_ok_iff.mp hc)).1

theorem performs_of_perform (hd : d.Sound n) (h : d.perform n i a = .ok d') :
    Performs n i d a d' := by
  obtain ⟨d₁, hok, hperforms⟩ := exists_perform hd (fits_of_perform h)
  cases hok.symm.trans h
  exact hperforms

/-- An end tag that is intercepted closes its element on the canvas that it comes on, and is
recorded. -/
theorem Performs.exists_shuts {name : Text} {tag : Tag}
    (h : Performs n i d (.offer (.endElement name)) d') (htag : Tag.ofName? name = some tag) :
    ∃ t c, State.Shuts n d.tags (d.canvas i) tag t c ∧
      d' = { d.put i c with tags := t.record tag.endText } := by
  cases h with
  | declined hnone => cases (hnone name rfl).symm.trans htag
  | @endTag _ tag' t c htag' hshuts =>
    obtain rfl : tag' = tag := Option.some.inj (htag'.symm.trans htag)
    exact ⟨t, c, hshuts, rfl⟩

/-! ## Sound desks -/

/-- One canvas is exchanged for another that is sound, and the rest of the desk stays so. -/
theorem Sound.put (h : d.Sound n) {c : Canvas} (hc : c.Sound (n + 1)) {t : State}
    (ht : t.Balanced) : Sound (n + 1) { d.put i c with tags := t } := by
  refine ⟨ht, fun j => ?_⟩
  change Canvas.Sound (n + 1) (if j = i then c else d.canvas j)
  split
  · exact hc
  · exact (h.canvas j).mono (Nat.le_succ n)

/-- **A step keeps a desk sound**, for the next step with a number of its own. -/
theorem Sound.perform (hd : d.Sound n) (h : Performs n i d a d') : d'.Sound (n + 1) := by
  have hsucc : (d.canvas i).Sound (n + 1) := (hd.canvas i).mono (Nat.le_succ n)
  cases h with
  | declined => exact ⟨hd.balanced, fun j => (hd.canvas j).mono (Nat.le_succ n)⟩
  | @startTag _ _ tag _ _ htag h =>
    have hl := (h.leaves hd.balanced (hd.canvas i)).record tag.startText
    exact hd.put hl.sound hl.balanced
  | @endTag _ tag _ _ htag h =>
    have hl := (h.leaves hd.balanced (hd.canvas i)).record tag.endText
    exact hd.put hl.sound hl.balanced
  | write text => exact hd.put (hsucc.append text) hd.balanced
  | delete hw =>
    obtain ⟨hstart, hle, hstop⟩ := hw
    exact hd.put (hsucc.cut (by omega) (by omega)) hd.balanced

/-! ## Runs -/

theorem run_cons_of_ok (h : d.perform n i a = .ok d') (steps : List (ι × Action)) :
    d.run n ((i, a) :: steps) = d'.run (n + 1) steps := by
  rw [run, h]
  rfl

/-- **Along a run.** What holds of a sound desk before the first step and is kept by each step holds
after the last one. -/
theorem run_induction_of_perform {P : List (ι × Action) → Desk ι → Prop} (hd : d.Sound 0)
    (hP : P [] d)
    (hstep : ∀ {done i a d d'}, d.Sound done.length → P done d →
      d.perform done.length i a = .ok d' → P (done ++ [(i, a)]) d')
    (hrun : d.run 0 steps = .ok d') : d'.Sound steps.length ∧ P steps d' := by
  induction steps using List.reverseRecOn generalizing d' with
  | nil =>
    cases hrun
    exact ⟨hd, hP⟩
  | append_singleton done step ih =>
    obtain ⟨i, a⟩ := step
    rw [run_append, Nat.zero_add] at hrun
    obtain ⟨d₁, hdone, hlast⟩ := exists_of_bind_eq_ok hrun
    obtain ⟨hs₁, hP₁⟩ := ih hdone
    obtain ⟨d₂, hperform, hnil⟩ := exists_of_bind_eq_ok hlast
    cases hnil
    rw [List.length_append]
    exact ⟨hs₁.perform (performs_of_perform hs₁ hperform), hstep hs₁ hP₁ hperform⟩

/-- Along a run, by what each step can do, for what needs the cases and not the steps themselves. -/
theorem run_induction {P : List (ι × Action) → Desk ι → Prop} (hd : d.Sound 0) (hP : P [] d)
    (hstep : ∀ {done i a d d'}, d.Sound done.length → P done d → Performs done.length i d a d' →
      P (done ++ [(i, a)]) d')
    (hrun : d.run 0 steps = .ok d') : d'.Sound steps.length ∧ P steps d' :=
  run_induction_of_perform hd hP
    (fun hs h hperform => hstep hs h (performs_of_perform hs hperform)) hrun

/-- **What can go wrong.** A run from a sound desk fails if and only if it comes to a deletion of a
range that does not lie in the text. -/
theorem run_eq_error_iff (hd : d.Sound n) :
    (∃ f, d.run n steps = .error f) ↔
      ∃ pre i start stop post d', steps = pre ++ (i, .delete start stop) :: post ∧
        d.run n pre = .ok d' ∧ ¬ (d'.canvas i).Within start stop := by
  induction steps generalizing n d with
  | nil =>
    refine iff_of_false (by rintro ⟨f, ⟨⟩⟩) ?_
    rintro ⟨pre, i, start, stop, post, d', h, -⟩
    exact absurd h.symm (List.append_ne_nil_of_right_ne_nil _ (List.cons_ne_nil _ _))
  | cons step steps ih =>
    obtain ⟨i, a⟩ := step
    by_cases ha : a.Fits (d.canvas i)
    · obtain ⟨d₁, hok, hperforms⟩ := exists_perform hd ha
      rw [run_cons_of_ok hok, ih (hd.perform hperforms)]
      constructor
      · rintro ⟨pre, j, start, stop, post, d', rfl, hpre, hout⟩
        exact ⟨(i, a) :: pre, j, start, stop, post, d', rfl, by rw [run_cons_of_ok hok, hpre], hout⟩
      · rintro ⟨pre, j, start, stop, post, d', hsteps, hpre, hout⟩
        cases pre with
        | nil =>
          -- the first step is no such deletion, since it fits
          cases hsteps
          cases hpre
          exact absurd ha hout
        | cons first pre =>
          cases hsteps
          rw [run_cons_of_ok hok] at hpre
          exact ⟨pre, j, start, stop, post, d', rfl, hpre, hout⟩
    · cases a with
      | offer e => exact absurd trivial ha
      | write text => exact absurd trivial ha
      | delete start stop =>
        have hout : ¬ (d.canvas i).Within start stop := ha
        refine iff_of_true ⟨.range (.delete start stop (d.canvas i).length), ?_⟩
          ⟨[], i, start, stop, steps, d, rfl, rfl, hout⟩
        rw [run, perform, Buffer.delete, if_neg hout]
        rfl

end Desk

end Intercept

end StyledText
