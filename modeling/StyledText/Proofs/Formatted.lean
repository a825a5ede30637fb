import StyledText.Proofs.Buffer.View
import StyledText.Proofs.Canvas.Edit
import StyledText.Proofs.Draft

/-!
# Formatted text

What `format` returns is the canvas of a draft that the events of the document lead to, with the
newlines at its end dropped or not. Trimming keeps a canvas sound and its images on their
characters, as events do, so every annotation of formatted text covers some of it, and an image
covers one character.
-/

namespace StyledText

open Markup (Event)

/-! ## Trimming -/

namespace Canvas

variable {n i j : Nat} {c c' : Canvas}

/-- A part of a sound canvas is sound: no object is attached twice in it, and every style in it has
width. -/
theorem Sound.clip (h : c.Sound n) (hij : i ≤ j) (hj : j ≤ c.length) : Sound n (c.clip i j) := by
  intro s hs
  obtain ⟨r, hr, hclip⟩ := List.mem_filterMap.mp hs
  have hfit := h r hr
  have hle := hfit.start_le
  obtain ⟨htouches, rfl, hkeep⟩ := Span.clip?_eq_some_iff.mp hclip
  rw [Buffer.length_clip i hj]
  refine ⟨?_, ?_, hfit.made_lt, hfit.flag_eq, hfit.empty_iff_of_kept ?_ hkeep⟩ <;>
    simp only <;> omega

/-- So is a canvas without its last newline, which is a part of it. -/
theorem Sound.dropNewline? (h : c.Sound n) (hdrop : c.dropNewline? = some c') : c'.Sound n := by
  obtain ⟨rfl, -⟩ := Buffer.eq_clip_of_dropNewline? hdrop
  exact h.clip (Nat.zero_le _) (Nat.sub_le _ _)

/-- The character of an image is no newline, so it is not dropped. -/
theorem Pictured.dropNewline? (h : c.Pictured) (hdrop : c.dropNewline? = some c') :
    c'.Pictured := by
  obtain ⟨rfl, hlast⟩ := Buffer.eq_clip_of_dropNewline? hdrop
  intro s hs himage
  obtain ⟨r, hr, hclip⟩ := List.mem_filterMap.mp hs
  obtain ⟨-, rfl, -⟩ := Span.clip?_eq_some_iff.mp hclip
  obtain ⟨hflag, hstop, hchar⟩ := h r hr himage
  have hlt : r.start < c.length := (List.getElem?_eq_some_iff.mp hchar).1
  have hne : r.start ≠ c.length - 1 := by
    intro he
    rw [he, hlast] at hchar
    exact absurd hchar (by decide)
  have hstart : max r.start 0 - 0 = r.start := by omega
  have hmin : min r.stop (c.length - 1) - 0 = r.stop := by omega
  simp only [hstart, hmin]
  refine ⟨hflag, hstop, ?_⟩
  rw [Buffer.text_clip, List.drop_zero, List.getElem?_take_of_lt (by simp only; omega)]
  exact hchar

/-- What dropping a newline keeps is kept by trimming, which drops one after another. -/
theorem trimEnd_induction {P : Canvas → Prop} (hstep : ∀ c c', c.dropNewline? = some c' → P c → P c')
    (hc : P c) : P c.trimEnd := by
  fun_induction Buffer.trimEnd c with
  | case1 c c' hdrop ih => exact ih (hstep c c' hdrop hc)
  | case2 c hdrop => exact hc

end Canvas

/-! ## Drafts -/

namespace Draft

variable {lookup? : Option Image.Lookup} {n : Nat} {d d' : Draft}

/-- An event edits the canvas of a draft, by whichever side it is handled. -/
theorem receive_edits (hd : d.Sound n) {e : Event}
    (h : (intercepted lookup?).receive n e d = .ok d') : d.canvas.Edits n d'.canvas := by
  obtain ⟨t', f'⟩ := d'
  cases Consumer.handles_of_receive h with
  | declined _ hf => exact Flow.State.receive_edits hd.canvas hf
  | startTag _ hstart => exact Intercept.State.startTag_edits hd.balanced hd.canvas hstart
  | endTag _ hend => exact Intercept.State.endTag_edits hd.balanced hd.canvas hend

/-- On every reachable draft images stand on their characters, since edits keep them there. -/
theorem Reachable.pictured (h : Reachable lookup? n d) : d.canvas.Pictured := by
  induction h with
  | start setup => exact Canvas.pictured_blank
  | indent _ _ ih => exact ih
  | event hd hok ih => exact (receive_edits hd.sound hok).pictured ih

/-- The draft that a request begins with is reachable, with the indentation set before the first
event or not. -/
theorem reachable_interceptor {r : Request} {t : Intercept.State} (h : r.interceptor = .ok t) :
    Reachable r.images 0 (t, {}) := by
  simp only [Request.interceptor] at h
  split at h
  next => exact (Reachable.start r.setup).indent h
  next =>
    cases h
    exact .start r.setup

end Draft

/-! ## Formatting -/

variable {r : Request} {html : Text} {c : Canvas}

/-- Formatting writes the events of a document where there is an indentation, and fails only where
the reading of the document has been cut short. -/
theorem exists_draft_of_interceptor {t : Intercept.State} (h : r.interceptor = .ok t) (html : Text) :
    ∃ n, ∃ d : Draft, Draft.Reachable r.images n d ∧
      (format r html).result =
        match (Markup.read (Markup.reserveNames html)).fault with
        | some fault => .error (.markup fault)
        | none => .ok (if r.trim then d.canvas.trimEnd else d.canvas) := by
  have hstart := Draft.reachable_interceptor h
  obtain ⟨d, hok, -, -⟩ := Draft.run_sound r.images
    (Markup.read (Markup.reserveNames html)).events hstart.sound
  refine ⟨_, d, hstart.run hok, ?_⟩
  have hrun : (intercepted r.images).run (Markup.read (Markup.reserveNames html)).events (t, {}) =
      .ok d := hok
  simp only [format, h, hrun, Formatted.map, Formatted.ofRun]
  cases (Markup.read (Markup.reserveNames html)).fault <;> rfl

/-- What is returned, trimmed or not, is a sound canvas with its images on their characters. -/
theorem sound_pictured_of_draft {lookup? : Option Image.Lookup} {n : Nat} {d : Draft}
    (hd : Draft.Reachable lookup? n d) (trim : Bool) :
    Canvas.Sound n (if trim then d.canvas.trimEnd else d.canvas) ∧
      Canvas.Pictured (if trim then d.canvas.trimEnd else d.canvas) := by
  cases trim with
  | false => exact ⟨hd.sound.canvas, hd.pictured⟩
  | true =>
    exact Canvas.trimEnd_induction (P := fun c => c.Sound n ∧ c.Pictured)
      (fun _ _ hdrop h => ⟨h.1.dropNewline? hdrop, h.2.dropNewline? hdrop⟩)
      ⟨hd.sound.canvas, hd.pictured⟩

/-- On such a canvas annotations fit: they have width, lie in the text, and an image covers its
character. -/
theorem annotation_fits {n : Nat} (hc : c.Sound n) (hp : c.Pictured) {s : Span Object}
    (hs : s ∈ c.annotations) :
    s.start < s.stop ∧ s.stop ≤ c.length ∧
      (s.what.isImage = true →
        s.stop = s.start + 1 ∧ c.text[s.start]? = some objectReplacement) := by
  obtain ⟨hmem, hflag⟩ := List.mem_filter.mp (Span.mem_arrange.mp hs)
  have hfit := hc s hmem
  have hne : s.start ≠ s.stop := fun he => of_decide_eq_true hflag (hfit.empty_iff.mp he)
  refine ⟨Nat.lt_of_le_of_ne hfit.start_le hne, hfit.stop_le, fun himage => ?_⟩
  obtain ⟨-, hstop, hchar⟩ := hp s hmem himage
  exact ⟨hstop, hchar⟩

/-- Where the indentation cannot be rounded nothing is formatted at all. -/
theorem result_of_interceptor_error {e : Binary64.Unroundable} (h : r.interceptor = .error e)
    (html : Text) : (format r html).result = .error (.indent e) := by
  simp only [format, h, Formatted.failed]

/-- **Annotations fit.** Formatting returns a text if and only if the indentation can be rounded and
the markup can be read to its end; whether or not newlines are dropped, every annotation of that
text covers some of it, and that of an image covers one character, which stands for the image. -/
theorem annotations_fit (r : Request) (html : Text) :
    ((∃ c, (format r html).result = .ok c) ↔
      (∃ t, r.interceptor = .ok t) ∧ (Markup.read (Markup.reserveNames html)).fault = none) ∧
    ∀ c, (format r html).result = .ok c →
      ∀ s ∈ c.annotations, s.start < s.stop ∧ s.stop ≤ c.length ∧
        (s.what.isImage = true →
          s.stop = s.start + 1 ∧ c.text[s.start]? = some objectReplacement) := by
  rcases ht : r.interceptor with e | t
  · -- without an indentation nothing is returned
    have hresult := result_of_interceptor_error ht html
    refine ⟨⟨?_, ?_⟩, fun c hc => ?_⟩
    · rintro ⟨c, hc⟩
      cases hresult.symm.trans hc
    · rintro ⟨⟨t, h⟩, -⟩
      cases h
    · cases hresult.symm.trans hc
  · obtain ⟨n, d, hd, hresult⟩ := exists_draft_of_interceptor ht html
    obtain ⟨hsound, hpictured⟩ := sound_pictured_of_draft hd r.trim
    rcases hfault : (Markup.read (Markup.reserveNames html)).fault with _ | fault
    · simp only [hfault] at hresult
      refine ⟨⟨fun _ => ⟨⟨t, rfl⟩, rfl⟩, fun _ => ⟨_, hresult⟩⟩, ?_⟩
      intro c hc s hs
      cases hresult.symm.trans hc
      exact annotation_fits hsound hpictured hs
    · simp only [hfault] at hresult
      refine ⟨⟨?_, ?_⟩, fun c hc => ?_⟩
      · rintro ⟨c, hc⟩
        cases hresult.symm.trans hc
      · rintro ⟨-, h⟩
        cases h
      · cases hresult.symm.trans hc

/-- An image beside bold text whose line break is trimmed away at the end. -/
theorem annotations_fit_imageThenBreak :
    ∃ c, (format {} "x<img src=a><b>y<br></b>".toList).result = .ok c ∧
      c.text = ['x', objectReplacement, 'y'] ∧
      (c.annotations.map fun s => (s.what.isImage, s.start, s.stop)) =
        [(true, 1, 2), (false, 2, 3)] ∧
      ∀ s ∈ c.annotations, s.start < s.stop ∧ s.stop ≤ c.length ∧
        (s.what.isImage = true →
          s.stop = s.start + 1 ∧ c.text[s.start]? = some objectReplacement) := by
  obtain ⟨hiff, hfit⟩ := annotations_fit {} "x<img src=a><b>y<br></b>".toList
  obtain ⟨c, hc⟩ := hiff.mpr ⟨⟨{}, rfl⟩, by decide +kernel⟩
  have hshown : ((format {} "x<img src=a><b>y<br></b>".toList).result.toOption.map fun c =>
      (c.text, c.annotations.map fun s => (s.what.isImage, s.start, s.stop))) =
        some (['x', objectReplacement, 'y'], [(true, 1, 2), (false, 2, 3)]) := by decide +kernel
  rw [hc] at hshown
  obtain ⟨htext, hranges⟩ := Prod.mk.inj (Option.some.inj hshown)
  exact ⟨c, hc, htext, hranges, hfit c hc⟩

end StyledText
