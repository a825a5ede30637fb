import StyledText.Proofs.Formatted
import StyledText.Proofs.Markup.Reading
import StyledText.Proofs.Markup.Rename

/-!
# Escaped text

Text that is not meant as markup is **escaped**: an ampersand and both brackets are written as
references. Nothing in escaped text is renamed, no tag begins in it, and each reference is decoded
once; so formatting shows the text itself, with its white space collapsed.

* `Reference.decode_escape` — decoding undoes escaping;
* `Flow.collapse_newline` — collapsing white space, run by run;
* `Markup.read_reserveNames_escape` — the events of an escaped text.
-/

namespace StyledText

open Markup (Event)

/-! ## References -/

namespace Reference

/-- How a character of a text is written in markup. -/
def escapeChar (c : Char) : Text :=
  if c = '&' then "&amp;".toList
  else if c = '<' then "&lt;".toList
  else if c = '>' then "&gt;".toList
  else [c]

/-- How a text is written in markup. -/
def escape (s : Text) : Text := s.flatMap escapeChar

/-- A name of letters up to its semicolon is a reference, if it is no longer than names may be. -/
theorem readNamed?_semicolon {name : Text} (hname : ∀ c ∈ name, isNameChar c = true)
    (hpos : 0 < name.length) (hlimit : name.length ≤ nameLimit) (t : Text) :
    readNamed? (name ++ ';' :: t) = some (named (name ++ [';']), name.length + 1) := by
  have htake : (name ++ ';' :: t).takeWhile isNameChar = name := by
    rw [List.takeWhile_append_of_pos hname, List.takeWhile_cons_of_neg (by decide),
      List.append_nil]
  have hsize : min nameLimit name.length = name.length := Nat.min_eq_right hlimit
  have hsemicolon : semicolonAt (name ++ ';' :: t) name.length = 1 := by
    simp [semicolonAt]
  have hwhole : (name ++ ';' :: t).take (name.length + 1) = name ++ [';'] := by
    rw [List.take_append, List.take_of_length_le (Nat.le_succ _)]
    simp
  simp only [readNamed?, htake, hsize, hsemicolon, hwhole, if_neg (Nat.pos_iff_ne_zero.mp hpos)]

/-- A named reference is decoded once, and what follows it by itself. -/
theorem decode_named {name value t u : Text} (hname : ∀ c ∈ name, isNameChar c = true)
    (hpos : 0 < name.length) (hlimit : name.length ≤ nameLimit)
    (hvalue : ofName (name ++ [';']) = value) (ht : decode t = .ok u) :
    decode ('&' :: (name ++ ';' :: t)) = .ok (value ++ u) := by
  obtain ⟨c, rest, rfl⟩ := List.exists_cons_of_length_pos hpos
  have hc : c ≠ '#' := by
    rintro rfl
    exact absurd (hname '#' List.mem_cons_self) (by decide)
  have hread : read? (c :: rest ++ ';' :: t) =
      some (named (c :: rest ++ [';']), (c :: rest).length + 1) := by
    rw [← readNamed?_semicolon hname hpos hlimit t, List.cons_append, read?]
    rintro _ _ h
    exact hc (List.cons.inj h).1
  have hdrop : (c :: rest ++ ';' :: t).drop ((c :: rest).length + 1) = t := by
    simp
  rw [decode_ampersand hread, hdrop, ht, Reference.value, hvalue]
  rfl

/-- **Decoding undoes escaping**, character by character: what is written for one is decoded to just
that, and begins no reference with what follows. -/
theorem decode_escape (s : Text) : decode (escape s) = .ok s := by
  -- the three names that escaping uses stand for the characters that it replaces
  have hamp : ofName ("amp".toList ++ [';']) = ['&'] := by decide +kernel
  have hlt : ofName ("lt".toList ++ [';']) = ['<'] := by decide +kernel
  have hgt : ofName ("gt".toList ++ [';']) = ['>'] := by decide +kernel
  induction s with
  | nil => exact decode_nil
  | cons c s ih =>
    rw [escape, List.flatMap_cons, ← escape, escapeChar]
    split
    next h =>
      subst h
      exact decode_named (List.all_eq_true.mp (by decide)) (by decide) (by decide) hamp ih
    split
    next h =>
      subst h
      exact decode_named (List.all_eq_true.mp (by decide)) (by decide) (by decide) hlt ih
    split
    next h =>
      subst h
      exact decode_named (List.all_eq_true.mp (by decide)) (by decide) (by decide) hgt ih
    next h _ _ =>
      rw [List.singleton_append, decode_cons_of_ne h, ih]
      rfl

/-- No opening bracket is left in escaped text, so no tag begins in it. -/
theorem bracket_notMem_escape (s : Text) : '<' ∉ escape s := by
  intro h
  obtain ⟨c, -, hc⟩ := List.mem_flatMap.mp h
  simp only [escapeChar] at hc
  split at hc
  · exact absurd hc (by decide)
  split at hc
  · exact absurd hc (by decide)
  split at hc
  · exact absurd hc (by decide)
  next hne _ => exact hne (List.mem_singleton.mp hc).symm

end Reference

/-! ## White space -/

namespace Flow

/-- The text with one space in the place of every run of white space. -/
def squeeze : Text → Text
  | [] => []
  | c :: t => if isSpace c then ' ' :: squeeze (t.dropWhile isSpace) else c :: squeeze t
termination_by t => t.length
decreasing_by
  · exact Nat.lt_succ_of_le (List.dropWhile_sublist _).length_le
  · simp

/-- Behind a blank or a newline a run of white space is dropped, behind anything else it is one
space. -/
theorem collapse_eq_squeeze (previous : Char) (t : Text) :
    collapse previous t =
      if previous = ' ' ∨ previous = '\n' then squeeze (t.dropWhile isSpace) else squeeze t := by
  fun_induction collapse previous t with
  | case1 previous => simp [squeeze]
  | case2 previous c t hc hprevious ih =>
    rw [ih, if_pos hprevious, if_pos hprevious, List.dropWhile_cons_of_pos hc]
  | case3 previous c t hc hprevious ih =>
    rw [ih, if_pos (.inl rfl), if_neg hprevious, squeeze, if_pos hc]
  | case4 previous c t hc ih =>
    have hne : ¬ (c = ' ' ∨ c = '\n') := by
      rintro (rfl | rfl) <;> exact hc (by decide)
    have hsqueeze : squeeze (c :: t) = c :: squeeze t := by rw [squeeze, if_neg hc]
    rw [ih, if_neg hne, List.dropWhile_cons_of_neg hc, hsqueeze, ite_self]

/-- At the start of a line the first run is dropped. -/
theorem collapse_newline (t : Text) : collapse '\n' t = squeeze (t.dropWhile isSpace) := by
  rw [collapse_eq_squeeze, if_pos (.inr rfl)]

theorem newline_notMem_squeeze (t : Text) : '\n' ∉ squeeze t := by
  fun_induction squeeze t with
  | case1 => exact List.not_mem_nil
  | case2 c t hc ih => simp [ih]
  | case3 c t hc ih =>
    have hne : '\n' ≠ c := by
      rintro rfl
      exact hc (by decide)
    simp [hne, ih]

end Flow

/-! ## Reading -/

namespace Markup

/-- Text without a bracket is read as one piece behind the placeholder. -/
theorem read_reserveNames_of_notMem {t u : Text} (ht : '<' ∉ t) (hdecode : Reference.decode t = .ok u) :
    read (reserveNames t) =
      ⟨.startDocument :: .startElement placeholderName.lower [] ::
        .endElement placeholderName.lower :: (Reading.characterEvents u ++ [.endDocument]), none⟩ := by
  have htext (p : Position) : Reading.startingAt p none t = ⟨Reading.characterEvents u, none⟩ := by
    have hrun := Reading.startingAt_text ht Text.atBracket_nil p
    rw [List.append_nil] at hrun
    rw [hrun, Reading.ofCharacters_of_decode hdecode]
    simp [Reading.prepend]
  obtain ⟨q, hq⟩ := startingAt_placeholder t Position.start
  rw [read, reserveNames_eq, reserveTags_of_notMem ht, hq, htext]
  rfl

end Markup

/-! ## Formatting -/

namespace Draft

variable {lookup? : Option Image.Lookup} {n : Nat} {d : Draft}

/-- The tags of the placeholder in front of a document mean nothing to either side. -/
theorem receive_placeholder {e : Event} (he : e.name? = some Markup.placeholderName.lower) :
    (intercepted lookup?).receive n e d = .ok d := by
  have htag : Intercept.Tag.ofName? Markup.placeholderName.lower = none := by decide +kernel
  have hflow : Flow.Tag.ofName? Markup.placeholderName.lower = none := by decide +kernel
  have hdeclined : ∀ name, e.name? = some name → Intercept.Tag.ofName? name = none := by
    intro name hname
    cases he.symm.trans hname
    exact htag
  rw [receive_of_declined hdeclined]
  cases e with
  | startElement name attributes =>
    cases he
    simp only [Flow.State.receive, hflow]
    rfl
  | endElement name =>
    cases he
    simp only [Flow.State.receive, hflow]
    rfl
  | _ => cases he

/-- Character data is all that escaped text comes to, so the draft is the text with its white space
collapsed. -/
theorem run_escape (lookup? : Option Image.Lookup) (t : Intercept.State) (s : Text) :
    (intercepted lookup?).run (Markup.read (Markup.reserveNames (Reference.escape s))).events
      (t, {}) = .ok (t, { canvas := Buffer.ofText (Flow.collapse '\n' s) }) := by
  rw [Markup.read_reserveNames_of_notMem (Reference.bracket_notMem_escape s)
    (Reference.decode_escape s)]
  have hdocument (n : Nat) (d : Draft) :
      (intercepted lookup?).receive n .startDocument d = .ok d := rfl
  rw [Consumer.run, Consumer.runFrom_cons_of_ok (hdocument _ _),
    Consumer.runFrom_cons_of_ok (receive_placeholder rfl),
    Consumer.runFrom_cons_of_ok (receive_placeholder rfl)]
  by_cases hs : s = []
  · subst hs
    rfl
  · rw [Markup.Reading.characterEvents, if_neg hs]
    rfl

end Draft

/-- Without a newline at its end a canvas is trimmed already. -/
theorem Canvas.trimEnd_of_notMem {c : Canvas} (h : '\n' ∉ c.text) : c.trimEnd = c := by
  apply Buffer.trimEnd_of_endsWithNewline
  rw [Buffer.endsWithNewline, Text.endsWithNewline]
  cases hlast : c.text.getLast? with
  | none => rfl
  | some x =>
    have hx : x ≠ '\n' := by
      rintro rfl
      exact h (List.mem_of_getLast? hlast)
    simp [hx]

/-- **Escaped text is shown as it is.** For every text `s`, trimmed or not, formatting the escaped
text fails only where the indentation cannot be rounded; otherwise nothing is styled, and what is
shown is `s` with every run of white space as one space, but without the run at its start. -/
theorem format_escape (r : Request) (s : Text) :
    ∃ c : Canvas, c.annotations = [] ∧ c.text = Flow.squeeze (s.dropWhile Flow.isSpace) ∧
      (format r (Reference.escape s)).result =
        match r.interceptor with
        | .error e => .error (.indent e)
        | .ok _ => .ok c := by
  refine ⟨Buffer.ofText (Flow.collapse '\n' s), rfl, Flow.collapse_newline s, ?_⟩
  rcases ht : r.interceptor with e | t
  · exact result_of_interceptor_error ht _
  · have hfault : (Markup.read (Markup.reserveNames (Reference.escape s))).fault = none := by
      rw [Markup.read_reserveNames_of_notMem (Reference.bracket_notMem_escape s)
        (Reference.decode_escape s)]
    have hnewline : '\n' ∉ (Buffer.ofText (Flow.collapse '\n' s) : Canvas).text := by
      rw [Buffer.ofText, Flow.collapse_newline]
      exact Flow.newline_notMem_squeeze _
    have hresult : (format r (Reference.escape s)).result =
        .ok (if r.trim then Buffer.trimEnd (Buffer.ofText (Flow.collapse '\n' s))
          else Buffer.ofText (Flow.collapse '\n' s)) := by
      simp only [format, ht, Draft.run_escape, Formatted.map, Formatted.ofRun, hfault]
      rfl
    rw [hresult, Canvas.trimEnd_of_notMem hnewline, ite_self]

end StyledText
