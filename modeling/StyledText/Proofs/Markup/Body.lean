import StyledText.Markup.Reading

/-!
# The body of a document

Between the start and the end of a document a reading reports elements, character data and
processing instructions. An element without content has its two tags side by side there, however
they are written: its end comes with its start, and an end tag of its own is not reported
(`IsBody`).

* `IsBody.append` — pieces side by side;
* `Construct.isBody_of_read` — what one construct reports;
* `Reading.isBody_startingAt` — what is read from any place on;
* `events_read` — whole documents.
-/

namespace StyledText

namespace Markup

/-! ## Bodies -/

/-- What the events between the start and the end of a document are like. -/
structure IsBody (es : List Event) : Prop where
  /-- the document neither starts nor ends in between -/
  inside : ∀ e ∈ es, e ≠ .startDocument ∧ e ≠ .endDocument
  /-- the end of an element without content follows its start at once -/
  start : ∀ i name attributes, es[i]? = some (.startElement name attributes) →
    name ∈ voidElements → es[i + 1]? = some (.endElement name)
  /-- no such element ends in another place -/
  stop : ∀ i name, es[i]? = some (.endElement name) → name ∈ voidElements →
    ∃ j attributes, i = j + 1 ∧ es[j]? = some (.startElement name attributes)
  /-- there is no character data without characters -/
  data : ∀ t, .characters t ∈ es → t ≠ []

variable {es fs : List Event} {e : Event} {name t : Text} {attributes : Attributes}

theorem isBody_nil : IsBody [] where
  inside := by simp
  start := by simp
  stop := by simp
  data := by simp

/-- Pieces side by side. The tags of an element without content are in one of them. -/
theorem IsBody.append (h : IsBody es) (h' : IsBody fs) : IsBody (es ++ fs) where
  inside := by
    intro e he
    rcases List.mem_append.mp he with he | he
    · exact h.inside e he
    · exact h'.inside e he
  -- the start of an element and its end are in one piece, as each piece is a body
  start := by
    intro i name attributes hi hvoid
    rcases Nat.lt_or_ge i es.length with hlt | hge
    · rw [List.getElem?_append_left hlt] at hi
      have hnext := h.start i name attributes hi hvoid
      rwa [List.getElem?_append_left (List.getElem?_eq_some_iff.mp hnext).1]
    · rw [List.getElem?_append_right hge] at hi
      rw [List.getElem?_append_right (Nat.le_succ_of_le hge), Nat.succ_sub hge]
      exact h'.start _ name attributes hi hvoid
  stop := by
    intro i name hi hvoid
    rcases Nat.lt_or_ge i es.length with hlt | hge
    · rw [List.getElem?_append_left hlt] at hi
      obtain ⟨j, attributes, rfl, hj⟩ := h.stop i name hi hvoid
      exact ⟨j, attributes, rfl, by rwa [List.getElem?_append_left (Nat.lt_of_succ_lt hlt)]⟩
    · rw [List.getElem?_append_right hge] at hi
      obtain ⟨j, attributes, hij, hj⟩ := h'.stop _ name hi hvoid
      refine ⟨es.length + j, attributes, by omega, ?_⟩
      rwa [List.getElem?_append_right (Nat.le_add_right _ _), Nat.add_sub_cancel_left]
  data := by
    intro t ht
    rcases List.mem_append.mp ht with ht | ht
    · exact h.data t ht
    · exact h'.data t ht

/-- An event that is no tag of an element without content may stand by itself. -/
theorem isBody_singleton (hinside : e ≠ .startDocument ∧ e ≠ .endDocument)
    (hstart : ∀ name attributes, e = .startElement name attributes → name ∉ voidElements)
    (hstop : ∀ name, e = .endElement name → name ∉ voidElements)
    (hdata : ∀ t, e = .characters t → t ≠ []) : IsBody [e] where
  inside := by
    intro e' he
    rw [List.mem_singleton.mp he]
    exact hinside
  start := by
    intro i name attributes hi hvoid
    exact absurd hvoid (hstart name attributes (List.mem_singleton.mp (List.mem_of_getElem? hi)).symm)
  stop := by
    intro i name hi hvoid
    exact absurd hvoid (hstop name (List.mem_singleton.mp (List.mem_of_getElem? hi)).symm)
  data := by
    intro t ht
    exact hdata t (List.mem_singleton.mp ht).symm

/-- The two tags of an element side by side are a body, whether or not the element may have
content. -/
theorem isBody_pair (name : Text) (attributes : Attributes) :
    IsBody [.startElement name attributes, .endElement name] where
  inside := by simp
  start := by
    intro i name' attributes' hi _
    match i with
    | 0 =>
      cases hi
      rfl
    | 1 => cases hi
    | i + 2 => cases hi
  stop := by
    intro i name' hi _
    match i with
    | 0 => cases hi
    | 1 =>
      cases hi
      exact ⟨0, attributes, rfl, rfl⟩
    | i + 2 => cases hi
  data := by simp

/-! ## What a construct reports -/

namespace Construct

/-- A start tag reports its element, and the end of it as well if it has no content or is closed in
itself. -/
theorem isBody_startEvents (tag : StartTag) (attributes : Attributes) :
    IsBody (startEvents tag attributes) := by
  rw [startEvents]
  split
  next => exact isBody_pair tag.name attributes
  next h =>
    have hvoid : tag.name ∉ voidElements := fun hmem => h (by simp [hmem])
    refine isBody_singleton (by simp) ?_ (by simp) (by simp)
    rintro name attributes ⟨⟩
    exact hvoid

/-- An end tag reports the end of its element, unless the element has no content. -/
theorem isBody_endEvents (body : Text) : IsBody (endEvents body) := by
  rw [endEvents]
  split
  next => exact isBody_nil
  next name hname =>
    split
    next => exact isBody_nil
    next hvoid =>
      refine isBody_singleton (by simp) (by simp) ?_ (by simp)
      rintro name ⟨⟩
      exact hvoid

/-- A processing instruction is no tag, so it may stand by itself. -/
theorem isBody_instructionEvent (content : Text) : IsBody [instructionEvent content] := by
  apply isBody_singleton <;> simp [instructionEvent]

/-- What is reported for the text up to a bracket is a body if it is one for every text. -/
theorem isBody_of_upToBracket {report : Text → List Event} {raw : Option RawElement} {rest : Text}
    (hreport : ∀ body, IsBody (report body)) (h : upToBracket report t = .markup es raw rest) :
    IsBody es := by
  rw [upToBracket] at h
  split at h
  next body _ _ =>
    cases h
    exact hreport body
  next => cases h

/-- **A construct** reports both tags of an element without content, or none of them. -/
theorem isBody_of_read {raw : Option RawElement} {rest : Text}
    (h : read t = .markup es raw rest) : IsBody es := by
  rw [read.eq_def] at h
  split at h
  next => exact isBody_of_upToBracket isBody_endEvents h
  next => exact isBody_of_upToBracket isBody_instructionEvent h
  next =>
    rw [ofComment] at h
    split at h
    next =>
      cases h
      exact isBody_nil
    next => cases h
  next =>
    rw [ofSection] at h
    split at h
    next =>
      cases h
      exact isBody_nil
    next => cases h
    next => cases h
  next => exact isBody_of_upToBracket (fun _ => isBody_nil) h
  next =>
    split at h
    next =>
      rw [ofStartTag] at h
      split at h
      next => cases h
      next => cases h
      next tag _ _ =>
        split at h
        next => cases h
        next attributes _ =>
          cases h
          exact isBody_startEvents tag attributes
    next => cases h
  next => cases h

end Construct

/-! ## Readings -/

theorem RawElement.isBody_end (e : RawElement) : IsBody [.endElement e.name] := by
  refine isBody_singleton (by simp) (by simp) ?_ (by simp)
  rintro name ⟨⟩
  cases e <;> decide

namespace Reading

/-- Character data is reported only where there is some. -/
theorem isBody_characterEvents (t : Text) : IsBody (characterEvents t) := by
  rw [characterEvents]
  split
  next => exact isBody_nil
  next h =>
    refine isBody_singleton (by simp) (by simp) (by simp) ?_
    rintro t ⟨⟩
    exact h

theorem isBody_prepend {r : Reading} (hes : IsBody es) (h : IsBody r.events) :
    IsBody (r.prepend es).events :=
  hes.append h

/-- Character data in front of a body is a body, also where it holds a numeral that cannot be
decoded. -/
theorem isBody_ofCharacters {r : Reading} (h : IsBody r.events) (p : Position) (t : Text) :
    IsBody (ofCharacters p t r).events := by
  rw [ofCharacters]
  split
  next => exact isBody_nil
  next decoded _ => exact isBody_prepend (isBody_characterEvents decoded) h

/-- **From any place on** a reading reports a body, also where a fault cuts it short. -/
theorem isBody_startingAt (p : Position) (raw : Option RawElement) (t : Text) :
    IsBody (startingAt p raw t).events := by
  fun_induction startingAt p raw t with
  | case1 => exact isBody_nil
  | case2 => exact isBody_nil
  | case3 p e c t before body hsplit tag closes events size ih =>
    refine isBody_prepend ((isBody_characterEvents before).append ?_) ih
    split
    · exact RawElement.isBody_end e
    · exact isBody_characterEvents tag
  | case4 => exact isBody_nil
  | case5 p t events raw rest hread size ih => exact isBody_prepend (Construct.isBody_of_read hread) ih
  | case6 p t rest hread size ih => exact isBody_prepend (isBody_characterEvents _) ih
  | case7 p t hread size ih => exact isBody_ofCharacters ih _ _
  | case8 p c t hc run ih => exact isBody_ofCharacters ih _ _

end Reading

/-- **The events of a document**: its start, a body, and its end exactly if reading has met no
fault. -/
theorem events_of_read (t : Text) :
    ∃ body, (read t).events =
        .startDocument :: body ++ (if (read t).fault = none then [.endDocument] else []) ∧
      IsBody body := by
  refine ⟨_, ?_, Reading.isBody_startingAt Position.start none t⟩
  simp only [read, Option.isNone_iff_eq_none]

end Markup

end StyledText
