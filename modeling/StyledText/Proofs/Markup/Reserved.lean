import StyledText.Proofs.Markup.Reading
import StyledText.Proofs.Markup.Rename

/-!
# Documents under reserved names

Names are reserved in the text of a markup, before anything is known of its tags. Here is what comes
of it where the brackets stand for tags only (`Tagged`), the names are in lower case and no other
name begins like one that is replaced: start tags are always renamed, end tags if and only if they
are written without anything but the name. So the tags of the document are those of the markup under
reserved names exactly if all its end tags of lists and links are written so.

* `Reading.Steps` — what one tag gives, in the markup and in that with reserved names;
* `Tagged.steps` — every tag goes that way;
* `tags_read_reserveNames_iff` — whole documents.
-/

namespace StyledText

namespace Markup

/-! ## Written tags -/

/-- A tag as it is written, by what stands between its brackets. -/
inductive WrittenTag where
  | start (inside : Text)
  /-- an end tag, by what stands behind its slash -/
  | stop (body : Text)
  deriving DecidableEq, Repr

namespace WrittenTag

/-- The name of a start tag as it is written. -/
def startName (inside : Text) : Text := inside.takeWhile (!StartTag.endsName ·)

/-- The name that a tag is read under. -/
def name? : WrittenTag → Option Text
  | start inside => some (startName inside).lower
  | stop body => EndTag.name? body

/-- Whether the name is written in lower case. -/
def InLowerCase : WrittenTag → Prop
  | start inside => (startName inside).lower = startName inside
  | stop body => ∀ name, EndTag.name? body = some name → name <:+: body

/-- Whether the name begins like a replaced name only if it is one. -/
def Apart (w : WrittenTag) : Prop :=
  ∀ name, w.name? = some name → ∀ r : Renamed, r.plain <+: name → ∃ r' : Renamed, name = r'.plain

/-- Whether the tag, if it ends an element that is renamed, is written as the name alone. -/
def Exact : WrittenTag → Prop
  | start _ => True
  | stop body => ∀ r : Renamed, EndTag.name? body = some r.plain → body = r.plain

end WrittenTag

/-- The markups in which brackets stand for tags only, with the tags in order; the markup may begin
inside the raw text of an element. -/
inductive Tagged : Option RawElement → Text → List WrittenTag → Prop
  | text {raw : Option RawElement} {x : Text} (hx : '<' ∉ x) : Tagged raw x []
  | start {x inside t : Text} {tag : StartTag} {tags : List WrittenTag} (hx : '<' ∉ x)
      (hinside : '<' ∉ inside) (halpha : inside.head?.any Char.isAlpha)
      (hread : StartTag.read (inside ++ '>' :: t) = .tag tag t)
      (h : Tagged (Construct.rawOf? tag) t tags) :
      Tagged none (x ++ '<' :: (inside ++ '>' :: t)) (.start inside :: tags)
  | stop {x body t : Text} {tags : List WrittenTag} (hx : '<' ∉ x) (hbody : '<' ∉ body)
      (hclose : '>' ∉ body) (hname : (EndTag.name? body).isSome) (h : Tagged none t tags) :
      Tagged none (x ++ '<' :: '/' :: (body ++ '>' :: t)) (.stop body :: tags)
  | rawStop {e : RawElement} {x body t : Text} {tags : List WrittenTag} (hx : '<' ∉ x)
      (hbody : '<' ∉ body) (hclose : '>' ∉ body)
      (hend : e.endTagBody? ('<' :: '/' :: (body ++ '>' :: t)) = some body)
      (hcloses : e.closes body = true) (h : Tagged none t tags) :
      Tagged (some e) (x ++ '<' :: '/' :: (body ++ '>' :: t)) (.stop body :: tags)

/-! ## Reserved names -/

/-- The name that an element comes under once names are reserved. -/
def reservedName (name : Text) : Text :=
  match Renamed.all.find? (·.plain = name) with
  | some r => r.reserved.lower
  | none => name

/-- The event under a reserved name, if its element is renamed. -/
def Event.reserve : Event → Event
  | .startElement name attributes => .startElement (reservedName name) attributes
  | .endElement name => .endElement (reservedName name)
  | e => e

/-- The four names that are replaced come as their reserved names, in lower case as all names of
tags. -/
theorem reservedName_plain (r : Renamed) : reservedName r.plain = r.reserved.lower := by
  cases r <;> rfl

/-- All other names stay. -/
theorem reservedName_of_ne {name : Text} (h : ∀ r : Renamed, name ≠ r.plain) :
    reservedName name = name := by
  have hnone : Renamed.all.find? (·.plain = name) = none :=
    List.find?_eq_none.mpr fun r _ => by simpa using Ne.symm (h r)
  rw [reservedName, hnone]

/-- A reserved name is none that is replaced, so under reserved names no tag is left for the running
text to take as a list or a link. -/
theorem reservedName_ne_plain (name : Text) (r : Renamed) : reservedName name ≠ r.plain := by
  by_cases h : ∃ r' : Renamed, name = r'.plain
  · obtain ⟨r', rfl⟩ := h
    rw [reservedName_plain]
    cases r' <;> cases r <;> decide +kernel
  · rw [reservedName_of_ne (not_exists.mp h)]
    exact not_exists.mp h r

/-- A reserved name is special in no way in which the name is not: renaming makes no element void,
and no void element is renamed. -/
theorem reservedName_mem_voidElements_iff (name : Text) :
    reservedName name ∈ voidElements ↔ name ∈ voidElements := by
  by_cases h : ∃ r : Renamed, name = r.plain
  · obtain ⟨r, rfl⟩ := h
    rw [reservedName_plain]
    cases r <;> decide +kernel
  · rw [reservedName_of_ne (not_exists.mp h)]

/-- Nor does it make an element of raw text or unmake one, so what follows a start tag is read in
the same way. -/
theorem ofName?_reservedName (name : Text) :
    RawElement.ofName? (reservedName name) = RawElement.ofName? name := by
  by_cases h : ∃ r : Renamed, name = r.plain
  · obtain ⟨r, rfl⟩ := h
    rw [reservedName_plain]
    cases r <;> decide +kernel
  · rw [reservedName_of_ne (not_exists.mp h)]

/-- No void element is renamed. -/
theorem ne_plain_of_mem_voidElements {name : Text} (h : name ∈ voidElements) (r : Renamed) :
    name ≠ r.plain := by
  rintro rfl
  cases r <;> exact absurd h (by decide)

/-- A name that is replaced can stand in both kinds of tag as it is. -/
theorem isBareName_plain (r : Renamed) : IsBareName r.plain := by
  cases r <;> exact ⟨by decide, by decide⟩

/-- So can the name that replaces it, with its underscores. -/
theorem isBareName_reserved (r : Renamed) : IsBareName r.reserved := by
  cases r <;> exact ⟨by decide, by decide⟩

/-! ## Steps -/

namespace Reading

variable {w : WrittenTag} {r r' r₁ r₁' : Reading}

/-- What a tag gives in two readings, of a markup and of that with reserved names: both end with a
fault before it, or each gives its events in front of what the rest gives. The events are those
under reserved names if and only if the tag is exact. -/
inductive Steps (w : WrittenTag) (r r' r₁ r₁' : Reading) : Prop
  | fails (hr : r.tags = []) (hr' : r'.tags = []) (hfault : r.fault ≠ none)
  | reads (es es' : List Event) (hr : r.tags = es ++ r₁.tags) (hr' : r'.tags = es' ++ r₁'.tags)
      (hfault : r.fault = r₁.fault) (hlength : es'.length = es.length)
      (hexact : es' = es.map Event.reserve ↔ w.Exact)

/-- Events in front of what the rest gives: all that counts of them are the tags, which must be as
many, and be under reserved names if and only if the tag is exact. -/
theorem Steps.prepend {es es' : List Event}
    (hlength : (es'.filter Event.isTag).length = (es.filter Event.isTag).length)
    (hexact : es'.filter Event.isTag = (es.filter Event.isTag).map Event.reserve ↔ w.Exact)
    (r r' : Reading) : Steps w (r.prepend es) (r'.prepend es') r r' :=
  .reads _ _ (tags_prepend es r) (tags_prepend es' r') rfl hlength hexact

/-- Text in front of a tag is the same in both readings, and so is a fault in it. Only the places
differ at which it stands. -/
theorem Steps.text (h : Steps w r r' r₁ r₁') (t : Text) (p p' : Position) :
    Steps w (ofCharacters p t r) (ofCharacters p' t r') r₁ r₁' := by
  cases hdecode : Reference.decode t with
  | error cause =>
    rw [ofCharacters_of_error hdecode, ofCharacters_of_error hdecode]
    exact .fails rfl rfl (by simp [failed])
  | ok u =>
    rw [ofCharacters_of_decode hdecode, ofCharacters_of_decode hdecode]
    cases h with
    | fails hr hr' hfault => exact .fails (by simp [hr]) (by simp [hr']) hfault
    | reads es es' hr hr' hfault hlength hexact =>
      exact .reads es es' (by simp [hr]) (by simp [hr']) hfault hlength hexact

end Reading

namespace Construct

variable {tag : StartTag} {attributes : Attributes} {body : Text}

/-- What a start tag reports are tags. -/
theorem filter_isTag_startEvents (tag : StartTag) (attributes : Attributes) :
    (startEvents tag attributes).filter Event.isTag = startEvents tag attributes := by
  unfold startEvents
  split <;> rfl

/-- So is what an end tag reports, if anything. -/
theorem filter_isTag_endEvents (body : Text) :
    (endEvents body).filter Event.isTag = endEvents body := by
  unfold endEvents
  split
  · rfl
  · split <;> rfl

/-- A start tag under a reserved name reports what the tag reports, under the reserved name. This
includes the end of an element that is over at once. -/
theorem startEvents_reservedName (tag : StartTag) (attributes : Attributes) :
    startEvents { tag with name := reservedName tag.name } attributes =
      (startEvents tag attributes).map Event.reserve := by
  simp only [startEvents, reservedName_mem_voidElements_iff]
  split <;> rfl

/-- And it opens the same element of raw text, or none. -/
theorem rawOf?_reservedName (tag : StartTag) :
    rawOf? { tag with name := reservedName tag.name } = rawOf? tag := by
  simp only [rawOf?, ofName?_reservedName]

/-- An end tag that is renamed reports the end of the element under its reserved name. -/
theorem endEvents_reserved (r : Renamed) :
    endEvents r.reserved = (endEvents r.plain).map Event.reserve := by
  cases r <;> decide +kernel

/-- An end tag that stays is one under a reserved name exactly if its element is not renamed. This
is where a blank in the tag makes the difference. -/
theorem map_reserve_endEvents_iff :
    endEvents body = (endEvents body).map Event.reserve ↔
      ∀ r : Renamed, EndTag.name? body ≠ some r.plain := by
  unfold endEvents
  cases hname : EndTag.name? body with
  | none => simp
  | some name =>
    by_cases hvoid : name ∈ voidElements
    · simpa [hvoid] using ne_plain_of_mem_voidElements hvoid
    · simp only [if_neg hvoid, List.map_cons, List.map_nil, Event.reserve, Option.some.injEq, ne_eq]
      by_cases h : ∃ r : Renamed, name = r.plain
      · obtain ⟨r, rfl⟩ := h
        have hne := (reservedName_ne_plain r.plain r).symm
        simp only [List.cons.injEq, Event.endElement.injEq, hne, false_and, false_iff]
        exact fun hall => hall r rfl
      · have hall := not_exists.mp h
        simp [reservedName_of_ne hall, hall]

end Construct

/-! ## End tags -/

variable {body inside t x : Text}

/-- A name that is replaced is read as it is in an end tag. -/
theorem name?_plain (r : Renamed) : EndTag.name? r.plain = some r.plain := by
  have hlower : r.plain.lower = r.plain := by cases r <;> rfl
  rw [(isBareName_plain r).name?_eq, hlower]

/-- An end tag that is not the name alone stays as it is written, since the pattern of an end tag
has its bracket in it. -/
theorem reserveTags_stop_of_ne (hbody : '<' ∉ body) (hclose : '>' ∉ body)
    (hne : ∀ r : Renamed, body ≠ r.plain) (t : Text) :
    reserveTags ('<' :: '/' :: (body ++ '>' :: t)) = '<' :: '/' :: (body ++ '>' :: reserveTags t) := by
  have hbegins (r : Renamed) : ¬ r.Begins ('/' :: (body ++ '>' :: t)) := by
    rintro (hstart | hend)
    · obtain ⟨c, s, hplain, hslash, -⟩ := r.exists_plain_eq_cons
      rw [hplain] at hstart
      exact hslash (List.cons_prefix_cons.mp hstart).1
    · obtain ⟨s, hs⟩ := (List.cons_prefix_cons.mp hend).2
      have hplain := (isBareName_plain r).bracket_notMem
      -- both bodies reach to the first bracket
      have hcut := Text.cut?_append_cons hplain s
      have heq : r.plain ++ '>' :: s = body ++ '>' :: t := by simpa using hs
      rw [heq, Text.cut?_append_cons hclose] at hcut
      exact hne r (Prod.mk.inj (Option.some.inj hcut)).1
  have hinside : '<' ∉ '/' :: body ++ ['>'] := by simp [hbody]
  rw [reserveTags_of_not_begins hbegins]
  simpa using congrArg ('<' :: ·) (reserveTags_append_of_notMem hinside t)

/-- **An end tag** outside of raw text goes one of two ways: it is the name alone and is renamed, or
it stays. In the second case it is exact only if its element is not renamed. -/
theorem exists_steps_stop (hbody : '<' ∉ body) (hclose : '>' ∉ body) (t : Text) (p p' : Position) :
    ∃ q q' : Position, Reading.Steps (.stop body)
      (Reading.startingAt p none ('<' :: '/' :: (body ++ '>' :: t)))
      (Reading.startingAt p' none (reserveTags ('<' :: '/' :: (body ++ '>' :: t))))
      (Reading.startingAt q none t) (Reading.startingAt q' none (reserveTags t)) := by
  rw [Reading.startingAt_endTag hclose]
  by_cases h : ∃ r : Renamed, body = r.plain
  · obtain ⟨r, rfl⟩ := h
    rw [reserveTags_end, Reading.startingAt_endTag (isBareName_reserved r).bracket_notMem]
    have hexact : (WrittenTag.stop r.plain).Exact :=
      fun r' hr' => Option.some.inj ((name?_plain r).symm.trans hr')
    have hevents := Construct.endEvents_reserved r
    refine ⟨_, _, .prepend ?_ ?_ _ _⟩ <;>
      rw [Construct.filter_isTag_endEvents, Construct.filter_isTag_endEvents, hevents]
    · exact List.length_map _
    · exact iff_of_true rfl hexact
  · have hne := not_exists.mp h
    rw [reserveTags_stop_of_ne hbody hclose hne, Reading.startingAt_endTag hclose]
    have hexact : (∀ r : Renamed, EndTag.name? body ≠ some r.plain) ↔
        (WrittenTag.stop body).Exact :=
      ⟨fun hall r hr => absurd hr (hall r), fun hexact r hr => hne r (hexact r hr)⟩
    refine ⟨_, _, .prepend rfl ?_ _ _⟩
    rw [Construct.filter_isTag_endEvents]
    exact Construct.map_reserve_endEvents_iff.trans hexact

/-- The end of raw text is no renamed tag. What stands in the text has no bracket, so nothing is
renamed in it either. -/
theorem exists_steps_rawStop {e : RawElement} (hx : '<' ∉ x) (hbody : '<' ∉ body)
    (hclose : '>' ∉ body) (hend : e.endTagBody? ('<' :: '/' :: (body ++ '>' :: t)) = some body)
    (hcloses : e.closes body = true) (p p' : Position) :
    ∃ q q' : Position, Reading.Steps (.stop body)
      (Reading.startingAt p (some e) (x ++ '<' :: '/' :: (body ++ '>' :: t)))
      (Reading.startingAt p' (some e) (reserveTags (x ++ '<' :: '/' :: (body ++ '>' :: t))))
      (Reading.startingAt q none t) (Reading.startingAt q' none (reserveTags t)) := by
  have hname : EndTag.name? body = some e.name := by
    have hplain : EndTag.plainName? body = some e.name := by
      simpa [RawElement.closes] using hcloses
    rw [EndTag.name?, hplain]
    rfl
  -- no element of raw text is one of those that are renamed, so its end tag stays as it is
  have hnone (r : Renamed) : e.name ≠ r.plain := by cases e <;> cases r <;> decide
  have hne (r : Renamed) : body ≠ r.plain := by
    rintro rfl
    exact hnone r (Option.some.inj (hname.symm.trans (name?_plain r)))
  have hend' := RawElement.endTagBody?_exchange hclose hend (reserveTags t)
  rw [reserveTags_append_of_notMem hx, reserveTags_stop_of_ne hbody hclose hne,
    Reading.startingAt_raw (RawElement.split?_append hx hend) hcloses,
    Reading.startingAt_raw (RawElement.split?_append hx hend') hcloses]
  have hreserve : Event.reserve (.endElement e.name) = .endElement e.name :=
    congrArg Event.endElement (reservedName_of_ne hnone)
  have htags : (Reading.characterEvents x ++ [Event.endElement e.name]).filter Event.isTag =
      [.endElement e.name] := by
    rw [List.filter_append, Reading.filter_isTag_characterEvents]
    rfl
  refine ⟨_, _, .prepend rfl ?_ _ _⟩
  rw [htags, List.map_singleton, hreserve]
  exact iff_of_true rfl fun r hr => absurd (Option.some.inj (hname.symm.trans hr)) (hnone r)

/-! ## Start tags -/

/-- What a tag name begins with, by characters of names, does not reach beyond it. So what looks
like the pattern of a start tag is the beginning of its name. -/
theorem StartTag.IsName.prefix_of_prefix {name u w : Text} (h : IsName name u)
    (hw : ∀ c ∈ w, endsName c = false) (hbegin : w <+: name ++ u) : w <+: name := by
  obtain ⟨s, hs⟩ := hbegin
  have htake := h.takeWhile_append
  rw [← hs, List.takeWhile_append_of_pos (fun c hc => by simp [hw c hc])] at htake
  exact ⟨_, htake⟩

/-- A letter begins a name, and not what follows it: the name is not empty. -/
theorem StartTag.IsName.any_isAlpha {name a t : Text} (h : IsName name (a ++ '>' :: t))
    (halpha : (name ++ a).head?.any Char.isAlpha) : name.head?.any Char.isAlpha := by
  cases name with
  | cons c name => exact halpha
  | nil =>
    cases a with
    | nil => cases halpha
    | cons c a =>
      have hends : endsName c = true := h.stops c rfl
      have hletter : c.isAlpha = true := halpha
      have hplain : EndTag.isPlain c = true := by simp [EndTag.isPlain, Char.isAlphanum, hletter]
      cases (EndTag.endsName_eq_false_of_isPlain hplain).symm.trans hends

/-- The inside of a start tag is its name and what follows that, up to the bracket that ends the
tag. -/
theorem WrittenTag.isName_startName (inside t : Text) :
    StartTag.IsName (startName inside)
      (inside.dropWhile (!StartTag.endsName ·) ++ '>' :: t) where
  inside c hc := by
    have hall := List.all_eq_true.mp List.all_takeWhile c hc
    simpa using hall
  stops := by
    rcases hrest : inside.dropWhile (!StartTag.endsName ·) with _ | ⟨c, a⟩
    · simp [StartTag.endsName]
    · have hhead := List.head?_dropWhile_not (!StartTag.endsName ·) inside
      rw [hrest] at hhead
      simpa using hhead

/-- A start tag whose name begins with a letter is renamed as a whole, or stays. The last character
decides whether an attribute may follow at once, and it is judged alike in both names. -/
theorem exists_reserveTags_start {name u : Text} (hname : StartTag.IsName name u)
    (halpha : name.head?.any Char.isAlpha) (hbracket : '<' ∉ name) (hlower : name.lower = name)
    (hapart : ∀ r : Renamed, r.plain <+: name → ∃ r' : Renamed, name = r'.plain) :
    ∃ name' : Text, reserveTags ('<' :: (name ++ u)) = '<' :: (name' ++ reserveTags u) ∧
      name'.lower = reservedName name ∧ name'.head?.any Char.isAlpha ∧
      (∀ c ∈ name', StartTag.endsName c = false) ∧
      name'.getLast?.any StartTag.parts = name.getLast?.any StartTag.parts := by
  by_cases h : ∃ r : Renamed, name = r.plain
  · obtain ⟨r, rfl⟩ := h
    have hbare := isBareName_reserved r
    refine ⟨r.reserved, reserveTags_start r u, (reservedName_plain r).symm, hbare.isAlpha,
      hbare.endsName_eq_false, ?_⟩
    cases r <;> decide
  · -- any other name begins like none that is replaced, and is no slash either
    have hne := not_exists.mp h
    have hbegins (r : Renamed) : ¬ r.Begins (name ++ u) := by
      rintro (hstart | hend)
      · have hplain := (isBareName_plain r).endsName_eq_false
        exact h (hapart r (hname.prefix_of_prefix hplain hstart))
      · obtain ⟨c, s, rfl⟩ : ∃ c s, name = c :: s := by
          cases name with
          | nil => cases halpha
          | cons c s => exact ⟨c, s, rfl⟩
        obtain rfl : '/' = c := (List.cons_prefix_cons.mp hend).1
        exact absurd (show '/'.isAlpha = true from halpha) (by decide)
    refine ⟨name, ?_, ?_, halpha, hname.inside, rfl⟩
    · rw [reserveTags_of_not_begins hbegins, reserveTags_append_of_notMem hbracket]
    · rw [hlower, reservedName_of_ne hne]

/-- Renaming touches no quotation mark and nothing that ends a value, so values of attributes are
read alike. -/
theorem sameQuotes_reserveTags (t : Text) : StartTag.SameQuotes t (reserveTags t) := by
  intro q hq
  have hquote : q = '"' ∨ q = '\'' := by simpa [StartTag.isQuote] using hq
  exact (quote_mem_reserveTags_iff hquote).symm

/-- Behind a bracket a start tag is read by its first letter. -/
theorem Construct.read_startTag {inside t : Text} (h : inside.head?.any Char.isAlpha) :
    read (inside ++ '>' :: t) = ofStartTag (inside ++ '>' :: t) := by
  cases inside with
  | nil => cases h
  | cons c inside => exact read_of_isAlpha h _

/-- A start tag under the reserved name: it is still read as a tag, and as the same but for the
name, with its attributes and whether it is over at once. -/
theorem exists_reserveTags_startTag {tag : StartTag} (hinside : '<' ∉ inside)
    (halpha : inside.head?.any Char.isAlpha)
    (hread : StartTag.read (inside ++ '>' :: t) = .tag tag t)
    (hlower : (WrittenTag.start inside).InLowerCase) (hapart : (WrittenTag.start inside).Apart) :
    ∃ inside' : Text,
      reserveTags ('<' :: (inside ++ '>' :: t)) = '<' :: (inside' ++ '>' :: reserveTags t) ∧
      inside'.head?.any Char.isAlpha ∧
      StartTag.read (inside' ++ '>' :: reserveTags t) =
        .tag { tag with name := reservedName tag.name } (reserveTags t) := by
  obtain ⟨name, a, rfl, hname, hstart⟩ : ∃ name a : Text, inside = name ++ a ∧
      StartTag.IsName name (a ++ '>' :: t) ∧ WrittenTag.startName inside = name :=
    ⟨_, _, List.takeWhile_append_dropWhile.symm, WrittenTag.isName_startName inside t, rfl⟩
  rw [WrittenTag.InLowerCase, hstart] at hlower
  have hapart' : ∀ r : Renamed, r.plain <+: name → ∃ r' : Renamed, name = r'.plain :=
    hapart name (by rw [WrittenTag.name?, hstart, hlower])
  have hbracket : '<' ∉ name ∧ '<' ∉ a ++ ['>'] := by simpa [not_or] using hinside
  obtain ⟨name', hreserve, hlower', halpha', hname', hparts⟩ := exists_reserveTags_start
    hname (hname.any_isAlpha halpha) hbracket.1 hlower hapart'
  -- the attributes are read alike in front of the renamed rest, since renaming changes no quotes
  obtain ⟨htag, hread'⟩ := StartTag.read_exchange (sameQuotes_reserveTags t) hname hname' hparts
    (by rwa [List.append_assoc] at hread)
  rw [hlower', ← hlower, ← htag, ← List.append_assoc] at hread'
  refine ⟨name' ++ a, ?_, ?_, hread'⟩
  · have hrest := reserveTags_append_of_notMem hbracket.2 t
    simp only [List.append_assoc, List.cons_append, List.nil_append] at hrest hreserve ⊢
    rw [hreserve, hrest]
  · cases name' with
    | nil => cases halpha'
    | cons c name' => exact halpha'

/-- **A start tag** is always renamed if its name is one that is replaced, whatever attributes it
has. It goes on with raw text in both readings or in none. -/
theorem exists_steps_start {tag : StartTag} (hinside : '<' ∉ inside)
    (halpha : inside.head?.any Char.isAlpha)
    (hread : StartTag.read (inside ++ '>' :: t) = .tag tag t)
    (hlower : (WrittenTag.start inside).InLowerCase) (hapart : (WrittenTag.start inside).Apart)
    (p p' : Position) :
    ∃ q q' : Position, Reading.Steps (.start inside)
      (Reading.startingAt p none ('<' :: (inside ++ '>' :: t)))
      (Reading.startingAt p' none (reserveTags ('<' :: (inside ++ '>' :: t))))
      (Reading.startingAt q (Construct.rawOf? tag) t)
      (Reading.startingAt q' (Construct.rawOf? tag) (reserveTags t)) := by
  obtain ⟨inside', htext, halpha', hread'⟩ :=
    exists_reserveTags_startTag hinside halpha hread hlower hapart
  rw [htext]
  cases hattributes : tag.decodedAttributes with
  -- the attributes are the same, so they cannot be decoded in either reading
  | error cause =>
    have hfault : Construct.read (inside ++ '>' :: t) = .fault cause := by
      rw [Construct.read_startTag halpha, Construct.ofStartTag_of_error hread hattributes]
    have hfault' : Construct.read (inside' ++ '>' :: reserveTags t) = .fault cause := by
      rw [Construct.read_startTag halpha', Construct.ofStartTag_of_error hread' hattributes]
    rw [Reading.startingAt_fault hfault, Reading.startingAt_fault hfault']
    exact ⟨p, p', .fails rfl rfl (by simp [Reading.failed])⟩
  | ok attributes =>
    have hmarkup : Construct.read (inside ++ ['>'] ++ t) =
        .markup (Construct.startEvents tag attributes) (Construct.rawOf? tag) t := by
      rw [List.append_assoc, List.singleton_append, Construct.read_startTag halpha,
        Construct.ofStartTag_of_tag hread hattributes]
    have hmarkup' : Construct.read (inside' ++ ['>'] ++ reserveTags t) =
        .markup (Construct.startEvents { tag with name := reservedName tag.name } attributes)
          (Construct.rawOf? tag) (reserveTags t) := by
      rw [List.append_assoc, List.singleton_append, Construct.read_startTag halpha',
        Construct.ofStartTag_of_tag hread' hattributes, Construct.rawOf?_reservedName]
    have hstep := Reading.startingAt_markup hmarkup p
    have hstep' := Reading.startingAt_markup hmarkup' p'
    rw [List.append_assoc, List.singleton_append] at hstep hstep'
    rw [hstep, hstep']
    refine ⟨_, _, .prepend ?_ ?_ _ _⟩ <;>
      rw [Construct.filter_isTag_startEvents, Construct.filter_isTag_startEvents,
        Construct.startEvents_reservedName]
    · exact List.length_map _
    · exact iff_of_true rfl trivial

/-! ## Documents -/

/-- Two readings, of a markup with these tags and of that with reserved names: they report the same
tags but for the names if all tags are exact, and, where no fault cuts them short, only then. -/
structure Reading.Reserves (tags : List WrittenTag) (r r' : Reading) : Prop where
  tags_eq : (∀ w ∈ tags, w.Exact) → r'.tags = r.tags.map Event.reserve
  exact : r.fault = none → r'.tags = r.tags.map Event.reserve → ∀ w ∈ tags, w.Exact

/-- One tag in front of others: all of them come under reserved names if it does and the others do,
and where no fault cuts the reading short only then. -/
theorem Reading.Steps.reserves {w : WrittenTag} {tags : List WrittenTag} {r r' r₁ r₁' : Reading}
    (h : Steps w r r' r₁ r₁') (h₁ : Reserves tags r₁ r₁') : Reserves (w :: tags) r r' := by
  cases h with
  | fails hr hr' hfault =>
    refine ⟨fun _ => ?_, fun hnone => absurd hnone hfault⟩
    rw [hr, hr', List.map_nil]
  | reads es es' hr hr' hfault hlength hexact =>
    refine ⟨fun hall => ?_, fun hnone htags => ?_⟩
    · rw [List.forall_mem_cons] at hall
      rw [hr, hr', List.map_append, hexact.mpr hall.1, h₁.tags_eq hall.2]
    · rw [hr, hr', List.map_append] at htags
      have hsplit := List.append_inj htags (by rw [hlength, List.length_map])
      exact List.forall_mem_cons.mpr
        ⟨hexact.mp hsplit.1, h₁.exact (hfault.symm.trans hnone) hsplit.2⟩

/-- There are no tags without brackets, neither in running text nor in raw text. -/
theorem tags_startingAt_of_notMem (hx : '<' ∉ x) (raw : Option RawElement) (p : Position) :
    (Reading.startingAt p raw x).tags = [] := by
  cases raw with
  | some e => rw [Reading.startingAt_raw_of_notMem hx, Reading.tags_nil]
  | none =>
    have htext := Reading.startingAt_text hx Text.atBracket_nil p
    rw [List.append_nil] at htext
    rw [htext]
    cases hdecode : Reference.decode x with
    | error cause =>
      rw [Reading.ofCharacters_of_error hdecode]
      rfl
    | ok u => simp [Reading.ofCharacters_of_decode hdecode]

/-- Text in front of a tag outside of raw text does not count, as nothing in it is renamed and it
reports no tag. -/
theorem Reading.Steps.behindText {w : WrittenTag} {u : Text} {r₁ r₁' : Reading} (hx : '<' ∉ x)
    {p p' : Position}
    (h : Steps w (startingAt (p.after x) none ('<' :: u))
      (startingAt (p'.after x) none (reserveTags ('<' :: u))) r₁ r₁') :
    Steps w (startingAt p none (x ++ '<' :: u)) (startingAt p' none (reserveTags (x ++ '<' :: u)))
      r₁ r₁' := by
  have hbracket : Text.AtBracket (reserveTags ('<' :: u)) := by
    rw [Text.AtBracket, head?_reserveTags]
    exact Text.atBracket_cons u
  rw [reserveTags_append_of_notMem hx, startingAt_text hx (Text.atBracket_cons u),
    startingAt_text hx hbracket]
  exact h.text x p p'

/-- **Every markup whose brackets stand for tags goes this way**, tag by tag. The induction is on
how the markup is made of tags, with a case for each kind. -/
theorem Tagged.reserves {raw : Option RawElement} {h : Text} {tags : List WrittenTag}
    (htags : Tagged raw h tags) (hlower : ∀ w ∈ tags, w.InLowerCase) (hapart : ∀ w ∈ tags, w.Apart)
    (p p' : Position) :
    Reading.Reserves tags (Reading.startingAt p raw h)
      (Reading.startingAt p' raw (reserveTags h)) := by
  induction htags generalizing p p' with
  | @text raw x hx =>
    refine ⟨fun _ => ?_, fun _ _ w hw => absurd hw List.not_mem_nil⟩
    rw [reserveTags_of_notMem hx, tags_startingAt_of_notMem hx, tags_startingAt_of_notMem hx,
      List.map_nil]
  | @start x inside t tag tags hx hinside halpha hread htags ih =>
    rw [List.forall_mem_cons] at hlower hapart
    obtain ⟨q, q', hsteps⟩ := exists_steps_start hinside halpha hread hlower.1 hapart.1
      (p.after x) (p'.after x)
    exact (hsteps.behindText hx).reserves (ih hlower.2 hapart.2 q q')
  | @stop x body t tags hx hbody hclose hname htags ih =>
    rw [List.forall_mem_cons] at hlower hapart
    obtain ⟨q, q', hsteps⟩ := exists_steps_stop hbody hclose t (p.after x) (p'.after x)
    exact (hsteps.behindText hx).reserves (ih hlower.2 hapart.2 q q')
  | @rawStop e x body t tags hx hbody hclose hend hcloses htags ih =>
    rw [List.forall_mem_cons] at hlower hapart
    obtain ⟨q, q', hsteps⟩ := exists_steps_rawStop hx hbody hclose hend hcloses p p'
    exact hsteps.reserves (ih hlower.2 hapart.2 q q')

/-- No event is left under a name that is replaced. -/
theorem name?_reserve_ne_plain (e : Event) (r : Renamed) : e.reserve.name? ≠ some r.plain := by
  cases e with
  | startElement name attributes =>
    exact fun heq => reservedName_ne_plain name r (Option.some.inj heq)
  | endElement name => exact fun heq => reservedName_ne_plain name r (Option.some.inj heq)
  | _ => exact fun heq => nomatch heq

/-- The tags of the placeholder are under no such name either. -/
theorem name?_ne_plain_of_mem_placeholderTags {e : Event} (he : e ∈ placeholderTags)
    (r : Renamed) : e.name? ≠ some r.plain := by
  have hname : placeholderName.lower ≠ r.plain := by cases r <;> decide +kernel
  simp only [placeholderTags, List.mem_cons, List.not_mem_nil, or_false] at he
  rcases he with rfl | rfl <;> exact fun heq => hname (Option.some.inj heq)

/-- **Start tags and end tags are renamed together.** In a markup whose brackets stand for tags
only, whose names are in lower case and in which no other name begins like one that is replaced, let
the end tags of lists, items and links be written as the name alone. Then the tags under reserved
names are those of the placeholder and those of the markup, but for the names, and no tag is left
under a name that is replaced. Where the markup is read to its end, nothing less is enough. -/
theorem tags_read_reserveNames {h : Text} {tags : List WrittenTag} (htags : Tagged none h tags)
    (hlower : ∀ w ∈ tags, w.InLowerCase) (hapart : ∀ w ∈ tags, w.Apart) :
    ((∀ w ∈ tags, w.Exact) →
      (read (reserveNames h)).tags = placeholderTags ++ (read h).tags.map Event.reserve ∧
        ∀ e ∈ (read (reserveNames h)).tags, ∀ r : Renamed, e.name? ≠ some r.plain) ∧
    ((read h).fault = none →
      (read (reserveNames h)).tags = placeholderTags ++ (read h).tags.map Event.reserve →
        ∀ w ∈ tags, w.Exact) := by
  obtain ⟨q, hq⟩ := startingAt_placeholder (reserveTags h) Position.start
  have hreserves := htags.reserves hlower hapart Position.start q
  have hread : (read (reserveNames h)).tags =
      placeholderTags ++ (Reading.startingAt q none (reserveTags h)).tags := by
    rw [tags_read, reserveNames_eq, hq, Reading.tags_prepend]
    rfl
  rw [hread, tags_read, fault_read]
  refine ⟨fun hexact => ?_, fun hfault heq => ?_⟩
  · rw [hreserves.tags_eq hexact]
    refine ⟨rfl, fun e he r => ?_⟩
    rcases List.mem_append.mp he with he | he
    · exact name?_ne_plain_of_mem_placeholderTags he r
    · obtain ⟨e', -, rfl⟩ := List.mem_map.mp he
      exact name?_reserve_ne_plain e' r
  · exact hreserves.exact hfault (List.append_cancel_left heq)

/-- A tag under a name that is replaced is apart, whichever of those names its own begins with. -/
theorem WrittenTag.apart_of_name? {w : WrittenTag} {r : Renamed} (h : w.name? = some r.plain) :
    w.Apart :=
  fun _ hname _ _ => ⟨r, Option.some.inj (hname.symm.trans h)⟩

/-- An end tag of a list or link is in lower case if it has the name in it so. -/
theorem WrittenTag.inLowerCase_stop {r : Renamed} (h : EndTag.name? body = some r.plain)
    (hwritten : r.plain <:+: body) : (stop body).InLowerCase := by
  intro name hname
  obtain rfl : name = r.plain := Option.some.inj (hname.symm.trans h)
  exact hwritten

theorem tags_read_reserveNames_linkWithTarget :
    let h := "<a href=u>x</a>".toList
    let tags : List WrittenTag := [.start "a href=u".toList, .stop "a".toList]
    Tagged none h tags ∧ (∀ w ∈ tags, w.InLowerCase) ∧ (∀ w ∈ tags, w.Apart) ∧
      (∀ w ∈ tags, w.Exact) ∧ (read h).fault = none ∧
      (read (reserveNames h)).tags = placeholderTags ++ (read h).tags.map Event.reserve ∧
      (read h).tags = [.startElement "a".toList [("href".toList, "u".toList)],
        .endElement "a".toList] := by
  intro h tags
  have htext : h = [] ++ '<' :: ("a href=u".toList ++ '>' ::
      (['x'] ++ '<' :: '/' :: ("a".toList ++ '>' :: []))) := by decide
  have hread : StartTag.read
      ("a href=u".toList ++ '>' :: (['x'] ++ '<' :: '/' :: ("a".toList ++ '>' :: []))) =
        .tag ⟨"a".toList, [("href".toList, "u".toList)], false⟩
          (['x'] ++ '<' :: '/' :: ("a".toList ++ '>' :: [])) := by
    decide +kernel
  have hname : EndTag.name? "a".toList = some Renamed.anchor.plain := name?_plain .anchor
  have htagged : Tagged none h tags := by
    rw [htext]
    exact .start (by decide) (by decide) (by decide) hread
      (.stop (by decide) (by decide) (by decide) (by rw [hname]; rfl) (.text (by decide)))
  have hlower : ∀ w ∈ tags, w.InLowerCase := by
    have hstart : (WrittenTag.start "a href=u".toList).InLowerCase := by
      rw [WrittenTag.InLowerCase]
      decide +kernel
    have hstop : (WrittenTag.stop "a".toList).InLowerCase :=
      WrittenTag.inLowerCase_stop hname (List.infix_refl _)
    simpa [tags] using ⟨hstart, hstop⟩
  have hapart : ∀ w ∈ tags, w.Apart := by
    have hstart : (WrittenTag.start "a href=u".toList).Apart :=
      WrittenTag.apart_of_name? (r := .anchor) (by decide +kernel)
    have hstop : (WrittenTag.stop "a".toList).Apart := WrittenTag.apart_of_name? hname
    simpa [tags] using ⟨hstart, hstop⟩
  have hexact : ∀ w ∈ tags, w.Exact := by
    have hstop : (WrittenTag.stop "a".toList).Exact :=
      fun r hr => Option.some.inj ((name?_plain .anchor).symm.trans hr)
    simpa [tags] using ⟨trivial, hstop⟩
  exact ⟨htagged, hlower, hapart, hexact, by decide +kernel,
    ((tags_read_reserveNames htagged hlower hapart).1 hexact).1, by decide +kernel⟩

/-- A blank in the end tag of a list is enough to part the two. -/
theorem not_tags_read_reserveNames :
    ¬ ∀ (h : Text) (tags : List WrittenTag), Tagged none h tags → (∀ w ∈ tags, w.InLowerCase) →
      (∀ w ∈ tags, w.Apart) →
        (read (reserveNames h)).tags = placeholderTags ++ (read h).tags.map Event.reserve := by
  intro hall
  have htext : "a<ul></ul >b".toList =
      ['a'] ++ '<' :: ("ul".toList ++ '>' :: ([] ++ '<' :: '/' :: ("ul ".toList ++ '>' :: ['b']))) := by
    decide
  have hread : StartTag.read
      ("ul".toList ++ '>' :: ([] ++ '<' :: '/' :: ("ul ".toList ++ '>' :: ['b']))) =
        .tag ⟨"ul".toList, [], false⟩ ([] ++ '<' :: '/' :: ("ul ".toList ++ '>' :: ['b'])) := by
    decide +kernel
  have hname : EndTag.name? "ul ".toList = some Renamed.unorderedList.plain := by decide +kernel
  have htagged : Tagged none "a<ul></ul >b".toList [.start "ul".toList, .stop "ul ".toList] := by
    rw [htext]
    exact .start (by decide) (by decide) (by decide) hread
      (.stop (by decide) (by decide) (by decide) (by rw [hname]; rfl) (.text (by decide)))
  have hstart : (WrittenTag.start "ul".toList).InLowerCase := by
    rw [WrittenTag.InLowerCase]
    decide +kernel
  have hstop : (WrittenTag.stop "ul ".toList).InLowerCase :=
    WrittenTag.inLowerCase_stop hname ⟨[], [' '], by decide⟩
  have hstart' : (WrittenTag.start "ul".toList).Apart :=
    WrittenTag.apart_of_name? (r := .unorderedList) (by decide +kernel)
  have hstop' : (WrittenTag.stop "ul ".toList).Apart := WrittenTag.apart_of_name? hname
  have heq := hall "a<ul></ul >b".toList _ htagged (by simpa using ⟨hstart, hstop⟩)
    (by simpa using ⟨hstart', hstop'⟩)
  exact absurd heq (by decide +kernel)

end Markup

end StyledText
