import Mathlib.Data.List.TakeWhile
import StyledText.Markup.Reading
import StyledText.Markup.Rename
import StyledText.Proofs.Markup.Content
import StyledText.Proofs.Markup.StartTag

/-!
# What a reading is made of

A text is read piece by piece, and each piece gives its events in front of those of the rest. Here a
lemma says for each kind of piece what it gives: text up to the next bracket, a bracket that begins
no markup, a start tag, an end tag, and the end of an element of raw text. `Reading.tags` keeps the
tags among the events, which is where positions and character data drop out.
-/

namespace StyledText

namespace Text

variable {s t : Text}

/-- Whether a text is at its end or at a bracket that may begin markup. -/
def AtBracket (t : Text) : Prop := ∀ x ∈ t.head?, x = '<'

@[simp] theorem atBracket_nil : AtBracket [] := by simp [AtBracket]

@[simp] theorem atBracket_cons (t : Text) : AtBracket ('<' :: t) := by simp [AtBracket]

/-- A piece of text is what `Reading.startingAt` takes before the next bracket. Two texts that meet
at a bracket come apart there again: this is the first of them. -/
theorem takeWhile_append_of_atBracket (hs : '<' ∉ s) (ht : AtBracket t) :
    (s ++ t).takeWhile (· ≠ '<') = s := by
  rw [List.takeWhile_append_of_pos (fun x hx => decide_eq_true (by rintro rfl; exact hs hx))]
  cases t with
  | nil => simp
  | cons x t => simp [ht x rfl]

/-- And this is the second one, which the reading goes on with. -/
theorem dropWhile_append_of_atBracket (hs : '<' ∉ s) (ht : AtBracket t) :
    (s ++ t).dropWhile (· ≠ '<') = t := by
  rw [List.dropWhile_append_of_pos (fun x hx => decide_eq_true (by rintro rfl; exact hs hx))]
  cases t with
  | nil => rfl
  | cons x t => simp [ht x rfl]

/-- No letter is blank. A tag that begins with a letter is therefore not taken for a gap. -/
theorem isBlank_eq_false_of_isAlpha {c : Char} (h : c.isAlpha = true) : isBlank c = false := by
  have h : (decide (c.val ≥ 65 ∧ c.val ≤ 90) || (decide (c.val ≥ 97) && decide (c.val ≤ 122)))
      = true := h
  simp only [Bool.or_eq_true, Bool.and_eq_true, decide_eq_true_eq, ge_iff_le,
    UInt32.le_iff_toNat_le, Char.toNat_val] at h
  have hranges (rest : List (Nat × Nat)) :
      inRanges ((0x09, 0x0D) :: (0x1C, 0x20) :: (0x85, 0x85) :: rest) c.toNat = false := by
    simp only [inRanges]
    grind
  exact hranges _

end Text

namespace Markup

open Text (AtBracket)

/-! ## Tags -/

namespace Reading

variable {p : Position} {events : List Event} {r : Reading} {t u : Text}

/-- The start and end tags among the events. -/
def tags (r : Reading) : List Event := r.events.filter Event.isTag

@[simp] theorem tags_nil (fault : Option Fault) : tags ⟨[], fault⟩ = [] := rfl

/-- Tags in front of a reading come first. With `filter_isTag_characterEvents`, text in front of it
adds none. -/
@[simp] theorem tags_prepend (events : List Event) (r : Reading) :
    (r.prepend events).tags = events.filter Event.isTag ++ r.tags :=
  List.filter_append _ _

@[simp] theorem fault_prepend (events : List Event) (r : Reading) :
    (r.prepend events).fault = r.fault := rfl

@[simp] theorem filter_isTag_characterEvents (t : Text) :
    (characterEvents t).filter Event.isTag = [] := by
  unfold characterEvents
  split <;> rfl

/-- Text whose references can be decoded gives its characters, and the reading goes on behind it. -/
theorem ofCharacters_of_decode (h : Reference.decode t = .ok u) (p : Position) (r : Reading) :
    ofCharacters p t r = r.prepend (characterEvents u) := by
  rw [ofCharacters, h]

/-- A reference that cannot be decoded ends the reading where the piece of text begins, and nothing
of the piece is reported, nor of what stands behind it. -/
theorem ofCharacters_of_error {cause : Cause} (h : Reference.decode t = .error cause)
    (p : Position) (r : Reading) : ofCharacters p t r = failed cause p := by
  rw [ofCharacters, h]

@[simp] theorem ofCharacters_nil (p : Position) (r : Reading) : ofCharacters p [] r = r :=
  ofCharacters_of_decode Reference.decode_nil p r

/-! ## The pieces -/

@[simp] theorem startingAt_nil (p : Position) (raw : Option RawElement) :
    startingAt p raw [] = ⟨[], none⟩ := by
  unfold startingAt
  rfl

/-- Text. A piece of it reaches to the next bracket or to the end, and its references are decoded as
a whole, so none of them reaches into the next piece. -/
theorem startingAt_text (ht : '<' ∉ t) (hu : AtBracket u) (p : Position) :
    startingAt p none (t ++ u) = ofCharacters p t (startingAt (p.after t) none u) := by
  cases t with
  | nil => simp
  | cons c t =>
    obtain ⟨hc, ht⟩ := not_or.mp (mt List.mem_cons.mpr ht)
    rw [List.cons_append, startingAt]
    · rw [Text.takeWhile_append_of_atBracket ht hu, Text.dropWhile_append_of_atBracket ht hu]
    · rintro rfl
      exact hc rfl

/-- Markup. Its events come first, and the reading goes on behind it: inside of the raw text of an
element, if its start tag has opened one. -/
theorem startingAt_markup {raw : Option RawElement} (h : Construct.read (t ++ u) = .markup events raw u)
    (p : Position) :
    startingAt p none ('<' :: (t ++ u)) =
      (startingAt (p.after ('<' :: t)) raw u).prepend events := by
  have hsize : (t ++ u).length - u.length = t.length := by simp
  rw [startingAt, h]
  simp only [hsize, List.take_left', List.drop_left']

/-- What begins like markup and is none is text as it stands. Its references are not decoded, since
they have not been looked for. -/
theorem startingAt_noMarkup (h : Construct.read (t ++ u) = .text u) (p : Position) :
    startingAt p none ('<' :: (t ++ u)) =
      (startingAt (p.after ('<' :: t)) none u).prepend (characterEvents ('<' :: t)) := by
  have hsize : (t ++ u).length - u.length = t.length := by simp
  rw [startingAt, h]
  simp only [hsize, List.take_left', List.drop_left']

/-- A bracket that begins nothing is text by itself, and what stands behind it is read anew. So the
text behind it can still be decoded. -/
theorem startingAt_bracket (h : Construct.read t = .text t) (p : Position) :
    startingAt p none ('<' :: t) =
      (startingAt (p.after ['<']) none t).prepend (characterEvents ['<']) :=
  startingAt_noMarkup (t := []) h p

/-- Markup that is not finished is text, up to a place that only its length tells
(`unfinishedSize`). Here references are decoded after all. -/
theorem startingAt_unfinished (h : Construct.read (t ++ u) = .unfinished)
    (hsize : unfinishedSize (t ++ u) = t.length) (p : Position) :
    startingAt p none ('<' :: (t ++ u)) =
      ofCharacters p ('<' :: t) (startingAt (p.after ('<' :: t)) none u) := by
  rw [startingAt, h]
  simp only [hsize, List.take_left', List.drop_left']

/-- Markup with a fault ends the reading. No event of it is reported; the place of the fault depends
on its cause. -/
theorem startingAt_fault {cause : Cause} (h : Construct.read t = .fault cause) (p : Position) :
    startingAt p none ('<' :: t) = failed cause (faultPosition p cause) := by
  rw [startingAt, h]

end Reading

/-! ## Constructs -/

namespace Construct

variable {c : Char} {body inside t : Text} {tag : StartTag}

/-- Whatever stands between `</` and the first `>` is the body of an end tag, and the reading goes
on behind that `>`. -/
theorem read_endTag (h : '>' ∉ body) (t : Text) :
    read ('/' :: body ++ '>' :: t) = .markup (endEvents body) none t := by
  rw [List.cons_append, read, upToBracket, Text.cut?_append_cons h]

/-- A letter behind the bracket can only begin a start tag. -/
theorem read_of_isAlpha (h : c.isAlpha = true) (t : Text) : read (c :: t) = ofStartTag (c :: t) := by
  unfold read
  split
  next heq => cases heq; cases h
  next heq => cases heq; cases h
  next heq => cases heq; cases h
  next heq => cases heq; cases h
  next heq => cases heq; cases h
  next heq =>
    cases heq
    exact if_pos h
  next heq => cases heq

/-- The element whose raw text follows a start tag. -/
def rawOf? (tag : StartTag) : Option RawElement :=
  if tag.selfClosing then none else RawElement.ofName? tag.name

/-- A start tag with attributes that can be decoded is reported, and if it opens an element of raw
text the reading of its content begins. -/
theorem ofStartTag_of_tag {u : Text} {attributes : Attributes} (h : StartTag.read t = .tag tag u)
    (hattributes : tag.decodedAttributes = .ok attributes) :
    ofStartTag t = .markup (startEvents tag attributes) (rawOf? tag) u := by
  rw [ofStartTag, h]
  simp only [hattributes, rawOf?]

/-- Attributes are decoded before the tag is reported, so a reference in them that cannot be decoded
leaves nothing of the tag. -/
theorem ofStartTag_of_error {u : Text} {cause : Cause} (h : StartTag.read t = .tag tag u)
    (hattributes : tag.decodedAttributes = .error cause) : ofStartTag t = .fault cause := by
  rw [ofStartTag, h]
  simp only [hattributes]

end Construct

/-! ## Bare tags -/

/-- What may occur in a plain name does not end a name. -/
theorem EndTag.endsName_eq_false_of_isPlain {c : Char} (h : isPlain c = true) :
    StartTag.endsName c = false := by
  have hnone : ['\t', '\n', '\r', '\x0c', ' ', '/', '>', '\x00'].all (!isPlain ·) = true := by decide
  cases hends : StartTag.endsName c with
  | false => rfl
  | true =>
    have hplain := List.all_eq_true.mp hnone c (of_decide_eq_true hends)
    rw [h] at hplain
    cases hplain

/-- A name that both kinds of tag take as it is: letters and what else is plain. -/
structure IsBareName (name : Text) : Prop where
  isPlain : name.all EndTag.isPlain = true
  isAlpha : name.head?.any Char.isAlpha = true

namespace IsBareName

variable {name : Text}

/-- A bare name is not empty, and it is its first letter that makes `<` in front of it begin a start
tag. -/
theorem exists_cons (h : IsBareName name) : ∃ c t, name = c :: t ∧ c.isAlpha = true := by
  obtain ⟨c, hc, halpha⟩ := (Option.any_eq_true _ _).mp h.isAlpha
  obtain ⟨t, rfl⟩ := List.head?_eq_some_iff.mp hc
  exact ⟨c, t, rfl, halpha⟩

/-- No character of a bare name ends a name, so a start tag takes the name as a whole. -/
theorem endsName_eq_false (h : IsBareName name) : ∀ c ∈ name, StartTag.endsName c = false :=
  fun c hc => EndTag.endsName_eq_false_of_isPlain (List.all_eq_true.mp h.isPlain c hc)

/-- In particular a bare name holds no bracket, so the first `>` behind it ends the tag. -/
theorem bracket_notMem (h : IsBareName name) : '>' ∉ name :=
  fun hmem => absurd (List.all_eq_true.mp h.isPlain '>' hmem) (by decide)

/-- An end tag closes the element of the name, in lower case, as a start tag of that name has opened
it. -/
theorem name?_eq (h : IsBareName name) : EndTag.name? name = some name.lower := by
  obtain ⟨c, t, rfl, hc⟩ := h.exists_cons
  have ht : ∀ x ∈ t, EndTag.isPlain x = true := fun x hx =>
    List.all_eq_true.mp h.isPlain x (List.mem_cons_of_mem c hx)
  have hdrop : t.dropWhile EndTag.isPlain = [] := List.dropWhile_eq_nil_iff.mpr ht
  have htake : t.takeWhile EndTag.isPlain = t := List.takeWhile_eq_self_iff.mpr ht
  have hblank : (c :: t).dropWhile Text.isBlank = c :: t :=
    List.dropWhile_cons_of_neg (by simp [Text.isBlank_eq_false_of_isAlpha hc])
  have hplain : EndTag.plainName? (c :: t) = some (Text.lower (c :: t)) := by
    simp [EndTag.plainName?, hblank, hc, hdrop, htake]
  rw [EndTag.name?, hplain]
  rfl

end IsBareName

namespace Construct

variable {name : Text}

/-- An element with content has its start reported only. -/
theorem startEvents_of_notMem (hvoid : name ∉ voidElements) (attributes : Attributes) :
    startEvents ⟨name, [], false⟩ attributes = [.startElement name attributes] := by
  simp [startEvents, hvoid]

/-- The end tag of an element that can have content is reported as what it is. The end of a void
element has been reported with its start. -/
theorem endEvents_of_isBareName (h : IsBareName name) (hvoid : name.lower ∉ voidElements) :
    endEvents name = [.endElement name.lower] := by
  rw [endEvents, h.name?_eq]
  exact if_neg hvoid

end Construct

namespace Reading

variable {name u : Text}

/-- A start tag without attributes: the bare name between its brackets. The element may be one of
raw text, which is then read with its own rules. -/
theorem startingAt_bareTag (h : IsBareName name) (u : Text) (p : Position) :
    startingAt p none ('<' :: (name ++ '>' :: u)) =
      (startingAt (p.after ('<' :: (name ++ ['>']))) (RawElement.ofName? name.lower) u).prepend
        (Construct.startEvents ⟨name.lower, [], false⟩ []) := by
  obtain ⟨c, t, rfl, hc⟩ := h.exists_cons
  have hread : Construct.read ((c :: t) ++ ['>'] ++ u) =
      .markup (Construct.startEvents ⟨Text.lower (c :: t), [], false⟩ [])
        (RawElement.ofName? (Text.lower (c :: t))) u := by
    rw [List.append_assoc, List.cons_append, Construct.read_of_isAlpha hc]
    exact Construct.ofStartTag_of_tag (StartTag.read_bare h.endsName_eq_false u) rfl
  simpa using startingAt_markup hread p

/-- An end tag, with anything but `>` in it. What it reports is told by its body alone, and may be
nothing. -/
theorem startingAt_endTag {body : Text} (h : '>' ∉ body) (u : Text) (p : Position) :
    startingAt p none ('<' :: '/' :: (body ++ '>' :: u)) =
      (startingAt (p.after ('<' :: '/' :: (body ++ ['>']))) none u).prepend
        (Construct.endEvents body) := by
  have hread : Construct.read (('/' :: body ++ ['>']) ++ u) =
      .markup (Construct.endEvents body) none u := by
    simpa using Construct.read_endTag h u
  simpa using startingAt_markup hread p

end Reading

/-! ## Raw text -/

namespace RawElement

variable {e : RawElement} {body t x : Text}

/-- The bracket is in no name of an element of raw text, so a word that is compared with the name
cannot reach across it. -/
theorem sameLetter_bracket {letter : Char} (h : letter ∈ e.name) : sameLetter letter '>' = false := by
  have hnone : e.name.all (!sameLetter · '>') = true := by cases e <;> decide
  simpa using List.all_eq_true.mp hnone letter h

/-- A word is read up to the bracket, whatever stands behind that. So text behind an end tag can be
exchanged without a change of the tag. -/
theorem afterWord?_bracket {word a u : Text} (hword : ∀ x ∈ word, sameLetter x '>' = false)
    (h : afterWord? word (a ++ '>' :: t) = some u) :
    ∃ b : Text, b <:+ a ∧ u = b ++ '>' :: t ∧
      ∀ t', afterWord? word (a ++ '>' :: t') = some (b ++ '>' :: t') := by
  induction word generalizing a with
  | nil =>
    cases h
    exact ⟨a, List.suffix_refl a, rfl, fun t' => rfl⟩
  | cons letter word ih =>
    rw [List.forall_mem_cons] at hword
    cases a with
    | nil => simp [afterWord?, hword.1] at h
    | cons c a =>
      simp only [List.cons_append, afterWord?] at h ⊢
      split at h
      next hsame =>
        obtain ⟨b, hb, hu, hread⟩ := ih hword.2 h
        exact ⟨b, hb.trans (List.suffix_cons c a), hu, fun t' => (if_pos hsame).trans (hread t')⟩
      next => cases h

/-- An end tag is recognised by what stands in it. In raw text that is all that counts, since the
rest of the document must not be looked at. -/
theorem endTagBody?_exchange (hbody : '>' ∉ body)
    (h : e.endTagBody? ('<' :: '/' :: (body ++ '>' :: t)) = some body) (t' : Text) :
    e.endTagBody? ('<' :: '/' :: (body ++ '>' :: t')) = some body := by
  have hblank : Text.isBlank '>' = false := by decide
  simp only [endTagBody?, StartTag.dropWhile_bracket hblank] at h ⊢
  cases hword : afterWord? e.name (body.dropWhile Text.isBlank ++ '>' :: t) with
  | none => simp [hword] at h
  | some u =>
    obtain ⟨b, hb, rfl, hread⟩ := afterWord?_bracket (fun x hx => sameLetter_bracket hx) hword
    simp only [hword, hread t', Option.map_some, StartTag.dropWhile_bracket hblank] at h ⊢
    have hrest : b.dropWhile Text.isBlank = [] := by
      rcases hd : b.dropWhile Text.isBlank with _ | ⟨c, r⟩
      · rfl
      · rw [hd] at h
        simp only [List.cons_append] at h
        split at h
        next heq =>
          -- the bracket that ends the tag is behind the body
          obtain rfl : c = '>' := (List.cons.inj (Option.some.inj heq)).1
          have hmem : '>' ∈ b.dropWhile Text.isBlank := by simp [hd]
          exact absurd ((List.dropWhile_sublist _).subset
            (hb.subset ((List.dropWhile_sublist _).subset hmem))) hbody
        next => cases h
    have hsize : (body ++ '>' :: t').length - t'.length - 1 = body.length := by
      simp only [List.length_append, List.length_cons]
      omega
    simp only [hrest, List.nil_append, hsize, List.take_left]

/-- Raw text ends at `</` only, so a bracket before anything else stays in the text. -/
theorem endTagBody?_of_not_slash (h : ∀ u, t ≠ '<' :: '/' :: u) : e.endTagBody? t = none := by
  rw [endTagBody?]
  exact h

/-- And no end tag begins with anything but a bracket, so the characters of raw text can be skipped
one by one. -/
theorem endTagBody?_of_ne {c : Char} (hc : c ≠ '<') (t : Text) : e.endTagBody? (c :: t) = none :=
  endTagBody?_of_not_slash fun _ h => hc (List.cons.inj h).1

/-- In raw text nothing but a bracket can begin the end tag, so text without brackets is skipped and
the tag behind it is found. -/
theorem split?_append (hx : '<' ∉ x) (h : e.endTagBody? ('<' :: t) = some body) :
    e.split? (x ++ '<' :: t) = some (x, body) := by
  induction x with
  | nil => simp [split?, h]
  | cons c x ih =>
    obtain ⟨hc, hx⟩ := not_or.mp (mt List.mem_cons.mpr hx)
    simp [split?, endTagBody?_of_ne (Ne.symm hc), ih hx]

/-- Raw text without any bracket has no end. -/
theorem split?_of_notMem (ht : '<' ∉ t) : e.split? t = none := by
  induction t with
  | nil => rfl
  | cons c t ih =>
    obtain ⟨hc, ht⟩ := not_or.mp (mt List.mem_cons.mpr ht)
    simp [split?, endTagBody?_of_ne (Ne.symm hc), ih ht]

end RawElement

namespace Reading

variable {e : RawElement} {body t x : Text}

/-- Raw text without an end is lost: the rest of the document has been looked through for the end
tag, and nothing of it is reported. -/
theorem startingAt_raw_of_none (h : e.split? t = none) (p : Position) :
    startingAt p (some e) t = ⟨[], none⟩ := by
  cases t with
  | nil => exact startingAt_nil p _
  | cons c t => rw [startingAt, h]

/-- So raw text in which no bracket follows is lost, with the rest of the document. -/
theorem startingAt_raw_of_notMem (ht : '<' ∉ t) (p : Position) :
    startingAt p (some e) t = ⟨[], none⟩ :=
  startingAt_raw_of_none (RawElement.split?_of_notMem ht) p

/-- Raw text is read up to what looks like the end of its element. If the name in it is not that of
the element after all (`closes` is false) it is text, and the element stays open. -/
theorem startingAt_split (hsplit : e.split? (x ++ '<' :: '/' :: (body ++ '>' :: t)) = some (x, body))
    (p : Position) :
    startingAt p (some e) (x ++ '<' :: '/' :: (body ++ '>' :: t)) =
      (startingAt (p.after (x ++ '<' :: '/' :: (body ++ ['>'])))
        (if e.closes body then none else some e) t).prepend
          (characterEvents x ++ if e.closes body then [.endElement e.name]
            else characterEvents ('<' :: '/' :: (body ++ ['>']))) := by
  obtain ⟨c, u, hu⟩ : ∃ c u, x ++ '<' :: '/' :: (body ++ '>' :: t) = c :: u :=
    List.exists_cons_of_ne_nil (by simp)
  have hdrop : u.drop (x.length + body.length + 2) = t := by
    have hwhole : (c :: u).drop (x ++ '<' :: '/' :: (body ++ ['>'])).length = t := by
      rw [← hu, show x ++ '<' :: '/' :: (body ++ '>' :: t) = x ++ '<' :: '/' :: (body ++ ['>']) ++ t
        by simp, List.drop_left]
    have hsize : (x ++ '<' :: '/' :: (body ++ ['>'])).length = x.length + body.length + 2 + 1 := by
      simp only [List.length_append, List.length_cons, List.length_nil]
      omega
    rwa [hsize, List.drop_succ_cons] at hwhole
  rw [hu] at hsplit ⊢
  rw [startingAt, hsplit]
  simp only [hdrop]
  rfl

/-- Raw text up to the end of its element: the text comes as it stands, without any reference
decoded in it, and then the end tag. -/
theorem startingAt_raw (hsplit : e.split? (x ++ '<' :: '/' :: (body ++ '>' :: t)) = some (x, body))
    (hcloses : e.closes body = true) (p : Position) :
    startingAt p (some e) (x ++ '<' :: '/' :: (body ++ '>' :: t)) =
      (startingAt (p.after (x ++ '<' :: '/' :: (body ++ ['>']))) none t).prepend
        (characterEvents x ++ [.endElement e.name]) := by
  rw [startingAt_split hsplit, if_pos hcloses, if_pos hcloses]

end Reading

/-! ## Documents -/

/-- The name of the placeholder element is read as it is written, in both of its tags. -/
theorem isBareName_placeholderName : IsBareName placeholderName :=
  ⟨by decide, by decide⟩

/-- The tags of the element in front of every document. -/
def placeholderTags : List Event :=
  [.startElement placeholderName.lower [], .endElement placeholderName.lower]

/-- The placeholder gives its tags in front of the document, which begins behind it. Its name is
that of no element that is known, so nothing else comes of it. -/
theorem startingAt_append_placeholder (t : Text) (p : Position) :
    Reading.startingAt p none (placeholder ++ t) =
      (Reading.startingAt (p.after placeholder) none t).prepend placeholderTags := by
  have hvoid : placeholderName.lower ∉ voidElements := by decide +kernel
  have hstart := Construct.startEvents_of_notMem hvoid []
  have hend := Construct.endEvents_of_isBareName isBareName_placeholderName hvoid
  have hraw : RawElement.ofName? placeholderName.lower = none := by decide +kernel
  have hplaceholder : placeholder ++ t = '<' :: (placeholderName ++ '>' :: '<' :: '/' ::
      (placeholderName ++ '>' :: t)) := by
    simp [placeholder]
  have hafter : (p.after ('<' :: (placeholderName ++ ['>']))).after
      ('<' :: '/' :: (placeholderName ++ ['>'])) = p.after placeholder := by
    rw [← Position.after_append]
    simp [placeholder]
  rw [hplaceholder, Reading.startingAt_bareTag isBareName_placeholderName, hraw, hstart,
    Reading.startingAt_endTag isBareName_placeholderName.bracket_notMem, hend, hafter]
  rfl

/-- The same where the place at which the document begins does not count. -/
theorem startingAt_placeholder (t : Text) (p : Position) :
    ∃ q : Position, Reading.startingAt p none (placeholder ++ t) =
      (Reading.startingAt q none t).prepend placeholderTags :=
  ⟨_, startingAt_append_placeholder t p⟩

/-- The tags of a document are those that are met from its start on. -/
theorem tags_read (t : Text) : (read t).tags = (Reading.startingAt Position.start none t).tags := by
  rw [read, Reading.tags, List.cons_append, List.filter_cons_of_neg (by decide), List.filter_append]
  cases (Reading.startingAt Position.start none t).fault <;> simp [Reading.tags, Event.isTag, Event.name?]

/-- The end of the document adds no fault, so a document is read as far as its pieces are. -/
theorem fault_read (t : Text) :
    (read t).fault = (Reading.startingAt Position.start none t).fault := rfl

end Markup

end StyledText
