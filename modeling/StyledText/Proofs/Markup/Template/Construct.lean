import Mathlib.Data.List.Chain
import StyledText.Proofs.Markup.Template.StartTag

/-!
# Constructs with open names

What begins at a bracket is found by its first characters, its keyword if it has one, and the
brackets and dashes that close it. The keyword of a marked section is the one word among them, and
names stand only where tags begin (`Template.Placed`), so it holds none. Hence a construct of a
template is of the same kind and ends at the same place whichever names are filled in
(`Construct.filled`).
-/

namespace StyledText

namespace Markup

open Spelling

/-- A symbol and the one behind it: a name stands behind a bracket or a slash. -/
def Symbol.Before (s s' : Symbol) : Prop := ∀ r, s' = .name r → s = .char '<' ∨ s = .char '/'

/-- Whether all names stand behind brackets and slashes, but perhaps the one at the start. -/
def Template.Placed (T : Template) : Prop := T.IsChain Symbol.Before

namespace Template

variable {A B T : Template} {s : Symbol} {p : Char → Bool}

/-- What is left of a template to be read has its names in the same places. -/
theorem Placed.of_suffix (h : Placed T) (hB : B <:+ T) : Placed B := List.IsChain.suffix h hB

/-- Behind another symbol there are no names before the next bracket or slash. So a keyword, which
ends at either of them, is the same text with both kinds of names. -/
theorem Placed.exists_takeWhile_eq_ofText (h : Placed (s :: T)) (hs : s ≠ .char '<' ∧ s ≠ .char '/')
    (hp : p '<' = false ∧ p '/' = false) : ∃ w, T.takeWhile (Symbol.has p) = ofText w := by
  induction T generalizing s with
  | nil => exact ⟨[], rfl⟩
  | cons s' T ih =>
    obtain ⟨hbefore, hrest⟩ := List.isChain_cons_cons.mp h
    cases s' with
    | name r => exact absurd (hbefore r rfl) (not_or.mpr hs)
    | char c =>
      cases hc : p c with
      | false => exact ⟨[], List.takeWhile_cons_of_neg (by simp [Symbol.has, hc])⟩
      | true =>
        have hne : (Symbol.char c) ≠ .char '<' ∧ (Symbol.char c) ≠ .char '/' := by
          refine ⟨?_, ?_⟩ <;> rintro ⟨⟩ <;> simp_all
        obtain ⟨w, hw⟩ := ih hrest hne
        have hhas : Symbol.has p (.char c) = true := hc
        exact ⟨c :: w, by rw [List.takeWhile_cons_of_pos hhas, hw]; rfl⟩

end Template

/-! ## What closes -/

/-- A section is closed by a bracket at last, and by nothing else. -/
theorem MarkedSection.afterAngle?_of_ne {t : Text} (h : ∀ u, t ≠ '>' :: u) : afterAngle? t = none := by
  rw [afterAngle?]
  exact h

/-- Before that comes a square bracket, or two of them. -/
theorem MarkedSection.afterBracket?_of_ne {t : Text} (h : ∀ u, t ≠ ']' :: u) :
    afterBracket? t = none := by
  rw [afterBracket?]
  exact h

/-- A comment is closed behind two dashes, and none of its other characters can begin that. -/
theorem Construct.afterComment?_of_ne {t : Text} (h : ∀ u, t ≠ '-' :: '-' :: u) :
    afterComment? t = none := by
  rw [afterComment?]
  exact h

/-- Whether a reader of the close of a construct, up to a bracket, does not look into names. -/
structure Closing (close? : Text → Option Text) : Prop where
  word : ∀ {c t}, isWordChar c = true → close? (c :: t) = none
  fill : ∀ T : Template, (∀ σ : Spelling, close? (σ.fill T) = none) ∨
    ∃ A B, T = A ++ .char '>' :: B ∧ ∀ σ : Spelling, close? (σ.fill T) = some (σ.fill B)

namespace Closing

variable {close? : Text → Option Text}

/-- Characters of names are passed over in the search for a close, whatever it looks like. -/
theorem afterFirst?_append (h : Closing close?) {w : Text} (hw : ∀ c ∈ w, isWordChar c = true)
    (t : Text) : Text.afterFirst? close? (w ++ t) = Text.afterFirst? close? t := by
  induction w with
  | nil => rfl
  | cons c w ih =>
    rw [List.forall_mem_cons] at hw
    rw [List.cons_append, Text.afterFirst?, h.word hw.1]
    exact ih hw.2

/-- The first close is at the same place, or there is none with either kind of names. -/
theorem afterFirst?_fill (h : Closing close?) (T : Template) :
    (∀ σ : Spelling, Text.afterFirst? close? (σ.fill T) = none) ∨
      ∃ A B, T = A ++ .char '>' :: B ∧
        ∀ σ : Spelling, Text.afterFirst? close? (σ.fill T) = some (σ.fill B) := by
  induction T with
  | nil => exact h.fill []
  | cons s T ih =>
    cases s with
    | name r =>
      -- nothing closes inside of a name
      have hpass (σ : Spelling) : Text.afterFirst? close? (σ.fill (.name r :: T)) =
          Text.afterFirst? close? (σ.fill T) :=
        h.afterFirst?_append (fun c hc => isWordChar_of_mem_name hc) _
      rcases ih with hnone | ⟨A, B, rfl, hsome⟩
      · exact .inl fun σ => by rw [hpass, hnone]
      · exact .inr ⟨.name r :: A, B, rfl, fun σ => by rw [hpass, hsome]⟩
    | char c =>
      have hstep (σ : Spelling) : Text.afterFirst? close? (σ.fill (.char c :: T)) =
          (close? (σ.fill (.char c :: T))).orElse fun _ => Text.afterFirst? close? (σ.fill T) := rfl
      rcases h.fill (.char c :: T) with hnone | ⟨A, B, hT, hsome⟩
      · rcases ih with hnone' | ⟨A, B, rfl, hsome'⟩
        · exact .inl fun σ => by rw [hstep, hnone, hnone']; rfl
        · exact .inr ⟨.char c :: A, B, rfl, fun σ => by rw [hstep, hnone, hsome']; rfl⟩
      · exact .inr ⟨A, B, hT, fun σ => by rw [hstep, hsome]; rfl⟩

/-- A character of a name closes nothing. -/
theorem cons_ne_of_isWordChar {c d : Char} (hc : isWordChar c = true) (hd : isWordChar d = false)
    (t u : Text) : c :: t ≠ d :: u :=
  fun h => ne_of_isWordChar hc hd (List.cons.inj h).1

theorem afterAngle : Closing MarkedSection.afterAngle? where
  word hc := MarkedSection.afterAngle?_of_ne (cons_ne_of_isWordChar hc (by decide) _)
  fill T := by
    by_cases h : ∃ R, T = .char '>' :: R
    · obtain ⟨R, rfl⟩ := h
      exact .inr ⟨[], R, rfl, fun σ => rfl⟩
    · refine .inl fun σ => MarkedSection.afterAngle?_of_ne fun u hu => h ?_
      obtain ⟨R, rfl, -⟩ := exists_cons_of_fill (by decide) hu
      exact ⟨R, rfl⟩

theorem afterBracket (h : Closing close?) :
    Closing fun t => (MarkedSection.afterBracket? t).bind close? where
  word {c t} hc := by
    rw [MarkedSection.afterBracket?_of_ne (cons_ne_of_isWordChar hc (by decide) t)]
    rfl
  fill T := by
    by_cases hbracket : ∃ R, T = .char ']' :: R
    · obtain ⟨R, rfl⟩ := hbracket
      have hstep (σ : Spelling) : ((MarkedSection.afterBracket? (σ.fill (.char ']' :: R))).bind close?) =
          close? (σ.fill (R.dropWhile (Symbol.has Text.isBlank))) := by
        rw [← dropWhile_fill sameOnWords_isBlank]
        rfl
      rcases h.fill (R.dropWhile (Symbol.has Text.isBlank)) with hnone | ⟨A, B, hT, hsome⟩
      · exact .inl fun σ => by rw [hstep, hnone]
      · refine .inr ⟨.char ']' :: (R.takeWhile (Symbol.has Text.isBlank) ++ A), B, ?_, fun σ => by
          rw [hstep, hsome]⟩
        rw [List.cons_append, List.append_assoc, ← hT, List.takeWhile_append_dropWhile]
    · have hnone (σ : Spelling) : MarkedSection.afterBracket? (σ.fill T) = none := by
        refine MarkedSection.afterBracket?_of_ne fun u hu => hbracket ?_
        obtain ⟨R, rfl, -⟩ := exists_cons_of_fill (by decide) hu
        exact ⟨R, rfl⟩
      exact .inl fun σ => by rw [hnone]; rfl

theorem afterComment : Closing Construct.afterComment? where
  word {c t} hc := Construct.afterComment?_of_ne fun u =>
    cons_ne_of_isWordChar hc (by decide) t ('-' :: u)
  fill T := by
    by_cases hdash : ∃ R, T = .char '-' :: .char '-' :: R
    · obtain ⟨R, rfl⟩ := hdash
      have hstep (σ : Spelling) : Construct.afterComment? (σ.fill (.char '-' :: .char '-' :: R)) =
          MarkedSection.afterAngle? (σ.fill (R.dropWhile (Symbol.has Text.isBlank))) := by
        rw [← dropWhile_fill sameOnWords_isBlank]
        rfl
      rcases afterAngle.fill (R.dropWhile (Symbol.has Text.isBlank)) with hnone | ⟨A, B, hT, hsome⟩
      · exact .inl fun σ => by rw [hstep, hnone]
      · refine .inr ⟨.char '-' :: .char '-' :: (R.takeWhile (Symbol.has Text.isBlank) ++ A), B, ?_,
          fun σ => by rw [hstep, hsome]⟩
        rw [List.cons_append, List.cons_append, List.append_assoc, ← hT,
          List.takeWhile_append_dropWhile]
    · refine .inl fun σ => Construct.afterComment?_of_ne fun u hu => hdash ?_
      obtain ⟨R, rfl, hrest⟩ := exists_cons_of_fill (by decide) hu
      obtain ⟨R, rfl, -⟩ := exists_cons_of_fill (by decide) hrest
      exact ⟨R, rfl⟩

end Closing

/-! ## Marked sections -/

namespace MarkedSection

/-- What a marked section is, whichever names are in it. -/
inductive Filled (T : Template) : Prop
  | closed (A B : Template) (hT : T = A ++ .char '>' :: B)
      (h : ∀ σ : Spelling, read (σ.fill T) = .closed (σ.fill B))
  | unfinished (h : ∀ σ : Spelling, read (σ.fill T) = .unfinished)
  | unknownKeyword (word : Text) (h : ∀ σ : Spelling, read (σ.fill T) = .fault (.unknownKeyword word))
  | noKeyword (h : ∀ σ : Spelling, ∃ opening, read (σ.fill T) = .fault (.noKeyword opening))

/-- What a section is whose keyword says how it closes. -/
def closing (close? : Text → Option Text) (t : Text) : Outcome :=
  match Text.afterFirst? close? t with
  | some rest => .closed rest
  | none => .unfinished

/-- A section whose keyword says how it closes is closed at the same bracket, or it is not
finished. -/
theorem Filled.closing {close? : Text → Option Text} (hclose : Closing close?) {T : Template}
    (h : ∀ σ : Spelling, read (σ.fill T) = MarkedSection.closing close? (σ.fill T)) : Filled T := by
  rcases hclose.afterFirst?_fill T with hnone | ⟨A, B, hT, hsome⟩
  · exact .unfinished fun σ => by rw [h, MarkedSection.closing, hnone]
  · exact .closed A B hT fun σ => by rw [h, MarkedSection.closing, hsome]

/-- A square bracket and then a bracket are such a close; blanks may stand between them. -/
theorem closing_singleClose : Closing singleClose? := Closing.afterAngle.afterBracket

theorem closing_doubleClose : Closing doubleClose? := closing_singleClose.afterBracket

/-- All characters of names may stand in a keyword, so a keyword that held a name would go on
through it. That none does is told by the places of names. -/
theorem sameOnWords_isKeywordChar : SameOnWords isKeywordChar true := by
  intro c hc
  rcases (Bool.or_eq_true _ _).mp hc with halpha | hline
  · simp [isKeywordChar, Char.isAlphanum, halpha]
  · obtain rfl := of_decide_eq_true hline
    decide

/-- Behind its square bracket a section begins with no name, and neither does its keyword hold one.
So it is of the same kind whichever names are filled in. -/
theorem filled {T : Template} (hT : Template.Placed (.char '[' :: T)) : Filled T := by
  cases T with
  | nil => exact .unfinished fun σ => rfl
  | cons s T =>
    obtain ⟨hbefore, hrest⟩ := List.isChain_cons_cons.mp hT
    cases s with
    | name r => exact absurd (hbefore r rfl) (by decide)
    | char c =>
      cases hc : c.isAlpha with
      | false =>
        refine .noKeyword fun σ => ⟨('<' :: '!' :: '[' :: σ.fill (.char c :: T)).take 20, ?_⟩
        rw [fill_char, read, hc]
        rfl
      | true =>
        have hne : (Symbol.char c) ≠ .char '<' ∧ (Symbol.char c) ≠ .char '/' := by
          refine ⟨?_, ?_⟩ <;> rintro ⟨⟩ <;> exact absurd hc (by decide)
        -- the keyword is the same text in both, so the same is done about it
        obtain ⟨w, hw⟩ := Template.Placed.exists_takeWhile_eq_ofText hrest hne
          (p := isKeywordChar) (by decide)
        obtain ⟨b, hb⟩ := exists_takeWhile_eq_ofText sameOnWords_isBlank
          (T.dropWhile (Symbol.has isKeywordChar))
        have hread (σ : Spelling) : read (σ.fill (.char c :: T)) =
            if (T.dropWhile (Symbol.has isKeywordChar)).all (Symbol.has Text.isBlank) then .unfinished
            else if Text.lower (c :: w) ∈ doubleKeywords then closing doubleClose? (σ.fill (.char c :: T))
            else if Text.lower (c :: w) ∈ singleKeywords then closing singleClose? (σ.fill (.char c :: T))
            else .fault (.unknownKeyword (c :: w ++ b)) := by
          simp only [fill_char, read, hc, if_true, takeWhile_fill sameOnWords_isKeywordChar, hw,
            dropWhile_fill sameOnWords_isKeywordChar, takeWhile_fill sameOnWords_isBlank, hb, fill_ofText,
            all_fill sameOnWords_isBlank]
          rfl
        split at hread
        · exact .unfinished hread
        split at hread
        · exact .closing closing_doubleClose hread
        split at hread
        · exact .closing closing_singleClose hread
        · exact .unknownKeyword _ hread

end MarkedSection

/-! ## Constructs -/

namespace Construct

/-- The text of a tag up to its bracket: what it reports may depend on the names, but not where it
ends. -/
theorem upToBracket_fill (events : Text → List Event) (T : Template) :
    (∀ σ : Spelling, upToBracket events (σ.fill T) = .unfinished) ∨
      ∃ A B, T = A ++ .char '>' :: B ∧
        ∀ σ : Spelling, upToBracket events (σ.fill T) = .markup (events (σ.fill A)) none (σ.fill B) := by
  rcases cut?_fill (c := '>') (by decide) T with hnone | ⟨A, B, hT, hsome⟩
  · exact .inl fun σ => by rw [upToBracket, hnone]
  · exact .inr ⟨A, B, hT, fun σ => by rw [upToBracket, hsome]⟩

/-- What a bracket in front of a template begins, whichever names are in it: markup that ends at the
same bracket, with the same raw text behind it; text up to the same place, and no bracket stands
there; markup that is not finished; or a fault, for the same reason. -/
inductive Filled (T : Template) : Prop
  | markup (A B : Template) (raw : Option RawElement) (hT : T = A ++ .char '>' :: B)
      (h : ∀ σ : Spelling, ∃ events, read (σ.fill T) = .markup events raw (σ.fill B))
  | text (A B : Template) (hT : T = A ++ B) (hB : A ≠ [] → B.head? ≠ some (.char '>'))
      (h : ∀ σ : Spelling, read (σ.fill T) = .text (σ.fill B))
  | unfinished (h : ∀ σ : Spelling, read (σ.fill T) = .unfinished)
  | fault (h : ∀ σ : Spelling, ∃ cause, read (σ.fill T) = .fault cause ∧
      ∀ p, Reading.faultPosition p cause = p)
  | noKeyword (B : Template) (hT : T = .char '!' :: .char '[' :: B)
      (h : ∀ σ : Spelling, ∃ opening, read (σ.fill T) = .fault (.noKeyword opening))

/-- What begins with a letter or an open name is a start tag, text or unfinished in both. -/
theorem ofStartTag_filled {T : Template} (h : ∀ σ : Spelling, read (σ.fill T) = ofStartTag (σ.fill T)) :
    Filled T := by
  cases StartTag.filled T with
  | text A B hT hB hread =>
    exact .text A B hT (fun _ => hB) fun σ => by rw [h, ofStartTag, hread]
  | unfinished hread => exact .unfinished fun σ => by rw [h, ofStartTag, hread]
  | tag N A B as selfClosing hT hread =>
    obtain ⟨raw, hraw⟩ := ofName?_lower_fill N
    -- which of the attributes cannot be decoded is not up to the names either
    have hfails (σ : Spelling) : (∃ a ∈ as.map fun a : StartTag.OpenAttribute =>
        ((σ.fill a.1).lower, σ.fill a.2), Reference.Fails a.2) ↔
          ∃ a ∈ as, Reference.Fails (Spelling.plain.fill a.2) := by
      simp only [List.mem_map, exists_exists_and_eq_and, fails_fill_iff]
    by_cases hfail : ∃ a ∈ as, Reference.Fails (Spelling.plain.fill a.2)
    · refine .fault fun σ => ?_
      rcases StartTag.decodedAttributes_cases ⟨(σ.fill N).lower, _, selfClosing⟩ with
        ⟨-, hall⟩ | ⟨⟨k, hk⟩, -⟩
      · obtain ⟨a, ha, hfail⟩ := (hfails σ).mpr hfail
        exact absurd hfail (hall a ha)
      · exact ⟨_, (h σ).trans (ofStartTag_of_error (hread σ) hk), fun p => rfl⟩
    · refine .markup A B (if selfClosing then none else raw) hT fun σ => ?_
      rcases StartTag.decodedAttributes_cases ⟨(σ.fill N).lower, _, selfClosing⟩ with
        ⟨⟨as', has'⟩, -⟩ | ⟨-, hnot⟩
      · have hmarkup := (h σ).trans (ofStartTag_of_tag (hread σ) has')
        rw [rawOf?, hraw] at hmarkup
        exact ⟨_, hmarkup⟩
      · exact absurd ((hfails σ).mp hnot) hfail

/-- A declaration that is no comment and no marked section is skipped up to its bracket. -/
theorem read_declaration {t : Text} (hcomment : ∀ u, t ≠ '-' :: '-' :: u) (hsection : ∀ u, t ≠ '[' :: u) :
    read ('!' :: t) = upToBracket (fun _ => []) t := by
  rw [read]
  · exact hcomment
  · exact hsection

/-- What is skipped up to a bracket, or reported by what stands before it, ends at the same one. -/
theorem Filled.upToBracket {s : Symbol} {T : Template} (events : Text → List Event)
    (h : ∀ σ : Spelling, read (σ.fill (s :: T)) = Construct.upToBracket events (σ.fill T)) :
    Filled (s :: T) := by
  rcases upToBracket_fill events T with hnone | ⟨A, B, rfl, hsome⟩
  · exact .unfinished fun σ => by rw [h, hnone]
  · exact .markup (s :: A) B none rfl fun σ => ⟨_, by rw [h, hsome]⟩

/-- A declaration is a comment, a marked section, or skipped. The characters that tell are in no
name, and neither is the end of any of them. -/
theorem declaration_filled {T : Template} (hT : Template.Placed (.char '<' :: .char '!' :: T)) :
    Filled (.char '!' :: T) := by
  by_cases hcomment : ∃ U, T = .char '-' :: .char '-' :: U
  · obtain ⟨U, rfl⟩ := hcomment
    have hread (σ : Spelling) : read (σ.fill (.char '!' :: .char '-' :: .char '-' :: U)) =
        ofComment (σ.fill U) := rfl
    rcases Closing.afterComment.afterFirst?_fill U with hnone | ⟨A, B, rfl, hsome⟩
    · exact .unfinished fun σ => by rw [hread, ofComment, hnone]
    · exact .markup (.char '!' :: .char '-' :: .char '-' :: A) B none rfl fun σ =>
        ⟨[], by rw [hread, ofComment, hsome]⟩
  by_cases hsection : ∃ U, T = .char '[' :: U
  · obtain ⟨U, rfl⟩ := hsection
    have hread (σ : Spelling) : read (σ.fill (.char '!' :: .char '[' :: U)) = ofSection (σ.fill U) := rfl
    cases MarkedSection.filled (hT.of_suffix ⟨[_, _], rfl⟩) with
    | closed A B hU h =>
      exact .markup (.char '!' :: .char '[' :: A) B none (by rw [hU]; rfl) fun σ =>
        ⟨[], by rw [hread, ofSection, h]⟩
    | unfinished h => exact .unfinished fun σ => by rw [hread, ofSection, h]
    | unknownKeyword word h =>
      exact .fault fun σ => ⟨_, by rw [hread, ofSection, h], fun p => rfl⟩
    | noKeyword h =>
      refine .noKeyword U rfl fun σ => ?_
      obtain ⟨opening, hopening⟩ := h σ
      exact ⟨opening, by rw [hread, ofSection, hopening]⟩
  · -- a name stands for a letter, so it makes no comment and no section out of what is none
    refine .upToBracket (fun _ => []) fun σ => read_declaration ?_ ?_
    · intro u hu
      obtain ⟨R, rfl, hrest⟩ := exists_cons_of_fill (by decide) hu
      obtain ⟨R, rfl, -⟩ := exists_cons_of_fill (by decide) hrest
      exact hcomment ⟨R, rfl⟩
    · intro u hu
      obtain ⟨R, rfl, -⟩ := exists_cons_of_fill (by decide) hu
      exact hsection ⟨R, rfl⟩

/-- **Constructs** are the same in both. The first symbol behind the bracket tells the kind; if it
is an open name, that is a start tag. -/
theorem filled {T : Template} (hT : Template.Placed (.char '<' :: T)) : Filled T := by
  rcases T with _ | ⟨s, T⟩
  · exact .text [] [] rfl (fun h => absurd rfl h) fun σ => rfl
  cases s with
  | name r =>
    refine ofStartTag_filled fun σ => ?_
    obtain ⟨c, t, ht, halpha, -⟩ := exists_name_eq_cons σ r
    rw [fill_name, ht, List.cons_append, read_of_isAlpha halpha]
  | char c =>
    by_cases hslash : c = '/'
    · subst hslash
      exact .upToBracket endEvents fun σ => rfl
    by_cases hquestion : c = '?'
    · subst hquestion
      exact .upToBracket _ fun σ => rfl
    by_cases hmark : c = '!'
    · subst hmark
      exact declaration_filled hT
    cases halpha : c.isAlpha with
    | true => exact ofStartTag_filled fun σ => read_of_isAlpha halpha _
    | false =>
      exact .text [] _ rfl (fun h => absurd rfl h) fun σ =>
        read_of_opensMarkup_eq_false (by simp [Text.opensMarkup, halpha, hslash, hquestion, hmark]) _

end Construct

end Markup

end StyledText
