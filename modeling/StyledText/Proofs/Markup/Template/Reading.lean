import StyledText.Proofs.Markup.Template.Construct

/-!
# Reading with open names

Two readers that go over one template, with plain names and with reserved ones, take the same
pieces: raw text up to the same end tag (`RawElement.split?_fill`), constructs as in
`Construct.filled`, and text up to the same bracket. So their readings end at the same place of the
template, if a fault ends them at all (`Reading.stops`). Where names are longer the place is further
on; it is never a place inside of a tag that has been renamed (`Template.CleanCut`).
-/

namespace StyledText

namespace Markup

open Spelling

/-! ## Raw text -/

namespace RawElement

variable {e : RawElement} {w s : Text} {T : Template}

/-- Whether a word and a text part at some place where both have a letter. -/
def parts : Text → Text → Bool
  | letter :: word, c :: t => !sameLetter letter c || parts word t
  | _, _ => false

/-- A word that parts from the text at some place does not stand there, whatever comes behind it. -/
theorem afterWord?_of_parts (h : parts w s = true) (t : Text) : afterWord? w (s ++ t) = none := by
  induction w generalizing s with
  | nil => simp [parts] at h
  | cons letter w ih =>
    cases s with
    | nil => simp [parts] at h
    | cons c s =>
      rw [List.cons_append, afterWord?]
      rw [parts, Bool.or_eq_true, Bool.not_eq_true'] at h
      split
      next hsame => exact ih (h.resolve_left (by simp [hsame]))
      next => rfl

/-- No name is like a part of the name of an element of raw text, in neither spelling. -/
theorem afterWord?_name (hw : w <:+ e.name) (hne : w ≠ []) (σ : Spelling) (r : Renamed) (t : Text) :
    afterWord? w (σ.name r ++ t) = none := by
  have hall : e.name.tails.all (fun w => w = [] || parts w (σ.name r)) = true := by
    cases σ <;> cases r <;> cases e <;> decide
  have hparts := List.all_eq_true.mp hall w ((List.mem_tails w e.name).mpr hw)
  simp only [hne, decide_false, Bool.false_or] at hparts
  exact afterWord?_of_parts hparts t

/-- The word ends at the same place in both, with no name before it. -/
theorem afterWord?_fill (hw : w <:+ e.name) (T : Template) :
    (∀ σ : Spelling, afterWord? w (σ.fill T) = none) ∨
      ∃ s B, T = Template.ofText s ++ B ∧ ∀ σ : Spelling, afterWord? w (σ.fill T) = some (σ.fill B) := by
  induction w generalizing T with
  | nil => exact .inr ⟨[], T, rfl, fun σ => rfl⟩
  | cons letter w ih =>
    rcases T with _ | ⟨s, T⟩
    · exact .inl fun σ => rfl
    cases s with
    | name r => exact .inl fun σ => afterWord?_name hw (List.cons_ne_nil _ _) σ r _
    | char c =>
      cases hsame : sameLetter letter c with
      | false => exact .inl fun σ => by rw [fill_char, afterWord?, hsame]; rfl
      | true =>
        have hstep (σ : Spelling) : afterWord? (letter :: w) (σ.fill (.char c :: T)) =
            afterWord? w (σ.fill T) := by
          rw [fill_char, afterWord?, hsame]
          rfl
        rcases ih ((List.suffix_cons letter w).trans hw) T with hnone | ⟨s, B, rfl, hsome⟩
        · exact .inl fun σ => by rw [hstep, hnone]
        · exact .inr ⟨c :: s, B, rfl, fun σ => by rw [hstep, hsome]⟩

/-- Blanks hold no name, so they end at the same place in both. -/
theorem exists_dropWhile_isBlank (T : Template) :
    ∃ b, T = Template.ofText b ++ T.dropWhile (Symbol.has Text.isBlank) := by
  obtain ⟨b, hb⟩ := exists_takeWhile_eq_ofText sameOnWords_isBlank T
  exact ⟨b, by rw [← hb, List.takeWhile_append_dropWhile]⟩

theorem endTagBody?_of_close {t u r : Text} (hword : afterWord? e.name (t.dropWhile Text.isBlank) = some u)
    (hclose : u.dropWhile Text.isBlank = '>' :: r) :
    e.endTagBody? ('<' :: '/' :: t) = some (t.take (t.length - r.length - 1)) := by
  simp only [endTagBody?, hword, Option.map_some, hclose]

theorem endTagBody?_of_not_close {t u : Text}
    (hword : afterWord? e.name (t.dropWhile Text.isBlank) = some u)
    (hclose : ∀ r, u.dropWhile Text.isBlank ≠ '>' :: r) : e.endTagBody? ('<' :: '/' :: t) = none := by
  rw [endTagBody?, hword, Option.map_some]
  split
  next heq => exact absurd (Option.some.inj heq) (hclose _)
  next => rfl

theorem endTagBody?_of_not_word {t : Text} (hword : afterWord? e.name (t.dropWhile Text.isBlank) = none) :
    e.endTagBody? ('<' :: '/' :: t) = none := by
  rw [endTagBody?, hword]
  rfl

/-- An end tag of the element is recognised in both or in neither, with no name in it. -/
theorem endTagBody?_fill (e : RawElement) (T : Template) :
    (∀ σ : Spelling, e.endTagBody? (σ.fill T) = none) ∨
      ∃ body B, T = .char '<' :: .char '/' :: (Template.ofText body ++ .char '>' :: B) ∧
        ∀ σ : Spelling, e.endTagBody? (σ.fill T) = some body := by
  by_cases hT : ∃ U, T = .char '<' :: .char '/' :: U
  · obtain ⟨U, rfl⟩ := hT
    obtain ⟨b, hb⟩ := exists_dropWhile_isBlank U
    -- behind the slash: blanks, the word, blanks again and the bracket, each of them without a name
    rcases afterWord?_fill (e := e) (List.suffix_refl _) (U.dropWhile (Symbol.has Text.isBlank)) with
      hnone | ⟨s, D, hD, hsome⟩
    · have hword (σ : Spelling) : afterWord? e.name ((σ.fill U).dropWhile Text.isBlank) = none := by
        rw [dropWhile_fill sameOnWords_isBlank, hnone]
      exact .inl fun σ => endTagBody?_of_not_word (hword σ)
    obtain ⟨b', hb'⟩ := exists_dropWhile_isBlank D
    have hword (σ : Spelling) : afterWord? e.name ((σ.fill U).dropWhile Text.isBlank) =
        some (σ.fill D) := by
      rw [dropWhile_fill sameOnWords_isBlank, hsome]
    by_cases hclose : ∃ B, D.dropWhile (Symbol.has Text.isBlank) = .char '>' :: B
    · obtain ⟨B, hB⟩ := hclose
      have hU : U = Template.ofText (b ++ s ++ b') ++ .char '>' :: B := by
        rw [hb, hD, hb', hB]
        simp [Template.ofText]
      refine .inr ⟨b ++ s ++ b', B, by rw [hU], fun σ => ?_⟩
      have hbody : σ.fill U = (b ++ s ++ b') ++ '>' :: σ.fill B := by
        rw [hU, fill_append, fill_ofText, fill_char]
      have hsize : (σ.fill U).length - (σ.fill B).length - 1 = (b ++ s ++ b').length := by
        rw [hbody, List.length_append, List.length_cons]
        omega
      have hend := endTagBody?_of_close (hword σ) (r := σ.fill B)
        (by rw [dropWhile_fill sameOnWords_isBlank, hB, fill_char])
      rw [fill_char, fill_char, hend, hsize, hbody, List.take_left]
    · refine .inl fun σ => endTagBody?_of_not_close (hword σ) fun r hr => hclose ?_
      rw [dropWhile_fill sameOnWords_isBlank] at hr
      obtain ⟨R, hR, -⟩ := exists_cons_of_fill (by decide) hr
      exact ⟨R, hR⟩
  · -- a name begins with a letter, so it makes no slash out of what is none
    refine .inl fun σ => endTagBody?_of_not_slash fun u hu => hT ?_
    obtain ⟨R, rfl, hrest⟩ := exists_cons_of_fill (by decide) hu
    obtain ⟨R, rfl, -⟩ := exists_cons_of_fill (by decide) hrest
    exact ⟨R, rfl⟩

/-- Text without a bracket is passed over, since an end tag begins with one. -/
theorem split?_append_of_notMem (hs : '<' ∉ s) (t : Text) :
    e.split? (s ++ t) = (e.split? t).map fun (before, body) => (s ++ before, body) := by
  induction s with
  | nil => simp
  | cons c s ih =>
    obtain ⟨hc, hs⟩ := not_or.mp (mt List.mem_cons.mpr hs)
    rw [List.cons_append, split?, endTagBody?_of_ne (Ne.symm hc), ih hs]
    cases e.split? t <;> rfl

/-- Raw text is parted at the same place, by induction over the template. -/
theorem split?_fill (e : RawElement) (T : Template) :
    (∀ σ : Spelling, e.split? (σ.fill T) = none) ∨
      ∃ A body B, T = A ++ .char '<' :: .char '/' :: (Template.ofText body ++ .char '>' :: B) ∧
        ∀ σ : Spelling, e.split? (σ.fill T) = some (σ.fill A, body) := by
  induction T with
  | nil => exact .inl fun σ => rfl
  | cons s T ih =>
    cases s with
    | name r =>
      -- no end tag begins inside of a name
      have hstep (σ : Spelling) : e.split? (σ.fill (.name r :: T)) =
          (e.split? (σ.fill T)).map fun (before, body) => (σ.name r ++ before, body) := by
        refine split?_append_of_notMem (fun hmem => ?_) _
        exact ne_of_isWordChar (isWordChar_of_mem_name hmem) (by decide) rfl
      rcases ih with hnone | ⟨A, body, B, rfl, hsome⟩
      · exact .inl fun σ => by rw [hstep, hnone]; rfl
      · exact .inr ⟨.name r :: A, body, B, rfl, fun σ => by rw [hstep, hsome]; rfl⟩
    | char c =>
      rcases e.endTagBody?_fill (.char c :: T) with hno | ⟨body, B, hT, hbody⟩
      · have hstep (σ : Spelling) : e.split? (σ.fill (.char c :: T)) =
            (e.split? (σ.fill T)).map fun (before, body) => (c :: before, body) := by
          have hno := hno σ
          rw [fill_char] at hno ⊢
          rw [split?, hno]
        rcases ih with hnone | ⟨A, body, B, rfl, hsome⟩
        · exact .inl fun σ => by rw [hstep, hnone]; rfl
        · exact .inr ⟨.char c :: A, body, B, rfl, fun σ => by rw [hstep, hsome]; rfl⟩
      · refine .inr ⟨[], body, B, hT, fun σ => ?_⟩
        have hbody := hbody σ
        rw [fill_char] at hbody ⊢
        rw [split?, hbody]
        rfl

end RawElement

/-! ## Where a reading ends -/

namespace Template

variable {A B P U : Template}

/-- A template is not cut between the name of an end tag and its bracket. -/
def CleanCut (A B : Template) : Prop :=
  (∃ r, A.getLast? = some (.name r)) → B.head? ≠ some (.char '>')

theorem cleanCut_nil (B : Template) : CleanCut [] B := fun ⟨r, hr⟩ => by cases hr

/-- Behind a character every cut is clean, since the name of a tag does not end there. -/
theorem cleanCut_concat (A : Template) (c : Char) (B : Template) : CleanCut (A ++ [.char c]) B := by
  rintro ⟨r, hr⟩
  rw [List.getLast?_concat] at hr
  cases hr

/-- A cut further on is clean where the part behind the first cut is cut cleanly. -/
theorem CleanCut.append (hP : CleanCut P (A ++ B)) (hA : CleanCut A B) : CleanCut (P ++ A) B := by
  rcases List.eq_nil_or_concat A with rfl | ⟨A, s, rfl⟩
  · rwa [List.append_nil]
  · rintro ⟨r, hr⟩
    rw [List.concat_eq_append, ← List.append_assoc, List.getLast?_concat] at hr
    exact hA ⟨r, by rw [List.concat_eq_append, List.getLast?_concat, hr]⟩

end Template

namespace Reading

open Template (CleanCut Placed)

variable {raw raw' : Option RawElement} {P T U : Template}

/-- Where the reading of a template ends: nowhere before the end of it, or at one place, for a
reason that may depend on the names. -/
inductive Stops (raw : Option RawElement) (T : Template) : Prop
  | never (h : ∀ (σ : Spelling) (p : Position), (startingAt p raw (σ.fill T)).fault = none)
  | behind (A B : Template) (hT : T = A ++ B) (hcut : CleanCut A B)
      (h : ∀ (σ : Spelling) (p : Position), ∃ cause,
        (startingAt p raw (σ.fill T)).fault = some ⟨cause, p.after (σ.fill A)⟩)

/-- A piece without a fault, with the rest behind it: the reading ends where that of the rest
ends. -/
theorem Stops.step (h : Stops raw' U) (hcut : CleanCut P U)
    (hstep : ∀ (σ : Spelling) (p : Position), (startingAt p raw (σ.fill (P ++ U))).fault =
      (startingAt (p.after (σ.fill P)) raw' (σ.fill U)).fault) : Stops raw (P ++ U) := by
  cases h with
  | never h => exact .never fun σ p => (hstep σ p).trans (h σ _)
  | behind A B hU hA h =>
    subst hU
    refine .behind (P ++ A) B (List.append_assoc P A B).symm (hcut.append hA) fun σ p => ?_
    obtain ⟨cause, hcause⟩ := h σ (p.after (σ.fill P))
    exact ⟨cause, by rw [hstep, hcause, fill_append, Position.after_append]⟩

/-- Character data, with the rest behind it. Whether its references can be decoded is not up to the
names. -/
theorem Stops.characters (h : Stops none U) (hcut : CleanCut P U)
    (hstep : ∀ (σ : Spelling) (p : Position), startingAt p none (σ.fill (P ++ U)) =
      ofCharacters p (σ.fill P) (startingAt (p.after (σ.fill P)) none (σ.fill U))) :
    Stops none (P ++ U) := by
  by_cases hfails : Reference.Fails (Spelling.plain.fill P)
  · refine .behind [] (P ++ U) rfl (Template.cleanCut_nil _) fun σ p => ?_
    obtain ⟨cause, hcause⟩ := (fails_fill_iff σ P).mpr ((fails_fill_iff .plain P).mp hfails)
    exact ⟨cause, by rw [hstep, ofCharacters_of_error hcause]; rfl⟩
  · refine h.step hcut fun σ p => ?_
    have hdecodes : ¬ Reference.Fails (σ.fill P) :=
      fun hfails' => hfails ((fails_fill_iff .plain P).mpr ((fails_fill_iff σ P).mp hfails'))
    cases hdecode : Reference.decode (σ.fill P) with
    | error cause => exact absurd ⟨cause, hdecode⟩ hdecodes
    | ok u => rw [hstep, ofCharacters_of_decode hdecode, fault_prepend]

/-- Markup that is not finished is text up to the same place, which is no place within a renamed
tag. -/
theorem unfinishedSize_fill (T : Template) :
    ∃ P U, T = P ++ U ∧ CleanCut (.char '<' :: P) U ∧
      ∀ σ : Spelling, unfinishedSize (σ.fill T) = (σ.fill P).length := by
  rcases cut?_fill (c := '>') (by decide) T with hno | ⟨A, B, rfl, hclose⟩
  · rcases cut?_fill (c := '<') (by decide) T with hno' | ⟨A, B, rfl, hopen⟩
    · refine ⟨[], T, rfl, Template.cleanCut_concat [] '<' T, fun σ => ?_⟩
      rw [unfinishedSize, hno, hno']
      rfl
    · refine ⟨A, .char '<' :: B, rfl, fun _ => by simp, fun σ => ?_⟩
      rw [unfinishedSize, hno, hopen]
  · have hcut : CleanCut (.char '<' :: (A ++ [.char '>'])) B :=
      Template.cleanCut_concat (.char '<' :: A) '>' B
    refine ⟨A ++ [.char '>'], B, by simp, hcut, fun σ => ?_⟩
    rw [unfinishedSize, hclose]
    simp

/-- A construct, with the rest behind it, or a bracket that begins none and is text. -/
theorem stops_bracket (hT : Placed (.char '<' :: T)) (hrest : ∀ raw U, U <:+ T → Stops raw U) :
    Stops none (.char '<' :: T) := by
  cases Construct.filled hT with
  | markup A B raw hAB h =>
    have hP : Symbol.char '<' :: T = (.char '<' :: (A ++ [.char '>'])) ++ B := by simp [hAB]
    have hB : B <:+ T := ⟨A ++ [.char '>'], by simp [hAB]⟩
    rw [hP]
    refine (hrest raw B hB).step (Template.cleanCut_concat (.char '<' :: A) '>' B)
      fun σ p => ?_
    obtain ⟨events, hread⟩ := h σ
    have hfill : σ.fill T = σ.fill (A ++ [.char '>']) ++ σ.fill B := by rw [← fill_append, hAB]; simp
    rw [hfill] at hread
    rw [← hP, fill_char, hfill, startingAt_markup hread, fault_prepend]
    rfl
  -- a bracket that begins nothing is text, and the rest of the template begins right behind it
  | text A B hAB hB h =>
    subst hAB
    have hcut : CleanCut (.char '<' :: A) B := by
      cases A with
      | nil => exact Template.cleanCut_concat [] '<' B
      | cons s A => exact fun _ => hB (List.cons_ne_nil s A)
    refine (hrest none B (List.suffix_append A B)).step (P := .char '<' :: A) hcut fun σ p => ?_
    have hread := h σ
    rw [fill_append] at hread
    rw [List.cons_append, fill_char, fill_append, startingAt_noMarkup hread, fault_prepend]
    rfl
  | unfinished h =>
    -- where the text ends is told by the brackets that follow, none of which is in a name
    obtain ⟨P, U, rfl, hcut, hsize⟩ := unfinishedSize_fill T
    refine (hrest none U (List.suffix_append P U)).characters
      (P := .char '<' :: P) hcut fun σ p => ?_
    have hread := h σ
    have hsize := hsize σ
    rw [fill_append] at hread hsize
    rw [List.cons_append, fill_char, fill_append, startingAt_unfinished hread hsize]
    rfl
  | fault h =>
    refine .behind [] _ rfl (Template.cleanCut_nil _) fun σ p => ?_
    obtain ⟨cause, hread, hplace⟩ := h σ
    rw [fill_char, startingAt_fault hread, hplace]
    exact ⟨cause, rfl⟩
  -- the one fault that is reported behind the bracket, where no name has begun
  | noKeyword B hB h =>
    subst hB
    refine .behind [.char '<', .char '!', .char '['] B rfl
      (Template.cleanCut_concat [.char '<', .char '!'] '[' B) fun σ p => ?_
    obtain ⟨opening, hread⟩ := h σ
    rw [fill_char, startingAt_fault hread]
    exact ⟨_, rfl⟩

/-- Text up to the next bracket, with the rest behind it; there is no name in it. -/
theorem stops_text (hT : T ≠ []) (hbracket : T.head? ≠ some (.char '<'))
    (hrest : ∀ U, U <:+ T → U.length < T.length → Stops none U) : Stops none T := by
  obtain ⟨P, U, rfl, hP, hU⟩ : ∃ P U, T = P ++ U ∧ .char '<' ∉ P ∧
      (U = [] ∨ ∃ B, U = .char '<' :: B) := by
    by_cases hmem : .char '<' ∈ T
    · obtain ⟨P, B, hPB, hP⟩ := List.eq_append_cons_of_mem hmem
      exact ⟨P, .char '<' :: B, hPB, hP, .inr ⟨B, rfl⟩⟩
    · exact ⟨T, [], (List.append_nil T).symm, hmem, .inl rfl⟩
  have hnone (σ : Spelling) : '<' ∉ σ.fill P := mt (mem_fill_iff (by decide)).mp hP
  have hbegins (σ : Spelling) : Text.AtBracket (σ.fill U) := by
    rcases hU with rfl | ⟨B, rfl⟩
    · exact Text.atBracket_nil
    · exact Text.atBracket_cons _
  have hcut : CleanCut P U := fun _ => by rcases hU with rfl | ⟨B, rfl⟩ <;> simp
  have hsize : U.length < (P ++ U).length := by
    cases P with
    | nil =>
      rcases hU with rfl | ⟨B, rfl⟩
      · exact absurd rfl hT
      · exact absurd rfl hbracket
    | cons s P => simp only [List.cons_append, List.length_cons, List.length_append]; omega
  refine (hrest U (List.suffix_append P U) hsize).characters hcut fun σ p => ?_
  rw [fill_append, startingAt_text (hnone σ) (hbegins σ)]

/-- Raw text up to an end tag, with the rest behind it, or up to the end of the template. -/
theorem stops_raw (e : RawElement)
    (hrest : ∀ raw U, U <:+ T → U.length < T.length → Stops raw U) : Stops (some e) T := by
  rcases e.split?_fill T with hno | ⟨A, body, B, rfl, hsplit⟩
  · exact .never fun σ p => by rw [startingAt_raw_of_none (hno σ)]
  · obtain ⟨P, hP⟩ : ∃ P : Template,
        P = A ++ .char '<' :: .char '/' :: (Template.ofText body ++ [.char '>']) := ⟨_, rfl⟩
    have hPB : A ++ .char '<' :: .char '/' :: (Template.ofText body ++ .char '>' :: B) = P ++ B := by
      simp [hP]
    have hcut : CleanCut P B := by
      have hend := Template.cleanCut_concat (A ++ .char '<' :: .char '/' :: Template.ofText body) '>' B
      simpa [hP] using hend
    have hsize : B.length < (P ++ B).length := by
      simp only [hP, List.length_append, List.length_cons]
      omega
    rw [hPB] at hrest ⊢
    refine (hrest (if e.closes body then none else some e) B (List.suffix_append P B) hsize).step hcut
      fun σ p => ?_
    have hread := hsplit σ
    simp only [fill_append, fill_char, fill_ofText] at hread
    rw [← hPB, hP]
    simp only [fill_append, fill_char, fill_ofText, fill_nil]
    rw [startingAt_split hread, fault_prepend]

/-- **A reading ends at the same place** for both kinds of name, by induction over the length of the
template. -/
theorem stops (raw : Option RawElement) {T : Template} (hT : Placed T) : Stops raw T := by
  -- the induction is on what is left of the template, where names are placed as before
  induction hlength : T.length using Nat.strongRecOn generalizing raw T with
  | _ n ih =>
    subst hlength
    have hrest (raw : Option RawElement) (U : Template) (hU : U <:+ T) (hsize : U.length < T.length) :
        Stops raw U := ih U.length hsize raw (hT.of_suffix hU) rfl
    cases raw with
    | some e => exact stops_raw e hrest
    | none =>
      by_cases hbracket : T.head? = some (.char '<')
      · obtain ⟨T, rfl⟩ := List.head?_eq_some_iff.mp hbracket
        exact stops_bracket hT fun raw U hU => hrest raw U (hU.trans (List.suffix_cons _ T))
          (Nat.lt_succ_of_le hU.length_le)
      · by_cases hnil : T = []
        · subst hnil
          exact .never fun σ p => by rw [fill_nil, startingAt_nil]
        · exact stops_text hnil hbracket (hrest none)

end Reading

end Markup

end StyledText
