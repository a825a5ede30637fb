import StyledText.Proofs.Markup.Inert
import StyledText.Proofs.Markup.Template

/-!
# Start tags with open names

A start tag parts its text at blanks, slashes, quotes, equals signs and the bracket that closes it.
None of them is in a name, so the tag of a template has the same attributes, but for the names in
them, and ends at the same place whichever names are filled in (`StartTag.filled`). A tag whose
attributes cannot be decoded is a fault with either kind (`StartTag.decodedAttributes_cases`).
-/

namespace StyledText

namespace Markup

open Spelling

variable {T U : Template} {c : Char}

/-! ## Kinds of characters -/

/-- Letters and underscores are not blank. -/
theorem isBlank_of_isWordChar (h : isWordChar c = true) : Text.isBlank c = false := by
  rcases (Bool.or_eq_true _ _).mp h with h | h
  · exact Text.isBlank_eq_false_of_isAlpha h
  · obtain rfl := of_decide_eq_true h
    decide

/-- A search for blanks passes over names as a whole, whichever are filled in. -/
theorem sameOnWords_isBlank : SameOnWords Text.isBlank false := fun _ => isBlank_of_isWordChar

/-- A character that no name has is none of theirs, so a search for it passes over names as well. -/
theorem sameOnWords_eq {d : Char} (hd : isWordChar d = false) : SameOnWords (· = d) false :=
  fun _ hc => decide_eq_false (ne_of_isWordChar hc hd)

namespace StartTag

/-- No name has a quotation mark in it, so none begins or ends a value in quotation marks. -/
theorem sameOnWords_isQuote : SameOnWords isQuote false := by
  intro c hc
  have h₁ : c ≠ '"' := ne_of_isWordChar hc (by decide)
  have h₂ : c ≠ '\'' := ne_of_isWordChar hc (by decide)
  simp [isQuote, h₁, h₂]

/-- No name ends in a character behind which an attribute may follow at once. -/
theorem sameOnWords_parts : SameOnWords parts false := by
  intro c hc
  simp [parts, sameOnWords_isQuote c hc, isBlank_of_isWordChar hc]

/-- The name of a tag does not end within an open name. -/
theorem sameOnWords_endsName : SameOnWords (!endsName ·) true := by
  intro c hc
  have hnone : ['\t', '\n', '\r', '\x0c', ' ', '/', '>', '\x00'].all (!isWordChar ·) = true := by
    decide
  cases hends : endsName c with
  | false => simp [hends]
  | true =>
    have hword := List.all_eq_true.mp hnone c (of_decide_eq_true hends)
    rw [hc] at hword
    cases hword

/-- The name of an attribute does not either. -/
theorem sameOnWords_endsAttribute : SameOnWords (!endsAttribute ·) true := by
  intro c hc
  have h₁ : c ≠ '/' := ne_of_isWordChar hc (by decide)
  have h₂ : c ≠ '=' := ne_of_isWordChar hc (by decide)
  have h₃ : c ≠ '>' := ne_of_isWordChar hc (by decide)
  simp [endsAttribute, isBlank_of_isWordChar hc, h₁, h₂, h₃]

/-- Nor does a value without quotation marks. -/
theorem sameOnWords_endsBare : SameOnWords (!endsBare ·) true := by
  intro c hc
  have h₁ : c ≠ '>' := ne_of_isWordChar hc (by decide)
  simp [endsBare, isBlank_of_isWordChar hc, h₁]

/-! ## Gaps -/

/-- A gap is skipped character by character; it stops before a slash with the bracket behind it,
which ends the tag. -/
theorem skipGap_cons {t : Text} (h : ¬ (c = '/' ∧ t.head? = some '>')) :
    skipGap (c :: t) = if Text.isBlank c || c = '/' then skipGap t else c :: t := by
  rw [skipGap]
  rintro u rfl rfl
  exact h ⟨rfl, rfl⟩

/-- Whether a gap begins is told by two characters, neither of which is in a name where it
counts. -/
theorem startsWithGap_cons {t : Text} :
    startsWithGap (c :: t) = ((Text.isBlank c || c = '/') && !(c = '/' && t.head?.any (· = '>'))) := by
  by_cases hclose : c = '/' ∧ ∃ u, t = '>' :: u
  · obtain ⟨rfl, u, rfl⟩ := hclose
    rfl
  · have hopen : (decide (c = '/') && t.head?.any (· = '>')) = false := by
      rw [← Bool.not_eq_true, Bool.and_eq_true, Option.any_eq_true]
      rintro ⟨hc, x, hx, hbracket⟩
      obtain ⟨u, rfl⟩ := List.head?_eq_some_iff.mp hx
      obtain rfl := of_decide_eq_true hbracket
      exact hclose ⟨of_decide_eq_true hc, u, rfl⟩
    rw [startsWithGap, hopen, Bool.not_false, Bool.and_true]
    rintro u rfl rfl
    exact hclose ⟨rfl, u, rfl⟩

/-- A gap ends at the same place, since it is made of characters that no name has. -/
theorem exists_skipGap_fill (T : Template) :
    ∃ B, B <:+ T ∧ ∀ σ : Spelling, skipGap (σ.fill T) = σ.fill B := by
  induction T with
  | nil => exact ⟨[], List.suffix_refl _, fun σ => rfl⟩
  | cons s T ih =>
    cases s with
    | name r =>
      refine ⟨.name r :: T, List.suffix_refl _, fun σ => ?_⟩
      obtain ⟨c, t, ht, -, hc⟩ := exists_name_eq_cons σ r
      have hslash : c ≠ '/' := ne_of_isWordChar hc (by decide)
      rw [fill_name, ht, List.cons_append, skipGap_cons fun h => hslash h.1]
      simp [isBlank_of_isWordChar hc, hslash]
    | char c =>
      -- a slash before the bracket closes the tag, so it is not in the gap
      by_cases hclose : c = '/' ∧ T.head?.any (Symbol.has (· = '>')) = true
      · obtain ⟨rfl, hhead⟩ := hclose
        refine ⟨.char '/' :: T, List.suffix_refl _, fun σ => ?_⟩
        rw [← any_head?_fill (sameOnWords_eq (by decide)) σ] at hhead
        obtain ⟨x, hx, hbracket⟩ := (Option.any_eq_true _ _).mp hhead
        obtain ⟨t, ht⟩ := List.head?_eq_some_iff.mp hx
        obtain rfl : x = '>' := of_decide_eq_true hbracket
        rw [fill_char, ht, skipGap]
      · have hskip (σ : Spelling) : skipGap (c :: σ.fill T) =
            if Text.isBlank c || c = '/' then skipGap (σ.fill T) else c :: σ.fill T := by
          refine skipGap_cons fun h => hclose ⟨h.1, ?_⟩
          rw [← any_head?_fill (sameOnWords_eq (by decide)) σ, h.2]
          rfl
        cases hc : Text.isBlank c || c = '/' with
        | true =>
          obtain ⟨B, hB, hfill⟩ := ih
          exact ⟨B, hB.trans (List.suffix_cons _ _), fun σ => by
            rw [fill_char, hskip, if_pos hc, hfill]⟩
        | false =>
          exact ⟨.char c :: T, List.suffix_refl _, fun σ => by
            rw [fill_char, hskip, hc]
            rfl⟩

/-- And it begins with either kind of names or with neither. -/
theorem exists_startsWithGap_fill (T : Template) :
    ∃ b, ∀ σ : Spelling, startsWithGap (σ.fill T) = b := by
  cases T with
  | nil => exact ⟨false, fun σ => rfl⟩
  | cons s T =>
    cases s with
    | char c =>
      exact ⟨_, fun σ => by rw [fill_char, startsWithGap_cons, any_head?_fill (sameOnWords_eq (by decide))]⟩
    | name r =>
      refine ⟨false, fun σ => ?_⟩
      obtain ⟨c, t, ht, -, hc⟩ := exists_name_eq_cons σ r
      have hslash : c ≠ '/' := ne_of_isWordChar hc (by decide)
      rw [fill_name, ht, List.cons_append, startsWithGap_cons]
      simp [isBlank_of_isWordChar hc, hslash]

/-! ## Values -/

/-- Whether a value is read in a template, and with either kind of names in it the same one. -/
def Value.Filled (T : Template) (read : Spelling → Value) : Prop :=
  ∃ V parted B, B <:+ T ∧ ∀ σ : Spelling, read σ = ⟨σ.fill V, parted, σ.fill B⟩

/-- What follows a value in a part of a template follows it in the whole. -/
theorem Value.Filled.of_suffix {read : Spelling → Value} (h : Value.Filled T read) (hT : T <:+ U) :
    Value.Filled U read := by
  obtain ⟨V, parted, B, hB, hread⟩ := h
  exact ⟨V, parted, B, hB.trans hT, hread⟩

/-- A value without quotation marks ends at a blank or a bracket, so it ends at the same place and
may have names in it. -/
theorem readBare_filled (T : Template) : Value.Filled T fun σ => readBare (σ.fill T) := by
  refine ⟨T.takeWhile (Symbol.has (!endsBare ·)), false, T.dropWhile (Symbol.has (!endsBare ·)),
    List.dropWhile_suffix _, fun σ => ?_⟩
  simp only [readBare, takeWhile_fill sameOnWords_endsBare, dropWhile_fill sameOnWords_endsBare]

/-- A value that begins at an equals sign: the sign is part of it then, as no value has stood in
front. -/
theorem readBare_equals_filled (T : Template) : Value.Filled T fun σ => readBare ('=' :: σ.fill T) := by
  refine ⟨.char '=' :: T.takeWhile (Symbol.has (!endsBare ·)), false,
    T.dropWhile (Symbol.has (!endsBare ·)), List.dropWhile_suffix _, fun σ => ?_⟩
  have hequals : (!endsBare '=') = true := by decide
  simp only [readBare, List.takeWhile_cons_of_pos (p := (!endsBare ·)) hequals,
    List.dropWhile_cons_of_pos (p := (!endsBare ·)) hequals, takeWhile_fill sameOnWords_endsBare,
    dropWhile_fill sameOnWords_endsBare, fill_char]

/-- A character that is not as those of names are is in no name, so it is a character of the
template. -/
theorem isWordChar_eq_false_of {p : Char → Bool} (h : SameOnWords p false) (hc : p c = true) :
    isWordChar c = false := by
  rw [← Bool.not_eq_true]
  intro hword
  rw [h c hword] at hc
  cases hc

/-- Behind the equals sign the value is quoted or bare with either kind of names; if the quotation
mark is not closed, it is read as a bare one in both. -/
theorem readAfterEquals_filled (several parted : Bool) (hT : T <:+ U) :
    Value.Filled U fun σ => readAfterEquals several parted (σ.fill U) (σ.fill T) := by
  have hdrop := (List.dropWhile_suffix (Symbol.has Text.isBlank) (l := T)).trans hT
  simp only [readAfterEquals, dropWhile_fill sameOnWords_isBlank]
  generalize T.dropWhile (Symbol.has Text.isBlank) = D at hdrop ⊢
  have hbare := (readBare_filled D).of_suffix hdrop
  cases D with
  | nil => exact hbare
  | cons s R =>
    cases s with
    | name r =>
      obtain ⟨V, parted', B, hB, hread⟩ := hbare
      refine ⟨V, parted', B, hB, fun σ => ?_⟩
      obtain ⟨c, t, ht, -, hc⟩ := exists_name_eq_cons σ r
      have hread := hread σ
      simp only [fill_name, ht, List.cons_append] at hread ⊢
      simp only [sameOnWords_isQuote c hc]
      exact hread
    | char q =>
      cases hq : isQuote q with
      | false =>
        simp only [fill_char, hq]
        exact hbare
      | true =>
        simp only [fill_char, hq, if_true]
        rcases cut?_fill (isWordChar_eq_false_of sameOnWords_isQuote hq) R with
          hnone | ⟨A, B, rfl, hcut⟩
        · -- the quote is not closed
          simp only [hnone, any_head?_fill sameOnWords_isBlank]
          split
          · exact ⟨[], true, .char q :: R, hdrop, fun σ => rfl⟩
          split
          · exact (readBare_equals_filled (.char q :: R)).of_suffix hdrop
          · exact ⟨[], parted, U, List.suffix_refl _, fun σ => rfl⟩
        · simp only [hcut]
          have hB : B <:+ .char q :: (A ++ .char q :: B) :=
            ((List.suffix_cons _ _).trans (List.suffix_append _ _)).trans (List.suffix_cons _ _)
          exact ⟨A, true, B, hB.trans hdrop, fun σ => rfl⟩

/-- A value, if there is one: the same with either kind of names, but for the names in it. -/
theorem readValue_filled (parted : Bool) (T : Template) :
    Value.Filled T fun σ => readValue parted (σ.fill T) := by
  have hdrop := List.dropWhile_suffix (Symbol.has Text.isBlank) (l := T)
  simp only [readValue, dropWhile_fill sameOnWords_isBlank]
  generalize T.dropWhile (Symbol.has Text.isBlank) = D at hdrop ⊢
  have hnone : Value.Filled T fun σ => ⟨[], parted, σ.fill T⟩ :=
    ⟨[], parted, T, List.suffix_refl _, fun σ => rfl⟩
  cases D with
  | nil => exact hnone
  | cons s R =>
    cases s with
    | name r =>
      obtain ⟨V, parted', B, hB, hread⟩ := hnone
      refine ⟨V, parted', B, hB, fun σ => ?_⟩
      obtain ⟨c, t, ht, -, hc⟩ := exists_name_eq_cons σ r
      have hequals : c ≠ '=' := ne_of_isWordChar hc (by decide)
      simp only [fill_name, ht, List.cons_append]
      split
      next heq => exact absurd (List.cons.inj heq).1 hequals
      next => exact hread σ
    | char c =>
      by_cases hc : c = '='
      · subst hc
        have hseveral (σ : Spelling) : decide ((σ.fill R).head? = some '=') =
            R.head?.any (Symbol.has (· = '=')) := by
          rw [← any_head?_fill (sameOnWords_eq (by decide)) σ]
          cases (σ.fill R).head? <;> simp
        simp only [fill_char, hseveral, dropWhile_fill (sameOnWords_eq (d := '=') (by decide))]
        exact readAfterEquals_filled _ parted
          (((List.dropWhile_suffix _).trans (List.suffix_cons _ _)).trans hdrop)
      · obtain ⟨V, parted', B, hB, hread⟩ := hnone
        refine ⟨V, parted', B, hB, fun σ => ?_⟩
        simp only [fill_char]
        split
        next heq => exact absurd (List.cons.inj heq).1 hc
        next => exact hread σ

/-! ## Attributes -/

/-- An attribute with open names. -/
abbrev OpenAttribute := Template × Template

/-- The attribute with the names filled in. -/
def OpenAttribute.fill (σ : Spelling) (a : OpenAttribute) : Text × Text := (σ.fill a.1, σ.fill a.2)

/-- Behind the name of an attribute come its value, if it has one, and the gap before the next
attribute. -/
theorem readAttribute?_behind (parted : Bool) (N T : Template) :
    ∃ V parted' B, B <:+ T ∧ ∀ σ : Spelling,
      (let value := readValue parted (σ.fill T)
      some ((σ.fill N, value.text), value.parted || startsWithGap value.rest, skipGap value.rest)) =
        some (OpenAttribute.fill σ (N, V), parted', σ.fill B) := by
  obtain ⟨V, parted₁, R, hR, hvalue⟩ := readValue_filled parted T
  obtain ⟨gap, hgap⟩ := exists_startsWithGap_fill R
  obtain ⟨B, hB, hskip⟩ := exists_skipGap_fill R
  refine ⟨V, parted₁ || gap, B, hB.trans hR, fun σ => ?_⟩
  have hvalue : readValue parted (σ.fill T) = ⟨σ.fill V, parted₁, σ.fill R⟩ := hvalue σ
  simp only [hvalue, hgap, hskip]
  rfl

/-- Whether an attribute may begin with the character. -/
def beginsAttribute (c : Char) : Bool := !(Text.isBlank c || c = '/' || c = '>')

/-- Every character of a name may begin an attribute, so an attribute that begins with an open name
is read as one with both. -/
theorem sameOnWords_beginsAttribute : SameOnWords beginsAttribute true := by
  intro c hc
  have h₁ : c ≠ '/' := ne_of_isWordChar hc (by decide)
  have h₂ : c ≠ '>' := ne_of_isWordChar hc (by decide)
  simp [beginsAttribute, isBlank_of_isWordChar hc, h₁, h₂]

/-- An attribute is read in both, or in neither, and the rest of the tag is the same template. -/
theorem readAttribute?_fill (parted : Bool) (T : Template) :
    (∀ σ : Spelling, readAttribute? parted (σ.fill T) = none) ∨
      ∃ a parted' B, B <:+ T ∧ ∀ σ : Spelling,
        readAttribute? parted (σ.fill T) = some (OpenAttribute.fill σ a, parted', σ.fill B) := by
  cases T with
  | nil => exact .inl fun σ => rfl
  | cons s T =>
    -- the first character belongs to the name whatever it is, and so does the rest of an open name
    obtain ⟨N, hN⟩ : ∃ N, N = s :: T.takeWhile (Symbol.has (!endsAttribute ·)) := ⟨_, rfl⟩
    have hdrop := (List.dropWhile_suffix (Symbol.has (!endsAttribute ·)) (l := T)).trans
      (List.suffix_cons s T)
    have hread (σ : Spelling) : readAttribute? parted (σ.fill (s :: T)) =
        if parted && s.has beginsAttribute then
          let value := readValue ((σ.fill N).getLast?.any isQuote)
            (σ.fill (T.dropWhile (Symbol.has (!endsAttribute ·))))
          some ((σ.fill N, value.text), value.parted || startsWithGap value.rest, skipGap value.rest)
        else none := by
      obtain ⟨c, w, hw, hword, hc⟩ := exists_write_eq_cons σ s
      have hall : ∀ d ∈ w, (!endsAttribute d) = true := fun d hd =>
        sameOnWords_endsAttribute d (hword d hd)
      have hname : σ.fill N = c :: (w ++ σ.fill T).takeWhile (!endsAttribute ·) := by
        rw [List.takeWhile_append_of_pos hall, takeWhile_fill sameOnWords_endsAttribute, hN, fill_cons,
          hw, List.cons_append]
      rw [← hc sameOnWords_beginsAttribute, hname, fill_cons, hw, List.cons_append, readAttribute?,
        List.dropWhile_append_of_pos hall, dropWhile_fill sameOnWords_endsAttribute]
      rfl
    cases hstart : parted && s.has beginsAttribute with
    | false => exact .inl fun σ => by rw [hread, hstart]; rfl
    | true =>
      obtain ⟨V, parted', B, hB, hbehind⟩ := readAttribute?_behind (N.getLast?.any (Symbol.has isQuote)) N
        (T.dropWhile (Symbol.has (!endsAttribute ·)))
      refine .inr ⟨(N, V), parted', B, hB.trans hdrop, fun σ => ?_⟩
      rw [hread, hstart, if_pos rfl, any_getLast?_fill sameOnWords_isQuote]
      exact hbehind σ

/-- All attributes are read in both. The induction is on the length of what is left of the template,
as the reading goes on behind each attribute. -/
theorem readAttributes_fill (parted : Bool) (T : Template) :
    ∃ (as : List OpenAttribute) (B : Template), B <:+ T ∧ ∀ σ : Spelling,
      readAttributes parted (σ.fill T) = (as.map (OpenAttribute.fill σ), σ.fill B) := by
  induction hn : T.length using Nat.strongRecOn generalizing parted T with
  | ind n ih =>
    rcases readAttribute?_fill parted T with hnone | ⟨a, parted', R, hR, hsome⟩
    · exact ⟨[], T, List.suffix_refl T, fun σ => readAttributes_of_none (hnone σ)⟩
    · have hshorter : R.length < n := by
        refine hn ▸ Nat.lt_of_le_of_ne hR.length_le fun heq => ?_
        obtain rfl := hR.eq_of_length heq
        exact absurd (length_rest_of_readAttribute? (hsome .plain)) (Nat.lt_irrefl _)
      obtain ⟨as, B, hB, hrest⟩ := ih _ hshorter parted' R rfl
      refine ⟨a :: as, B, hB.trans hR, fun σ => ?_⟩
      rw [readAttributes_of_some (hsome σ), hrest]
      rfl

/-! ## The tag -/

/-- What a start tag is, whichever names are in it: a tag that ends at the same bracket and is
closed in the same way, no tag up to the same place, or one that is not finished. -/
inductive Filled (T : Template) : Prop
  | tag (N A B : Template) (as : List OpenAttribute) (selfClosing : Bool)
      (hT : T = A ++ .char '>' :: B)
      (h : ∀ σ : Spelling, read (σ.fill T) = .tag ⟨(σ.fill N).lower,
        as.map fun a => ((σ.fill a.1).lower, σ.fill a.2), selfClosing⟩ (σ.fill B))
  | text (A B : Template) (hT : T = A ++ B) (hB : B.head? ≠ some (.char '>'))
      (h : ∀ σ : Spelling, read (σ.fill T) = .text (σ.fill B))
  | unfinished (h : ∀ σ : Spelling, read (σ.fill T) = .unfinished)

/-- What comes of a tag whose attributes have been read, by what follows them. -/
def ending (tag : Bool → StartTag) (rest : Text) : Outcome :=
  match rest with
  | '>' :: r => .tag (tag false) r
  | '/' :: '>' :: r => .tag (tag true) r
  | [] => .unfinished
  | '=' :: _ => .unfinished
  | _ => .text rest

/-- A start tag is read in three parts: its name, its attributes, and what follows them. Only the
last one tells whether it is a tag. -/
theorem read_eq_ending (t : Text) :
    read t = ending (fun selfClosing => ⟨Text.lower (t.takeWhile (!endsName ·)),
      (readAttributes (startsWithGap (t.dropWhile (!endsName ·)) ||
        (t.takeWhile (!endsName ·)).getLast?.any parts) (skipGap (t.dropWhile (!endsName ·)))).1.map
          fun (n, v) => (Text.lower n, v), selfClosing⟩)
      (readAttributes (startsWithGap (t.dropWhile (!endsName ·)) ||
        (t.takeWhile (!endsName ·)).getLast?.any parts) (skipGap (t.dropWhile (!endsName ·)))).2 := by
  rfl

/-- A character that no tag can go on with ends the reading there, and what has been read is
text. -/
theorem ending_cons_of_ne {t : Text} (hclose : c ≠ '>') (hequals : c ≠ '=')
    (hslash : ¬ (c = '/' ∧ t.head? = some '>')) (tag : Bool → StartTag) :
    ending tag (c :: t) = .text (c :: t) := by
  rw [ending]
  · exact fun _ heq => hclose (List.cons.inj heq).1
  · rintro u heq
    obtain ⟨rfl, rfl⟩ := List.cons.inj heq
    exact hslash ⟨rfl, rfl⟩
  · exact List.cons_ne_nil c t
  · exact fun _ heq => hequals (List.cons.inj heq).1

/-- A tag ends in the same way: at its bracket, perhaps behind a slash, or not at all. The
characters that tell it are in no name. -/
theorem ending_fill (T : Template) :
    (∃ A selfClosing B, T = A ++ .char '>' :: B ∧
      ∀ (σ : Spelling) (tag : Bool → StartTag), ending tag (σ.fill T) = .tag (tag selfClosing) (σ.fill B)) ∨
    (T.head? ≠ some (.char '>') ∧
      ∀ (σ : Spelling) (tag : Bool → StartTag), ending tag (σ.fill T) = .text (σ.fill T)) ∨
    ∀ (σ : Spelling) (tag : Bool → StartTag), ending tag (σ.fill T) = .unfinished := by
  rcases T with _ | ⟨s, T⟩
  · exact .inr (.inr fun σ tag => rfl)
  cases s with
  | name r =>
    refine .inr (.inl ⟨by simp, fun σ tag => ?_⟩)
    obtain ⟨c, t, ht, -, hc⟩ := exists_name_eq_cons σ r
    rw [fill_name, ht, List.cons_append]
    exact ending_cons_of_ne (ne_of_isWordChar hc (by decide)) (ne_of_isWordChar hc (by decide))
      (fun h => ne_of_isWordChar hc (by decide) h.1) tag
  | char c =>
    by_cases hclose : c = '>'
    · subst hclose
      exact .inl ⟨[], false, T, rfl, fun σ tag => rfl⟩
    by_cases hequals : c = '='
    · subst hequals
      exact .inr (.inr fun σ tag => rfl)
    by_cases hslash : c = '/' ∧ ∃ R, T = .char '>' :: R
    · obtain ⟨rfl, R, rfl⟩ := hslash
      exact .inl ⟨[.char '/'], true, R, rfl, fun σ tag => rfl⟩
    · refine .inr (.inl ⟨by simpa using hclose, fun σ tag => ending_cons_of_ne hclose hequals ?_ tag⟩)
      rintro ⟨hc, hhead⟩
      obtain ⟨t, ht⟩ := List.head?_eq_some_iff.mp hhead
      obtain ⟨R, hR, -⟩ := exists_cons_of_fill (by decide) ht
      exact hslash ⟨hc, R, hR⟩

/-- **Start tags** are the same in both, but for the names in their own name and in their
attributes. -/
theorem filled (T : Template) : Filled T := by
  obtain ⟨N, hN⟩ : ∃ N, N = T.takeWhile (Symbol.has (!endsName ·)) := ⟨_, rfl⟩
  obtain ⟨U, hU⟩ : ∃ U, U = T.dropWhile (Symbol.has (!endsName ·)) := ⟨_, rfl⟩
  have hsuffix : U <:+ T := hU ▸ List.dropWhile_suffix _
  obtain ⟨gap, hgap⟩ := exists_startsWithGap_fill U
  obtain ⟨S, hS, hskip⟩ := exists_skipGap_fill U
  obtain ⟨as, B, hB, hattributes⟩ := readAttributes_fill (gap || N.getLast?.any (Symbol.has parts)) S
  have hsuffix := (hB.trans hS).trans hsuffix
  have hread (σ : Spelling) : read (σ.fill T) = ending (fun selfClosing => ⟨(σ.fill N).lower,
      as.map fun a => ((σ.fill a.1).lower, σ.fill a.2), selfClosing⟩) (σ.fill B) := by
    simp only [read_eq_ending, takeWhile_fill sameOnWords_endsName, dropWhile_fill sameOnWords_endsName,
      ← hN, ← hU, hgap, any_getLast?_fill sameOnWords_parts, hskip, hattributes, List.map_map]
    rfl
  obtain ⟨A, rfl⟩ := hsuffix
  rcases ending_fill B with ⟨C, selfClosing, R, rfl, hend⟩ | ⟨hhead, hend⟩ | hend
  · exact .tag N (A ++ C) R as selfClosing (by simp) fun σ => by rw [hread, hend]
  · exact .text A B rfl hhead fun σ => by rw [hread, hend]
  · exact .unfinished fun σ => by rw [hread, hend]

/-! ## Decoded attributes -/

/-- What can be decoded one by one can be decoded together, and what fails alone fails together. The
cause is always a numeral that is too long. -/
theorem mapM_decode_cases (as : List (Text × Text)) :
    ((∃ bs, as.mapM (fun (name, value) => do return (name, ← Reference.decode value)) =
        (.ok bs : Except Cause (List (Text × Text)))) ∧ ∀ a ∈ as, ¬ Reference.Fails a.2) ∨
      (∃ k, as.mapM (fun (name, value) => do return (name, ← Reference.decode value)) =
        (.error (.longNumeral k) : Except Cause (List (Text × Text)))) ∧
          ∃ a ∈ as, Reference.Fails a.2 := by
  induction as with
  | nil => exact .inl ⟨⟨[], rfl⟩, by simp⟩
  | cons a as ih =>
    obtain ⟨name, value⟩ := a
    simp only [List.mapM_cons]
    cases hdecode : Reference.decode value with
    | error cause =>
      obtain ⟨k, rfl⟩ := Reference.exists_of_decode_eq_error hdecode
      exact .inr ⟨⟨k, rfl⟩, (name, value), List.mem_cons_self, _, hdecode⟩
    | ok u =>
      have hok : ¬ Reference.Fails value := by
        rintro ⟨cause, hcause⟩
        cases hdecode.symm.trans hcause
      rcases ih with ⟨⟨bs, hbs⟩, hall⟩ | ⟨⟨k, hk⟩, a, ha, hfail⟩
      · exact .inl ⟨⟨(name, u) :: bs, by rw [hbs]; rfl⟩, List.forall_mem_cons.mpr ⟨hok, hall⟩⟩
      · exact .inr ⟨⟨k, by rw [hk]; rfl⟩, a, List.mem_cons_of_mem _ ha, hfail⟩

/-- The attributes of a tag can be decoded, or one of them cannot. Decoding looks at the values
only. -/
theorem decodedAttributes_cases (tag : StartTag) :
    ((∃ attributes, tag.decodedAttributes = .ok attributes) ∧
        ∀ a ∈ tag.attributes, ¬ Reference.Fails a.2) ∨
      (∃ k, tag.decodedAttributes = .error (.longNumeral k)) ∧
        ∃ a ∈ tag.attributes, Reference.Fails a.2 := by
  rw [StartTag.decodedAttributes]
  refine (mapM_decode_cases tag.attributes).imp (And.imp_left ?_) (And.imp_left ?_)
  · rintro ⟨bs, hbs⟩
    exact ⟨Attributes.firstOfEach bs, by rw [hbs]; rfl⟩
  · rintro ⟨k, hk⟩
    exact ⟨k, by rw [hk]; rfl⟩

end StartTag

end Markup

end StyledText
