import StyledText.Markup.Construct
import StyledText.Proofs.Markup.Numeral
import StyledText.Proofs.Markup.Reading

/-!
# Markup with open names

A **template** is a markup in which the names of elements that are renamed are left open. It can be
filled in with the plain names or with the reserved ones (`Spelling.fill`). Both kinds of name
consist of letters and underscores, which have no meaning of their own in a markup. So what a reader
finds in a template is the same for both, as long as it looks for other characters only:

* `Spelling.takeWhile_fill`, `Spelling.dropWhile_fill`, `Spelling.cut?_fill` — where a text is
  parted;
* `Spelling.fails_fill_iff` — whether references in it can be decoded;
* `Spelling.ofName?_lower_fill` — no name makes that of an element of raw text.
-/

namespace StyledText

namespace Markup

/-! ## Templates -/

/-- How names are written. -/
inductive Spelling where
  | plain
  | reserved
  deriving DecidableEq, Repr

/-- A character of a markup, or the open name of an element. -/
inductive Symbol where
  | char (c : Char)
  | name (r : Renamed)
  deriving DecidableEq, Repr

/-- A markup with open names. -/
abbrev Template := List Symbol

namespace Spelling

/-- The name of an element. -/
def name : Spelling → Renamed → Text
  | plain, r => r.plain
  | reserved, r => r.reserved

/-- What a symbol is written as. -/
def write (σ : Spelling) : Symbol → Text
  | .char c => [c]
  | .name r => σ.name r

/-- The markup with the names filled in. -/
def fill (σ : Spelling) (T : Template) : Text := T.flatMap σ.write

end Spelling

/-- Whether a name may have the character. -/
def isWordChar (c : Char) : Bool := c.isAlpha || c = '_'

/-- Whether `p` holds of all characters of names, or of none. -/
def SameOnWords (p : Char → Bool) (b : Bool) : Prop := ∀ c, isWordChar c = true → p c = b

/-- Whether `p` holds of the characters of a symbol, if it does not tell those of a name apart. -/
def Symbol.has (p : Char → Bool) : Symbol → Bool
  | char c => p c
  | name _ => p '_'

/-- The template without open names. -/
def Template.ofText (t : Text) : Template := t.map .char

/-- A character of names is different from every other one. -/
theorem ne_of_isWordChar {c d : Char} (hc : isWordChar c = true) (hd : isWordChar d = false) :
    c ≠ d := by
  rintro rfl
  rw [hc] at hd
  cases hd

namespace Spelling

variable {σ : Spelling} {r : Renamed} {T U A B : Template} {c : Char} {b : Bool} {p : Char → Bool}

@[simp] theorem fill_nil (σ : Spelling) : σ.fill [] = [] := rfl

@[simp] theorem fill_char (σ : Spelling) (c : Char) (T : Template) :
    σ.fill (.char c :: T) = c :: σ.fill T := rfl

@[simp] theorem fill_name (σ : Spelling) (r : Renamed) (T : Template) :
    σ.fill (.name r :: T) = σ.name r ++ σ.fill T := rfl

@[simp] theorem fill_append (σ : Spelling) (T U : Template) :
    σ.fill (T ++ U) = σ.fill T ++ σ.fill U := List.flatMap_append

@[simp] theorem fill_ofText (σ : Spelling) (t : Text) : σ.fill (.ofText t) = t := by
  induction t with
  | nil => rfl
  | cons c t ih => exact congrArg (c :: ·) ih

/-- Both kinds of name consist of letters and underscores. -/
theorem isWordChar_of_mem_name (h : c ∈ σ.name r) : isWordChar c = true := by
  have hall : (σ.name r).all isWordChar = true := by cases σ <;> cases r <;> decide
  exact List.all_eq_true.mp hall c h

/-- A name begins with a letter, so where one is open behind a bracket a start tag begins with
either kind. -/
theorem exists_name_eq_cons (σ : Spelling) (r : Renamed) :
    ∃ c t, σ.name r = c :: t ∧ c.isAlpha = true ∧ isWordChar c = true := by
  have hletter : (σ.name r).head?.any Char.isAlpha = true := by cases σ <;> cases r <;> decide
  obtain ⟨c, hc, halpha⟩ := (Option.any_eq_true _ _).mp hletter
  obtain ⟨t, ht⟩ := List.head?_eq_some_iff.mp hc
  exact ⟨c, t, ht, halpha, by simp [isWordChar, halpha]⟩

/-! ## Characters -/

/-- A character that no name has is in the markup just if it is one of the template's own. -/
theorem mem_fill_iff (hc : isWordChar c = false) : c ∈ σ.fill T ↔ .char c ∈ T := by
  induction T with
  | nil => simp
  | cons s T ih =>
    cases s with
    | char d => simp [ih]
    | name r =>
      have hname : c ∉ σ.name r := fun hmem => ne_of_isWordChar (isWordChar_of_mem_name hmem) hc rfl
      simp [ih, hname]

/-- What stands before the first character of some kind is the same part of the template, if the
kind has all characters of names or none. -/
theorem takeWhile_fill (h : SameOnWords p b) (σ : Spelling) (T : Template) :
    (σ.fill T).takeWhile p = σ.fill (T.takeWhile (Symbol.has p)) := by
  induction T with
  | nil => rfl
  | cons s T ih =>
    cases s with
    | char c =>
      cases hc : p c <;> simp [Symbol.has, hc, ih]
    | name r =>
      have hp : p '_' = b := h '_' (by decide)
      cases b with
      | true =>
        have hall : ∀ c ∈ σ.name r, p c = true := fun c hc => h c (isWordChar_of_mem_name hc)
        have hname : Symbol.has p (.name r) = true := hp
        rw [fill_name, List.takeWhile_append_of_pos hall, ih, List.takeWhile_cons_of_pos hname,
          fill_name]
      | false =>
        obtain ⟨c, t, ht, -, hc⟩ := exists_name_eq_cons σ r
        simp [Symbol.has, hp, ht, h c hc]

/-- And so is what follows from there on. -/
theorem dropWhile_fill (h : SameOnWords p b) (σ : Spelling) (T : Template) :
    (σ.fill T).dropWhile p = σ.fill (T.dropWhile (Symbol.has p)) := by
  have hparts : (σ.fill T).takeWhile p ++ (σ.fill T).dropWhile p =
      σ.fill (T.takeWhile (Symbol.has p)) ++ σ.fill (T.dropWhile (Symbol.has p)) := by
    rw [List.takeWhile_append_dropWhile, ← fill_append, List.takeWhile_append_dropWhile]
  rw [takeWhile_fill h] at hparts
  exact List.append_cancel_left hparts

/-- Whether all characters are of such a kind does not depend on the names. -/
theorem all_fill (h : SameOnWords p b) (σ : Spelling) (T : Template) :
    (σ.fill T).all p = T.all (Symbol.has p) := by
  induction T with
  | nil => rfl
  | cons s T ih =>
    cases s with
    | char c => simp [Symbol.has, ih]
    | name r =>
      have hname : (σ.name r).all p = p '_' := by
        rw [h '_' (by decide)]
        cases b with
        | true => exact List.all_eq_true.mpr fun c hc => h c (isWordChar_of_mem_name hc)
        | false =>
          obtain ⟨c, t, ht, -, hc⟩ := exists_name_eq_cons σ r
          rw [ht, List.all_cons, h c hc, Bool.false_and]
      rw [fill_name, List.all_append, hname, ih, List.all_cons]
      rfl

/-- Nor does the kind of the first character: a name begins as it goes on. -/
theorem any_head?_fill (h : SameOnWords p b) (σ : Spelling) (T : Template) :
    (σ.fill T).head?.any p = T.head?.any (Symbol.has p) := by
  cases T with
  | nil => rfl
  | cons s T =>
    cases s with
    | char c => rfl
    | name r =>
      obtain ⟨c, t, ht, -, hc⟩ := exists_name_eq_cons σ r
      simp [Symbol.has, ht, h c hc, h '_' (by decide)]

/-- Nor that of the last one. -/
theorem any_getLast?_fill (h : SameOnWords p b) (σ : Spelling) (T : Template) :
    (σ.fill T).getLast?.any p = T.getLast?.any (Symbol.has p) := by
  rcases List.eq_nil_or_concat T with rfl | ⟨T, s, rfl⟩
  · rfl
  rw [List.concat_eq_append, fill_append, List.getLast?_append, List.getLast?_concat]
  cases s with
  | char c => rfl
  | name r =>
    have hne : σ.name r ≠ [] := by
      obtain ⟨c, t, ht, -⟩ := exists_name_eq_cons σ r
      rw [ht]
      exact List.cons_ne_nil c t
    have hlast : (σ.fill [.name r]).getLast? = some ((σ.name r).getLast hne) := by
      rw [fill_name, fill_nil, List.append_nil, List.getLast?_eq_some_getLast hne]
    rw [hlast]
    exact (h _ (isWordChar_of_mem_name (List.getLast_mem hne))).trans (h '_' (by decide)).symm

/-- A symbol is a character and perhaps more of a name. The one character tells for the whole
symbol, wherever names are not told apart. -/
theorem exists_write_eq_cons (σ : Spelling) (s : Symbol) :
    ∃ c w, σ.write s = c :: w ∧ (∀ d ∈ w, isWordChar d = true) ∧
      ∀ {p : Char → Bool} {b : Bool}, SameOnWords p b → p c = s.has p := by
  cases s with
  | char c => exact ⟨c, [], rfl, by simp, fun _ => rfl⟩
  | name r =>
    obtain ⟨c, w, hw, -, hc⟩ := exists_name_eq_cons σ r
    refine ⟨c, w, hw, fun d hd => isWordChar_of_mem_name (hw ▸ List.mem_cons_of_mem c hd), ?_⟩
    exact fun h => (h c hc).trans (h '_' (by decide)).symm

/-- A markup is filled in symbol by symbol. -/
theorem fill_cons (σ : Spelling) (s : Symbol) (T : Template) :
    σ.fill (s :: T) = σ.write s ++ σ.fill T := rfl

/-- What a text begins with is in the template, if no name has it; the rest of the text is the rest
of the template. -/
theorem exists_cons_of_fill {t : Text} (hc : isWordChar c = false) (h : σ.fill T = c :: t) :
    ∃ R, T = .char c :: R ∧ σ.fill R = t := by
  cases T with
  | nil => cases h
  | cons s T =>
    cases s with
    | char d =>
      obtain ⟨rfl, hrest⟩ := List.cons.inj h
      exact ⟨T, rfl, hrest⟩
    | name r =>
      obtain ⟨d, t, ht, -, hd⟩ := exists_name_eq_cons σ r
      rw [fill_name, ht] at h
      exact absurd (List.cons.inj h).1 (ne_of_isWordChar hd hc)

/-- A text is cut at the same place, at the first occurrence of a character that no name has. -/
theorem cut?_fill (hc : isWordChar c = false) (T : Template) :
    (∀ σ : Spelling, Text.cut? c (σ.fill T) = none) ∨
      ∃ A B, T = A ++ .char c :: B ∧
        ∀ σ : Spelling, Text.cut? c (σ.fill T) = some (σ.fill A, σ.fill B) := by
  by_cases h : .char c ∈ T
  · obtain ⟨A, B, rfl, hA⟩ := List.eq_append_cons_of_mem h
    refine .inr ⟨A, B, rfl, fun σ => ?_⟩
    rw [fill_append, fill_char]
    exact Text.cut?_append_cons (mt (mem_fill_iff hc).mp hA) _
  · exact .inl fun σ => Text.cut?_eq_none (mt (mem_fill_iff hc).mp h)

/-! ## Patterns -/

/-- A pattern without characters of names is at the beginning of the markup just if it is at that of
the template. -/
theorem ofText_prefix_iff {w : Text} (hw : ∀ c ∈ w, isWordChar c = false) (σ : Spelling)
    (T : Template) : w <+: σ.fill T ↔ Template.ofText w <+: T := by
  induction w generalizing T with
  | nil => simp [Template.ofText]
  | cons c w ih =>
    rw [List.forall_mem_cons] at hw
    have hcons : Template.ofText (c :: w) = .char c :: Template.ofText w := rfl
    rw [hcons]
    cases T with
    | nil => simp
    | cons s T =>
      cases s with
      | char d =>
        rw [fill_char, List.cons_prefix_cons, List.cons_prefix_cons, ih hw.2, Symbol.char.injEq]
      | name r =>
        obtain ⟨d, t, ht, -, hd⟩ := exists_name_eq_cons σ r
        rw [fill_name, ht, List.cons_append, List.cons_prefix_cons, List.cons_prefix_cons]
        exact iff_of_false (fun h => ne_of_isWordChar hd hw.1 h.1.symm) (by simp)

/-- The same anywhere in it: no occurrence of the pattern can lie in a name, or reach into one. -/
theorem ofText_infix_iff {w : Text} (hw : ∀ d ∈ c :: w, isWordChar d = false) :
    c :: w <:+: σ.fill T ↔ Template.ofText (c :: w) <:+: T := by
  induction T with
  | nil =>
    refine iff_of_false (fun h => ?_) fun h => ?_
    · exact List.cons_ne_nil _ _ (List.eq_nil_of_infix_nil h)
    · exact List.cons_ne_nil _ _ (List.eq_nil_of_infix_nil h)
  | cons s T ih =>
    have hcons : Template.ofText (c :: w) <:+: s :: T ↔
        c :: w <+: σ.fill (s :: T) ∨ c :: w <:+: σ.fill T := by
      rw [ih, ofText_prefix_iff hw]
      exact List.infix_cons_iff
    rw [hcons]
    cases s with
    | char d => exact List.infix_cons_iff
    -- the text begins with a character that no name has, so it does not begin inside of one
    | name r =>
      have hname : c ∉ σ.name r := fun hmem =>
        ne_of_isWordChar (isWordChar_of_mem_name hmem) (hw c List.mem_cons_self) rfl
      rw [fill_name]
      refine ⟨fun h => .inr (Text.infix_append_of_notMem hname h), ?_⟩
      rintro (h | h)
      · exact h.isInfix
      · exact h.trans (List.suffix_append _ _).isInfix

/-- No digit is a letter, so the numerals of references are in no name. -/
theorem isWordChar_eq_false_of_isDigit (h : c.isDigit = true) : isWordChar c = false := by
  rw [← Bool.not_eq_true, isWordChar, Bool.or_eq_true]
  rintro (halpha | hline)
  · have h : (decide (c.val ≥ 48) && decide (c.val ≤ 57)) = true := h
    have halpha : (decide (c.val ≥ 65 ∧ c.val ≤ 90) || (decide (c.val ≥ 97) && decide (c.val ≤ 122)))
      = true := halpha
    simp only [Bool.or_eq_true, Bool.and_eq_true, decide_eq_true_eq, ge_iff_le,
      UInt32.le_iff_toNat_le, Char.toNat_val] at h halpha
    grind
  · obtain rfl := of_decide_eq_true hline
    exact absurd h (by decide)

/-- References in both can be decoded, or in neither. The one way to fail is a numeral that is too
long, and that is looked for as a pattern in the template. -/
theorem fails_fill_iff (σ : Spelling) (T : Template) :
    Reference.Fails (σ.fill T) ↔ ∃ digits : Text, (∀ x ∈ digits, x.isDigit = true) ∧
      numeralLimit < digits.length ∧ Template.ofText ('&' :: '#' :: digits) <:+: T := by
  rw [Reference.decode_fails_iff]
  refine exists_congr fun digits => and_congr_right fun hall => and_congr_right fun _ => ?_
  refine ofText_infix_iff fun d hd => ?_
  rcases List.mem_cons.mp hd with rfl | hd
  · decide
  rcases List.mem_cons.mp hd with rfl | hd
  · decide
  · exact isWordChar_eq_false_of_isDigit (hall d hd)

/-! ## Templates without open names -/

/-- A template has no open names, or it has one. In the first case there is nothing that could
differ. -/
theorem exists_ofText_or_mem (T : Template) : (∃ t, T = Template.ofText t) ∨ ∃ r, Symbol.name r ∈ T := by
  induction T with
  | nil => exact .inl ⟨[], rfl⟩
  | cons s T ih =>
    cases s with
    | name r => exact .inr ⟨r, List.mem_cons_self⟩
    | char c =>
      rcases ih with ⟨t, rfl⟩ | ⟨r, hr⟩
      · exact .inl ⟨c :: t, rfl⟩
      · exact .inr ⟨r, List.mem_cons_of_mem _ hr⟩

/-- What `p` holds of has no names, if it does not hold of their characters, so it is the same text
with both kinds. -/
theorem exists_takeWhile_eq_ofText (h : SameOnWords p false) (T : Template) :
    ∃ t, T.takeWhile (Symbol.has p) = Template.ofText t := by
  refine (exists_ofText_or_mem _).resolve_right ?_
  rintro ⟨r, hr⟩
  have hname : Symbol.has p (.name r) = true := List.mem_takeWhile_imp hr
  have hp : p '_' = true := hname
  rw [h '_' (by decide)] at hp
  cases hp

/-- A character that is put in lower case by itself is found in the text that has been. The capital
sigma is left out, as its form depends on where it stands. -/
theorem mem_lowerAfter {x : Char} {t : Text} (hc : c ∈ t) (hne : c ≠ 'Σ') (hx : x ∈ Text.lowerChar c)
    (afterCased : Bool) : x ∈ Text.lowerAfter afterCased t := by
  induction t generalizing afterCased with
  | nil => exact absurd hc List.not_mem_nil
  | cons d t ih =>
    rw [Text.lowerAfter]
    rcases List.mem_cons.mp hc with rfl | hc
    · rw [if_neg hne]
      exact List.mem_append_left _ hx
    · exact List.mem_append_right _ (ih hc _)

/-- Every name has a character that no name of an element of raw text has, in lower case either. So
a name that is renamed can be part of no such name. -/
theorem exists_mem_name (σ : Spelling) (r : Renamed) (e : RawElement) :
    ∃ c ∈ σ.name r, c ≠ 'Σ' ∧ ∃ x ∈ Text.lowerChar c, x ∉ e.name := by
  cases σ with
  | reserved =>
    exact ⟨'_', by cases r <;> decide, by decide, '_', by decide, by cases e <;> decide⟩
  | plain =>
    cases r with
    | unorderedList => exact ⟨'u', by decide, by decide, 'u', by decide, by cases e <;> decide⟩
    | orderedList => exact ⟨'o', by decide, by decide, 'o', by decide, by cases e <;> decide⟩
    | anchor => exact ⟨'a', by decide, by decide, 'a', by decide, by cases e <;> decide⟩
    | listItem =>
      cases e with
      | script => exact ⟨'l', by decide, by decide, 'l', by decide, by decide⟩
      | style => exact ⟨'i', by decide, by decide, 'i', by decide, by decide⟩

/-- No name makes that of an element of raw text: with an open name in it, it is none of them with
either kind. -/
theorem ofName?_lower_fill (T : Template) :
    ∃ raw, ∀ σ : Spelling, RawElement.ofName? (σ.fill T).lower = raw := by
  rcases exists_ofText_or_mem T with ⟨t, rfl⟩ | ⟨r, hr⟩
  · exact ⟨_, fun σ => by rw [fill_ofText]⟩
  · refine ⟨none, fun σ => ?_⟩
    have hne (e : RawElement) : (σ.fill T).lower ≠ e.name := by
      obtain ⟨c, hc, hne, x, hx, hnot⟩ := exists_mem_name σ r e
      have hmem : c ∈ σ.fill T := List.mem_flatMap.mpr ⟨_, hr, hc⟩
      exact fun heq => hnot (heq ▸ mem_lowerAfter hmem hne hx false)
    rw [RawElement.ofName?, if_neg (hne .script), if_neg (hne .style)]

end Spelling

end Markup

end StyledText
