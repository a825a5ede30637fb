import StyledText.Proofs.Table.Enclosed

/-!
# The markup of a table and its plain serialisation

The markup of a table gets its tags where they come and its texts only where an enclosing element
ends, all texts that stand loose in that element at once. So the content of an element is written
down in two parts: what is **written** before the end tag, and the **loose** text that comes right
before it. Plain serialisation would put every text at its own place instead.

Both have the same tags in the same order and the same texts in the same order, but a text may come
later in the markup. `lag` counts, over all characters, the tags that stand before them; a text that
is put behind more tags than it should be makes the count grow by just that much
(`Content.lag_written_append_loose`), so the two agree if and only if no text is
(`Content.InPlace`).
-/

namespace StyledText

namespace Markup

/-- The text of character data, and no text for every other event. -/
def Event.text : Event → Text
  | .characters t => t
  | _ => []

namespace Content

open Intercept (Tag Encloses)

/-- The text of the start tag of an intercepted element. -/
def startText (name : Text) : Text := ((Tag.ofName? name).map Tag.startText).getD []

/-- The text of the end tag of an intercepted element. -/
def endText (name : Text) : Text := ((Tag.ofName? name).map Tag.endText).getD []

/-- The content as markup, without attributes and under the names of the document. -/
def serialise : Content → Text
  | empty => []
  | data e _ rest => e.text ++ rest.serialise
  | element name _ inner rest =>
    startText name ++ inner.serialise ++ endText name ++ rest.serialise

/-- The text outside of every enclosing element. It is written down where the element around all of
it ends. -/
def loose : Content → Text
  | empty => []
  | data e _ rest => e.text ++ rest.loose
  | element name _ inner rest => (if Encloses name then [] else inner.loose) ++ rest.loose

/-- What is written down of the content before the element around it ends. -/
def written : Content → Text
  | empty => []
  | data _ _ rest => rest.written
  | element name _ inner rest =>
    startText name ++ inner.written ++ (if Encloses name then inner.loose else []) ++ endText name
      ++ rest.written

/-- Whether there are only texts and intercepted elements, and no items among them. -/
def Tabular : Content → Prop
  | empty => True
  | data e _ rest => (∃ t, e = .characters t) ∧ rest.Tabular
  | element name _ inner rest =>
    (∃ tag, Tag.ofName? name = some tag ∧ tag ≠ .item) ∧ inner.Tabular ∧ rest.Tabular

/-- Whether no text holds the character that begins a tag. -/
def Clean : Content → Prop
  | empty => True
  | data e _ rest => '<' ∉ e.text ∧ rest.Clean
  | element _ _ inner rest => inner.Clean ∧ rest.Clean

/-- The number of tags, two for each element. -/
def tagCount : Content → Nat
  | empty => 0
  | data _ _ rest => rest.tagCount
  | element _ _ inner rest => inner.tagCount + rest.tagCount + 2

/-- Whether no text is followed by a tag in the innermost enclosing element around it. -/
def InPlace : Content → Prop
  | empty => True
  | data e _ rest => (e.text = [] ∨ rest.tagCount = 0) ∧ rest.InPlace
  | element name _ inner rest =>
    inner.InPlace ∧ (¬ Encloses name → inner.loose = []) ∧ rest.InPlace

/-! ## Texts in their places -/

/-- Without tags nothing is written down, since only the end of an element writes text. -/
theorem written_eq_nil {d : Content} (h : d.tagCount = 0) : d.written = [] := by
  induction d with
  | empty => rfl
  | data e he rest ih => exact ih h
  | element name attributes inner rest => exact absurd h (Nat.succ_ne_zero _)

/-- With all texts in their places the markup is the plain serialisation, by induction over the
content. -/
theorem InPlace.written_append_loose {d : Content} (h : d.InPlace) :
    d.written ++ d.loose = d.serialise := by
  induction d with
  | empty => rfl
  | data e he rest ih =>
    obtain ⟨hplace, hrest⟩ := h
    rw [written, loose, serialise, ← ih hrest]
    rcases hplace with htext | htags
    · rw [htext, List.nil_append, List.nil_append]
    · rw [written_eq_nil htags, List.nil_append, List.nil_append]
  | element name attributes inner rest ihi ihr =>
    obtain ⟨hinner, hloose, hrest⟩ := h
    rw [written, loose, serialise, ← ihi hinner, ← ihr hrest]
    by_cases hname : Encloses name
    · simp [hname]
    · simp [hname, hloose hname]

/-! ## Counting tags before characters -/

/-- The number of characters that do not begin a tag. -/
def others (t : Text) : Nat := t.countP (· ≠ '<')

/-- For each character that does not begin a tag, the number of tags that begin before it. -/
def lag : Text → Nat
  | [] => 0
  | c :: t => (if c = '<' then others t else 0) + lag t

theorem others_append (s t : Text) : others (s ++ t) = others s + others t := List.countP_append

/-- Behind another text each tag of that counts once more for every character. -/
theorem lag_append (s t : Text) : lag (s ++ t) = lag s + lag t + s.count '<' * others t := by
  induction s with
  | nil => simp [lag]
  | cons c s ih =>
    rw [List.cons_append, lag, lag, ih, others_append]
    by_cases hc : c = '<'
    · subst hc
      rw [if_pos rfl, if_pos rfl, List.count_cons_self, Nat.succ_mul]
      omega
    · rw [if_neg hc, if_neg hc, List.count_cons_of_ne hc]
      omega

theorem lag_eq_zero {t : Text} (h : '<' ∉ t) : lag t = 0 := by
  induction t with
  | nil => rfl
  | cons c t ih =>
    have hc : c ≠ '<' := fun he => h (he ▸ List.mem_cons_self ..)
    rw [lag, if_neg hc, ih fun hm => h (List.mem_cons_of_mem _ hm)]

theorem others_eq_length {t : Text} (h : '<' ∉ t) : others t = t.length := by
  rw [others, List.countP_eq_length]
  intro c hc
  have hne : c ≠ '<' := fun he => h (he ▸ hc)
  simp [hne]

/-- How much later than at their own places the texts come in the markup: the sum, over their
characters, of the tags that come before instead of after. -/
def delay : Content → Nat
  | empty => 0
  | data e _ rest => e.text.length * rest.tagCount + rest.delay
  | element name _ inner rest =>
    inner.delay + rest.delay
      + if Encloses name then 0 else inner.loose.length * (1 + rest.tagCount)

/-- No text comes late if and only if all of them are in their places. -/
theorem delay_eq_zero_iff {d : Content} : d.delay = 0 ↔ d.InPlace := by
  induction d with
  | empty => exact iff_of_true rfl trivial
  | data e he rest ih =>
    rw [delay, InPlace, Nat.add_eq_zero_iff, Nat.mul_eq_zero, ih, List.length_eq_zero_iff]
  | element name attributes inner rest ihi ihr =>
    rw [delay, InPlace, Nat.add_eq_zero_iff, Nat.add_eq_zero_iff, ihi, ihr]
    by_cases hname : Encloses name
    · simp [hname]
    · simp only [hname, if_false, not_false_eq_true, forall_const, Nat.mul_eq_zero,
        List.length_eq_zero_iff]
      constructor
      · rintro ⟨⟨hinner, hrest⟩, hloose | habsurd⟩
        · exact ⟨hinner, hloose, hrest⟩
        · omega
      · rintro ⟨hinner, hloose, hrest⟩
        exact ⟨⟨hinner, hrest⟩, .inl hloose⟩

/-! ## The tags and the characters of both -/

/-- A tag begins once, and its name holds no bracket. -/
theorem count_startText {name : Text} {tag : Tag} (h : Tag.ofName? name = some tag) :
    (startText name).count '<' = 1 := by
  rw [startText, h]
  cases tag with
  | list kind => cases kind <;> rfl
  | bare b => cases b <;> rfl
  | _ => rfl

theorem count_endText {name : Text} {tag : Tag} (h : Tag.ofName? name = some tag) :
    (endText name).count '<' = 1 := by
  rw [endText, h]
  cases tag with
  | list kind => cases kind <;> rfl
  | bare b => cases b <;> rfl
  | _ => rfl

/-- Loose text is part of the texts, and so no tag begins in it. -/
theorem Clean.notMem_loose {d : Content} (h : d.Clean) : '<' ∉ d.loose := by
  induction d with
  | empty => exact List.not_mem_nil
  | data e he rest ih =>
    rw [loose, List.mem_append, not_or]
    exact ⟨h.1, ih h.2⟩
  | element name attributes inner rest ihi ihr =>
    rw [loose, List.mem_append, not_or]
    refine ⟨?_, ihr h.2⟩
    split
    · exact List.not_mem_nil
    · exact ihi h.1

/-- The markup has as many tags as the content, since no text of it begins one. -/
theorem count_written {d : Content} (ht : d.Tabular) (hc : d.Clean) :
    d.written.count '<' = d.tagCount := by
  induction d with
  | empty => rfl
  | data e he rest ih => exact ih ht.2 hc.2
  | element name attributes inner rest ihi ihr =>
    obtain ⟨⟨tag, htag, -⟩, hti, htr⟩ := ht
    have hloose : (if Encloses name then inner.loose else []).count '<' = 0 := by
      split
      · exact List.count_eq_zero.mpr hc.1.notMem_loose
      · rfl
    rw [written, tagCount, List.count_append, List.count_append, List.count_append,
      List.count_append, count_startText htag, count_endText htag, hloose, ihi hti hc.1,
      ihr htr hc.2]
    omega

/-- So does the plain serialisation, and so the two differ at most in where the texts stand. -/
theorem count_serialise {d : Content} (ht : d.Tabular) (hc : d.Clean) :
    d.serialise.count '<' = d.tagCount := by
  induction d with
  | empty => rfl
  | data e he rest ih =>
    rw [serialise, List.count_append, List.count_eq_zero.mpr hc.1, ih ht.2 hc.2, Nat.zero_add]
    rfl
  | element name attributes inner rest ihi ihr =>
    obtain ⟨⟨tag, htag, -⟩, hti, htr⟩ := ht
    rw [serialise, tagCount, List.count_append, List.count_append, List.count_append,
      count_startText htag, count_endText htag, ihi hti hc.1, ihr htr hc.2]
    omega

/-- No character is lost: every one of them is written down or is loose. -/
theorem others_serialise (d : Content) :
    others d.serialise = others d.written + others d.loose := by
  induction d with
  | empty => rfl
  | data e he rest ih =>
    rw [serialise, written, loose, others_append, others_append, ih]
    omega
  | element name attributes inner rest ihi ihr =>
    simp only [serialise, written, loose, others_append, ihi, ihr]
    split
    next => simp only [show others [] = 0 from rfl]; omega
    next => simp only [show others [] = 0 from rfl]; omega

/-- **The delay.** The tags before characters are counted once more for each character and each tag
that it comes behind instead of before. -/
theorem lag_written_append_loose {d : Content} (ht : d.Tabular) (hc : d.Clean) :
    lag (d.written ++ d.loose) = lag d.serialise + d.delay := by
  induction d with
  | empty => rfl
  | data e he rest ih =>
    have hrest := ih ht.2 hc.2
    have htext := lag_eq_zero hc.1
    have hlength := others_eq_length hc.1
    have hcount : e.text.count '<' = 0 := List.count_eq_zero.mpr hc.1
    simp only [written, loose, serialise, delay, lag_append, others_append, htext, hlength, hcount,
      count_written ht.2 hc.2, Nat.zero_mul, Nat.mul_add] at hrest ⊢
    rw [Nat.mul_comm e.text.length]
    omega
  | element name attributes inner rest ihi ihr =>
    obtain ⟨⟨tag, htag, -⟩, hti, htr⟩ := ht
    have hinner := ihi hti hc.1
    have hrest := ihr htr hc.2
    have hlength := others_eq_length hc.1.notMem_loose
    have hcount : inner.loose.count '<' = 0 := List.count_eq_zero.mpr hc.1.notMem_loose
    have hlag := lag_eq_zero hc.1.notMem_loose
    have hnil : others [] = 0 ∧ lag [] = 0 := ⟨rfl, rfl⟩
    by_cases hname : Encloses name
    -- both sides are sums of products of the same counts, and loose text holds no tag
    · simp only [written, loose, serialise, delay, if_pos hname, lag_append, List.count_append,
        others_append, others_serialise, hnil.1, hnil.2, hlag, hcount, List.count_nil,
        count_startText htag, count_endText htag, count_written hti hc.1, count_written htr hc.2,
        count_serialise hti hc.1, Nat.add_mul, Nat.mul_add, Nat.one_mul, Nat.zero_mul,
        Nat.add_zero, Nat.zero_add] at hinner hrest ⊢
      omega
    · simp only [written, loose, serialise, delay, if_neg hname, lag_append, List.count_append,
        others_append, others_serialise, hnil.1, hnil.2, hlag, hcount, List.count_nil,
        count_startText htag, count_endText htag, count_written hti hc.1, count_written htr hc.2,
        count_serialise hti hc.1, ← hlength, Nat.add_mul, Nat.mul_add, Nat.one_mul, Nat.zero_mul,
        Nat.mul_zero, Nat.mul_one, Nat.add_zero, Nat.zero_add] at hinner hrest ⊢
      rw [Nat.mul_comm (others inner.loose) rest.tagCount]
      omega

/-- The content of an enclosing element is written down plainly if and only if its texts are in
their places. -/
theorem written_append_loose_eq_iff {d : Content} (ht : d.Tabular) (hc : d.Clean) :
    d.written ++ d.loose = d.serialise ↔ d.InPlace := by
  constructor
  · intro he
    have hlag := lag_written_append_loose ht hc
    rw [he] at hlag
    exact delay_eq_zero_iff.mp (by omega)
  · exact InPlace.written_append_loose

/-- The content of an outermost table, of which the loose text is not written down. -/
theorem written_eq_serialise_iff {d : Content} (ht : d.Tabular) (hc : d.Clean) :
    d.written = d.serialise ↔ d.InPlace ∧ d.loose = [] := by
  constructor
  · intro he
    have hothers := others_serialise d
    rw [← he] at hothers
    have hlength := others_eq_length hc.notMem_loose
    have hloose : d.loose = [] := List.length_eq_zero_iff.mp (by omega)
    refine ⟨(written_append_loose_eq_iff ht hc).mp ?_, hloose⟩
    rw [hloose, List.append_nil]
    exact he
  · rintro ⟨hplace, hloose⟩
    rw [← hplace.written_append_loose, hloose, List.append_nil]

end Content

end Markup

end StyledText
