import StyledText.Text.Basic

/-!
# First occurrences

`cut?` parts a text at the first occurrence of a character. `afterFirst?` looks for the first place
where a reader of a pattern succeeds and gives what the reader leaves. Both give up where there is
none. What they leave is a shorter end of the text, which is why a loop over it stops.
-/

namespace StyledText

namespace Text

/-- The text before the first `c` and the text after it. -/
def cut? (c : Char) : Text → Option (Text × Text)
  | [] => none
  | d :: t => if d = c then some ([], t) else (cut? c t).map fun (l, r) => (d :: l, r)

/-- A cut takes out the first `c` and nothing else. -/
theorem eq_append_of_cut? {c : Char} {t l r : Text} (h : cut? c t = some (l, r)) :
    t = l ++ c :: r ∧ c ∉ l := by
  induction t generalizing l with
  | nil => simp [cut?] at h
  | cons d t ih =>
    by_cases hd : d = c
    · simp [cut?, hd] at h
      simp [h.1, ← h.2, hd]
    · simp only [cut?, if_neg hd, Option.map_eq_some_iff] at h
      obtain ⟨⟨l', r'⟩, h', heq⟩ := h
      obtain ⟨rfl, rfl⟩ := Prod.mk.inj heq
      obtain ⟨rfl, hc⟩ := ih h'
      exact ⟨rfl, by simp [hc, Ne.symm hd]⟩

/-- There is no cut where the character does not occur. -/
theorem cut?_eq_none {c : Char} {t : Text} (h : c ∉ t) : cut? c t = none := by
  induction t with
  | nil => rfl
  | cons d t ih =>
    rw [List.mem_cons, not_or] at h
    simp [cut?, Ne.symm h.1, ih h.2]

/-- A cut behind a text without the character. -/
theorem cut?_append_cons {c : Char} {s : Text} (h : c ∉ s) (t : Text) :
    cut? c (s ++ c :: t) = some (s, t) := by
  induction s with
  | nil => simp [cut?]
  | cons d s ih =>
    rw [List.mem_cons, not_or] at h
    simp [cut?, Ne.symm h.1, ih h.2]

/-- What the first success of `read?` leaves, over the ends of the text from long to short. -/
def afterFirst? (read? : Text → Option Text) : Text → Option Text
  | [] => read? []
  | c :: t => (read? (c :: t)).orElse fun _ => afterFirst? read? t

end Text

end StyledText
