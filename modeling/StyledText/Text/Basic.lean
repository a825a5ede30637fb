/-!
# Text as a list of characters

Every offset, length and column of this library counts characters, so a text is the list of its
characters and `take`, `drop` and `length` of lists are its cuts and its measure. The modules
beside this one hold what the standard library leaves to the reader of a format:

* `Text/Ranges` — membership in a table of code points;
* `Text/Blank` — white space and stripping;
* `Text/Cased`, `Text/Lowercase` — lower case of all scripts;
* `Text/Printable`, `Text/Quoted` — a text between quotes, with what cannot be shown escaped;
* `Text/DecimalDigit` — decimal digits of all scripts;
* `Text/Position` — lines and columns;
* `Text/Search`, `Text/Replace` — the first occurrence of a character and of a pattern;
* `Text/Index` — indices and slices that may count from the end.
-/

namespace StyledText

/-- A text: its characters in order. -/
abbrev Text := List Char

/-- Texts are told apart by their characters. -/
instance : LawfulBEq Text := inferInstance

namespace Text

/-- The decimal numeral of a natural number. -/
def ofNat (n : Nat) : Text := (toString n).toList

/-- The decimal numeral of an integer, with a minus sign where it is negative. -/
def ofInt (n : Int) : Text :=
  if n < 0 then '-' :: ofNat n.natAbs else ofNat n.natAbs

/-- Whether the last character is a newline. -/
def endsWithNewline (t : Text) : Bool := t.getLast? == some '\n'

/-- The text without the longest run of characters with `p` at its end. -/
def dropTrailing (p : Char → Bool) (t : Text) : Text := (t.reverse.dropWhile p).reverse

@[simp] theorem dropTrailing_nil (p : Char → Bool) : dropTrailing p [] = [] := rfl

/-- The last character goes if it has `p`, and with it all before it that are to go. -/
theorem dropTrailing_concat (p : Char → Bool) (t : Text) (x : Char) :
    dropTrailing p (t ++ [x]) = if p x then dropTrailing p t else t ++ [x] := by
  simp only [dropTrailing, List.reverse_append, List.reverse_singleton, List.singleton_append,
    List.dropWhile_cons]
  split
  · rfl
  · simp

/-- What is dropped is a run of characters with `p`. -/
theorem exists_dropTrailing_append (p : Char → Bool) (t : Text) :
    ∃ r : Text, t = dropTrailing p t ++ r ∧ ∀ c ∈ r, p c = true := by
  refine ⟨(t.reverse.takeWhile p).reverse, ?_, ?_⟩
  · rw [dropTrailing, ← List.reverse_append, List.takeWhile_append_dropWhile, List.reverse_reverse]
  · intro c hc
    exact List.all_eq_true.mp List.all_takeWhile c (List.mem_reverse.mp hc)

/-- What is dropped from the end has `p`. -/
theorem getElem?_of_length_dropTrailing_le {p : Char → Bool} {t : Text} {i : Nat}
    (h : (dropTrailing p t).length ≤ i) (hi : i < t.length) : ∃ x, t[i]? = some x ∧ p x = true := by
  obtain ⟨r, hr, hp⟩ := exists_dropTrailing_append p t
  have hlen := congrArg List.length hr
  rw [List.length_append] at hlen
  refine ⟨t[i], List.getElem?_eq_getElem hi, hp _ ?_⟩
  have hget : t[i]? = r[i - (dropTrailing p t).length]? := by
    rw [← List.getElem?_append_right h, ← hr]
  rw [List.getElem?_eq_getElem hi] at hget
  exact List.mem_of_getElem? hget.symm

end Text

end StyledText
