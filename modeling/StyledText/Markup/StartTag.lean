import StyledText.Markup.Event
import StyledText.Markup.Reference
import StyledText.Text.Blank
import StyledText.Text.Lowercase
import StyledText.Text.Search

/-!
# Start tags

What may stand between the angle brackets of a start tag. The tag name reaches to a blank, a slash
or the closing bracket. Attributes follow, each after a **gap** of blanks and slashes or right after
a quote. An attribute has a name and may have a value, in quotes or bare, after one or more
equals signs.

A quote that is never closed is no quote. The value is then empty, if a blank stands before the
quote, or begins at the last of several equals signs, or there is no value at all; the quote becomes
part of what follows.

* `StartTag.skipGap`, `StartTag.readValue`, `StartTag.readAttribute?`, `StartTag.readAttributes` —
  the parts, each of which leaves an end of its text;
* `StartTag.read` — the tag, or what is the matter with it.
-/

namespace StyledText

namespace Markup

/-- A start tag. -/
structure StartTag where
  /-- the name in lower case -/
  name : Text
  /-- the attributes as they are written, with names in lower case -/
  attributes : List (Text × Text)
  /-- whether a slash before the closing bracket ends the element at once -/
  selfClosing : Bool
  deriving DecidableEq, Repr

namespace StartTag

/-- Whether the character ends a tag name. -/
def endsName (c : Char) : Bool :=
  c ∈ ['\t', '\n', '\r', '\x0c', ' ', '/', '>', '\x00']

/-- Whether the character is a quote. -/
def isQuote (c : Char) : Bool := c = '"' || c = '\''

/-- Whether an attribute may follow the character at once. A tag name can end with such a character,
since only some blanks end it. -/
def parts (c : Char) : Bool := isQuote c || Text.isBlank c

/-- Whether the character ends the name of an attribute; the first character may be an equals
sign. -/
def endsAttribute (c : Char) : Bool := Text.isBlank c || c ∈ ['/', '=', '>']

/-- Whether the character ends a bare value. -/
def endsBare (c : Char) : Bool := Text.isBlank c || c = '>'

/-- The text after a gap: blanks, and slashes that do not close the tag. -/
def skipGap : Text → Text
  | [] => []
  | '/' :: '>' :: t => '/' :: '>' :: t
  | c :: t => if Text.isBlank c || c = '/' then skipGap t else c :: t

/-- Whether the text begins with a gap. -/
def startsWithGap : Text → Bool
  | [] => false
  | '/' :: '>' :: _ => false
  | c :: _ => Text.isBlank c || c = '/'

/-- A value and what follows it. -/
structure Value where
  /-- the value as it is written, without its quotes; empty where there is none -/
  text : Text
  /-- whether an attribute may follow at once -/
  parted : Bool
  /-- what follows -/
  rest : Text
  deriving DecidableEq, Repr

/-- A bare value at the start of the text. -/
def readBare (t : Text) : Value :=
  ⟨t.takeWhile (!endsBare ·), false, t.dropWhile (!endsBare ·)⟩

/-- The value after equals signs. The flags say whether there were several and whether an attribute
may follow where there is no value after all; `before` is the text from the equals signs on. -/
def readAfterEquals (several parted : Bool) (before t : Text) : Value :=
  let u := t.dropWhile Text.isBlank
  match u with
  | [] => readBare u
  | q :: body =>
    if isQuote q then
      match Text.cut? q body with
      | some (inside, rest) => ⟨inside, true, rest⟩
      | none =>
        if t.head?.any Text.isBlank then ⟨[], true, u⟩
        else if several then readBare ('=' :: u)
        else ⟨[], parted, before⟩
    else readBare u

/-- The value of an attribute whose name has just been read. The flag says whether an attribute may
follow at once if there is none. -/
def readValue (parted : Bool) (t : Text) : Value :=
  match t.dropWhile Text.isBlank with
  | '=' :: r => readAfterEquals (r.head? = some '=') parted t (r.dropWhile (· = '='))
  | _ => ⟨[], parted, t⟩

/-- The attribute at the start of the text, if one may begin there and does, with the gap after
it. -/
def readAttribute? (parted : Bool) : Text → Option ((Text × Text) × Bool × Text)
  | [] => none
  | c :: t =>
    if parted && !(Text.isBlank c || c = '/' || c = '>') then
      let name := c :: t.takeWhile (!endsAttribute ·)
      let value := readValue (name.getLast?.any isQuote) (t.dropWhile (!endsAttribute ·))
      some ((name, value.text), value.parted || startsWithGap value.rest, skipGap value.rest)
    else none

/-! ## Each part leaves a text that is no longer -/

theorem length_skipGap_le (t : Text) : (skipGap t).length ≤ t.length := by
  fun_induction skipGap t with
  | case1 => exact Nat.le_refl _
  | case2 t => exact Nat.le_refl _
  | case3 c t _ _ ih => exact Nat.le_succ_of_le ih
  | case4 c t _ _ => exact Nat.le_refl _

/-- There is a gap where skipping it takes something away. -/
theorem startsWithGap_iff (t : Text) : startsWithGap t = true ↔ skipGap t ≠ t := by
  fun_cases skipGap t with
  | case1 => simp [startsWithGap]
  | case2 t => simp [startsWithGap]
  | case3 c t hc h =>
    have hne : skipGap t ≠ c :: t := fun e => by
      have := length_skipGap_le t
      rw [e, List.length_cons] at this
      omega
    simp_all [startsWithGap]
  | case4 c t hc h => simp_all [startsWithGap]

theorem length_dropWhile_le (p : Char → Bool) (t : Text) : (t.dropWhile p).length ≤ t.length :=
  (List.dropWhile_sublist p).length_le

theorem length_rest_readBare_le (t : Text) : (readBare t).rest.length ≤ t.length :=
  length_dropWhile_le _ t

theorem length_rest_readAfterEquals_le {several parted : Bool} {before t : Text}
    (h : t.length < before.length) :
    (readAfterEquals several parted before t).rest.length ≤ before.length := by
  have hu := length_dropWhile_le Text.isBlank t
  simp only [readAfterEquals]
  split
  · exact Nat.le_trans (length_rest_readBare_le _) (by omega)
  · next q body hq =>
    rw [hq] at hu
    simp only [List.length_cons] at hu
    split
    · split
      · next inside rest hc =>
        have := (Text.eq_append_of_cut? hc).1
        simp only [this, List.length_append, List.length_cons] at hu
        dsimp only
        omega
      · split
        · rw [hq]
          simp only [List.length_cons]
          omega
        · split
          · refine Nat.le_trans (length_rest_readBare_le _) ?_
            rw [hq]
            simp only [List.length_cons]
            omega
          · exact Nat.le_refl _
    · refine Nat.le_trans (length_rest_readBare_le _) ?_
      rw [hq]
      simp only [List.length_cons]
      omega

theorem length_rest_readValue_le (parted : Bool) (t : Text) :
    (readValue parted t).rest.length ≤ t.length := by
  have hd := length_dropWhile_le Text.isBlank t
  simp only [readValue]
  split
  · next r hr =>
    rw [hr] at hd
    simp only [List.length_cons] at hd
    have := length_dropWhile_le (· = '=') r
    exact length_rest_readAfterEquals_le (by omega)
  · exact Nat.le_refl _

/-- An attribute takes a character at least. -/
theorem length_rest_of_readAttribute? {parted parted' : Bool} {t rest : Text} {a : Text × Text}
    (h : readAttribute? parted t = some (a, parted', rest)) : rest.length < t.length := by
  cases t with
  | nil => simp [readAttribute?] at h
  | cons c t =>
    simp only [readAttribute?] at h
    split at h
    · simp only [Option.some.injEq, Prod.mk.injEq] at h
      obtain ⟨-, -, rfl⟩ := h
      have h1 := length_skipGap_le (readValue
        ((c :: t.takeWhile (!endsAttribute ·)).getLast?.any isQuote)
        (t.dropWhile (!endsAttribute ·))).rest
      have h2 := length_rest_readValue_le
        ((c :: t.takeWhile (!endsAttribute ·)).getLast?.any isQuote)
        (t.dropWhile (!endsAttribute ·))
      have h3 := length_dropWhile_le (!endsAttribute ·) t
      simp only [List.length_cons]
      omega
    · simp at h

/-! ## The tag -/

/-- The attributes at the start of a text, and what follows them. -/
def readAttributes (parted : Bool) (t : Text) : List (Text × Text) × Text :=
  match _h : readAttribute? parted t with
  | none => ([], t)
  | some (a, parted', rest) =>
    let (as, rest') := readAttributes parted' rest
    (a :: as, rest')
termination_by t.length
decreasing_by exact length_rest_of_readAttribute? _h

/-- What a text that begins like a start tag is. -/
inductive Outcome where
  /-- a tag and what follows it -/
  | tag (t : StartTag) (rest : Text)
  /-- no tag; what follows the characters that are not one -/
  | text (rest : Text)
  /-- the beginning of a tag that is not finished -/
  | unfinished
  deriving DecidableEq, Repr

/-- Reads the start tag whose name the text begins with. -/
def read (t : Text) : Outcome :=
  let name := t.takeWhile (!endsName ·)
  let afterName := t.dropWhile (!endsName ·)
  let parted := startsWithGap afterName || name.getLast?.any parts
  let (attributes, rest) := readAttributes parted (skipGap afterName)
  let tag (selfClosing : Bool) : StartTag :=
    ⟨Text.lower name, attributes.map fun (n, v) => (Text.lower n, v), selfClosing⟩
  match rest with
  | '>' :: r => .tag (tag false) r
  | '/' :: '>' :: r => .tag (tag true) r
  | [] => .unfinished
  | '=' :: _ => .unfinished
  | _ => .text rest

/-- The attributes with characters in the place of the references, the first of each name. -/
def decodedAttributes (t : StartTag) : Except Cause Attributes := do
  let decoded ← t.attributes.mapM fun (name, value) => return (name, ← Reference.decode value)
  return Attributes.firstOfEach decoded

end StartTag

end Markup

end StyledText
