import StyledText.Markup.Fault
import StyledText.Markup.Reference.Capital
import StyledText.Markup.Reference.Small

/-!
# Character references

An ampersand may begin a reference to a character: by its code point in decimal or hexadecimal, or
by a name. A reference ends with a semicolon, which may be left out. `decode` puts the characters in
the place of the references; an ampersand that begins none stays.

A name that is not in the table may still begin with one that is. The longest such beginning, of two
characters at least, is the reference then, and the rest is text.
-/

namespace StyledText

open Markup

/-- A reference, as it is written after its ampersand. -/
inductive Reference where
  | decimal (digits : Text)
  | hexadecimal (digits : Text)
  /-- a name, with its semicolon where it has one -/
  | named (name : Text)
  deriving DecidableEq, Repr

namespace Reference

/-! ## Which characters are a reference -/

/-- Whether the character may occur in the name of a character. -/
def isNameChar (c : Char) : Bool :=
  c ∉ ['\t', '\n', '\x0c', ' ', '<', '&', '#', ';']

/-- Whether the character is a hexadecimal digit. -/
def isHexDigit (c : Char) : Bool :=
  c.isDigit || 'a' ≤ c && c ≤ 'f' || 'A' ≤ c && c ≤ 'F'

/-- The size of the semicolon after the first `n` characters, if there is one. -/
def semicolonAt (t : Text) (n : Nat) : Nat := if t[n]? = some ';' then 1 else 0

/-- The longest name that can be written. -/
def nameLimit : Nat := 32

/-- The named reference at the start of a text, and its size. -/
def readNamed? (t : Text) : Option (Reference × Nat) :=
  let size := min nameLimit (t.takeWhile isNameChar).length
  if size = 0 then none
  else
    let size := size + semicolonAt t size
    some (named (t.take size), size)

/-- The reference that the text after an ampersand begins with, and its size. -/
def read? (t : Text) : Option (Reference × Nat) :=
  match t with
  | '#' :: c :: r =>
    let digits := (c :: r).takeWhile Char.isDigit
    let hexDigits := r.takeWhile isHexDigit
    if digits ≠ [] then
      some (decimal digits, 1 + digits.length + semicolonAt t (1 + digits.length))
    else if (c = 'x' ∨ c = 'X') ∧ hexDigits ≠ [] then
      some (hexadecimal hexDigits, 2 + hexDigits.length + semicolonAt t (2 + hexDigits.length))
    else none
  | _ => readNamed? t

/-! ## What a reference stands for -/

/-- The code points that stand for the characters of the old table of western letters. -/
def westernLetters : List (Nat × Nat) := [
  (0x80, 0x20AC), (0x82, 0x201A), (0x83, 0x0192), (0x84, 0x201E), (0x85, 0x2026), (0x86, 0x2020),
  (0x87, 0x2021), (0x88, 0x02C6), (0x89, 0x2030), (0x8A, 0x0160), (0x8B, 0x2039), (0x8C, 0x0152),
  (0x8E, 0x017D), (0x91, 0x2018), (0x92, 0x2019), (0x93, 0x201C), (0x94, 0x201D), (0x95, 0x2022),
  (0x96, 0x2013), (0x97, 0x2014), (0x98, 0x02DC), (0x99, 0x2122), (0x9A, 0x0161), (0x9B, 0x203A),
  (0x9C, 0x0153), (0x9E, 0x017E), (0x9F, 0x0178)]

/-- Whether the code point is a control or a noncharacter that a reference may not bring in. -/
def isDropped (n : Nat) : Bool :=
  1 ≤ n && n ≤ 8 || n == 0xB || 0xE ≤ n && n ≤ 0x1F || n == 0x7F
    || 0xFDD0 ≤ n && n ≤ 0xFDEF || 0xFFFE ≤ n % 0x10000

/-- The characters that a reference to a code point brings in. -/
def ofCodePoint (n : Nat) : Text :=
  if n = 0 ∨ 0xD800 ≤ n ∧ n ≤ 0xDFFF ∨ 0x10FFFF < n then ['\uFFFD']
  else match westernLetters.lookup n with
    | some letter => [Char.ofNat letter]
    | none => if isDropped n then [] else [Char.ofNat n]

/-- The number that digits write in a base; a digit beyond nine is a letter of either case. -/
def valueIn (base : Nat) (digits : Text) : Nat :=
  digits.foldl (fun n c => base * n + if c.isDigit then c.toNat - 48 else c.toLower.toNat - 87) 0

/-- The characters that a name stands for, if it is in the table. -/
def lookup? (name : Text) : Option Text :=
  match name with
  | [] => none
  | c :: _ =>
    ((capitalNames c ++ smallNames c).lookup (String.ofList name)).map (·.map Char.ofNat)

/-- The characters that a written name stands for. -/
def ofName (name : Text) : Text :=
  ((lookup? name).orElse fun _ =>
    (List.range (name.length - 2)).findSome? fun k =>
      let size := name.length - 1 - k
      (lookup? (name.take size)).map (· ++ name.drop size)).getD ('&' :: name)

/-- The characters that a reference stands for. -/
def value : Reference → Except Cause Text
  | decimal digits =>
    if numeralLimit < digits.length then .error (.longNumeral digits.length)
    else .ok (ofCodePoint (valueIn 10 digits))
  | hexadecimal digits => .ok (ofCodePoint (valueIn 16 digits))
  | named name => .ok (ofName name)

/-- The text with characters in the place of the references. -/
def decode : Text → Except Cause Text
  | [] => .ok []
  | c :: t =>
    match if c = '&' then read? t else none with
    | none => return c :: (← decode t)
    | some (reference, size) => return (← reference.value) ++ (← decode (t.drop size))
termination_by t => t.length
decreasing_by
  · simp
  · simp only [List.length_drop, List.length_cons]; omega

/-! ## Laws -/

@[simp] theorem decode_nil : decode [] = .ok [] := by simp [decode]

/-- Text. A character that is no ampersand stays. -/
theorem decode_cons_of_ne {c : Char} {t : Text} (h : c ≠ '&') :
    decode (c :: t) = (decode t).map (c :: ·) := by
  rw [decode]
  simp only [h, if_false]
  cases decode t <;> rfl

/-- Reference. What stands for a reference is followed by the rest of the text. -/
theorem decode_ampersand {t : Text} {reference : Reference} {size : Nat}
    (h : read? t = some (reference, size)) :
    decode ('&' :: t) = do return (← reference.value) ++ (← decode (t.drop size)) := by
  rw [decode]
  simp only [if_true, h]

example : (decode "a&lt;b&amp;&#65;&#x42;&ampx&nope;&".toList).toOption =
    some "a<b&AB&x&nope;&".toList := by decide +kernel

end Reference

end StyledText
