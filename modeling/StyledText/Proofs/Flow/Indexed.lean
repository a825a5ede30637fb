import Mathlib.Data.List.Basic
import StyledText.Buffer.View
import StyledText.Consumer
import StyledText.Proofs.Flow.Element

/-!
# Running text by indices

`Flow` takes the end of a text apart as a list. It can be read by indices just as well: the last
character stands at the length less one, and an index that lies outside of the text is a `Fault`.
Whatever looks at characters is written down here once more in this way (`Indexed.blankLine`,
`Indexed.collapse`, `Indexed.backOff`), and so is the level of a heading, which is told by a digit.
On a sound canvas the two ways agree for every event (`Indexed.receive_eq`), so no index is ever out
of its range.

White space is judged by the character before it, wherever that stands: among the characters that
are still to be added, or at the end of the text. So data can be cut anywhere (`data_in_pieces`).
-/

namespace StyledText

namespace Flow

namespace Indexed

/-! ## Reading -/

/-- The character at an index. -/
def read (c : Canvas) (i : Int) : Except Fault Char := Fault.ofRange (c.charAt i)

/-- Every character of the text can be read, by the number of characters before it. -/
theorem read_eq {c : Canvas} {s t : Text} {x : Char} (h : c.text = s ++ x :: t) {i : Int}
    (hi : i = s.length) : read c i = .ok x := by
  subst hi
  simp [read, Buffer.charAt, Text.at?, h]

/-- `Flow.blankLine`, by the last two characters. -/
def blankLine (c : Canvas) : Except Fault Canvas :=
  if c.length = 0 then .ok c
  else (read c (c.length - 1)).bind fun x =>
    if x = '\n' then
      if c.length = 1 then .ok (c.append ['\n'])
      else (read c (c.length - 2)).bind fun y => .ok (if y = '\n' then c else c.append ['\n'])
    else .ok (c.append ['\n', '\n'])

/-- The character that white space is judged by behind `chars`, which are still to be added. -/
def previous (c : Canvas) (chars : Text) : Except Fault Char :=
  match chars.getLast? with
  | some x => .ok x
  | none => if c.length = 0 then .ok '\n' else read c (c.length - 1)

/-- What is added for character data, after `chars`. -/
def collapse (c : Canvas) : Text → Text → Except Fault Text
  | chars, [] => .ok chars
  | chars, x :: t =>
    if isSpace x then
      (previous c chars).bind fun p =>
        if p = ' ' ∨ p = '\n' then collapse c chars t else collapse c (chars ++ [' ']) t
    else collapse c (chars ++ [x]) t

/-- The offset after the last character that is not a newline, from `stop` down to `start`. -/
def backOff (c : Canvas) (start : Nat) : Nat → Except Fault Nat
  | 0 => .ok 0
  | stop + 1 =>
    if start < stop + 1 then
      (read c stop).bind fun x => if x = '\n' then backOff c start stop else .ok (stop + 1)
    else .ok (stop + 1)

/-- Closes the newest heading. -/
def finishHeading (n : Nat) (c : Canvas) : Except Fault Canvas :=
  match newest? .heading c with
  | none => .ok c
  | some (o, s) =>
    (backOff c s.start c.length).bind fun stop =>
      let c : Canvas := c.remove s.what
      if s.start = stop then .ok c else c.attach n o.styles s.start stop

/-- The level of the heading of a lower case name: the digit behind the letter, less one. -/
def headingLevel? (name : Text) : Option Int :=
  match name with
  | ['h', digit] =>
    if '1' ≤ digit ∧ digit ≤ '6' then some ((digit.toNat : Int) - '0'.toNat - 1) else none
  | _ => none

/-! ## Events -/

/-- `State.startTag`, by indices. -/
def startTag (lookup? : Option Image.Lookup) (n : Nat) (tag : Tag) (attributes : Markup.Attributes)
    (f : State) : Except Fault State :=
  match tag with
  | .block => f.draw blankLine
  | .quote => f.draw fun c => (blankLine c).bind (beginElement n .quote)
  | .heading level => f.draw fun c => (blankLine c).bind (beginElement n (.heading level))
  | tag => f.startTag lookup? n tag attributes

/-- `State.endTag`, by indices. -/
def endTag (n : Nat) (tag : Tag) (f : State) : Except Fault State :=
  match tag with
  | .block => f.draw blankLine
  | .quote => f.draw fun c => (blankLine c).bind (finish n .quote)
  | .heading _ => f.draw fun c => (blankLine c).bind (finishHeading n)
  | tag => f.endTag n tag

/-- `State.receive`, by indices. -/
def receive (lookup? : Option Image.Lookup) (n : Nat) (e : Markup.Event) (f : State) :
    Except Fault State :=
  match e with
  | .startElement name attributes =>
    match Tag.ofName? name with
    | some tag => startTag lookup? n tag attributes f
    | none => .ok f
  | .endElement name =>
    match Tag.ofName? name with
    | some tag => endTag n tag f
    | none => .ok f
  | .characters t => f.draw fun c => (collapse c [] t).map c.append
  | _ => .ok f

/-! ## Both ways agree -/

/-- A blank line reads indices of the text only, and adds what is missing. -/
theorem blankLine_eq (c : Canvas) : blankLine c = .ok (Flow.blankLine c) := by
  rcases List.eq_nil_or_concat' c.text with h | ⟨s, x, h⟩
  · simp [blankLine, Flow.blankLine, Buffer.length, h]
  have hx : read c (c.length - 1) = .ok x := read_eq h (by simp [Buffer.length, h])
  rcases List.eq_nil_or_concat' s with rfl | ⟨s, y, rfl⟩
  · have hone : c.length = 1 := by simp [Buffer.length, h]
    rw [blankLine, if_neg (by omega), hx]
    simp only [Except.bind, hone, Flow.blankLine, h]
    by_cases hn : x = '\n' <;> simp [hn]
  · have hy : read c (c.length - 2) = .ok y :=
      read_eq (t := [x]) (by simpa using h) (by simp [Buffer.length, h])
    have htwo : c.length ≠ 0 ∧ c.length ≠ 1 := by simp [Buffer.length, h]
    rw [blankLine, if_neg htwo.1, hx, hy]
    simp only [Except.bind, if_neg htwo.2, Flow.blankLine, h]
    by_cases hn : x = '\n' <;> by_cases hm : y = '\n' <;> simp [hn, hm]

/-- The character before is in the text, if there is none among those that are still to be added. -/
theorem previous_eq (c : Canvas) (chars : Text) :
    previous c chars = .ok (chars.getLastD (lastOf c.text)) := by
  rcases List.eq_nil_or_concat' chars with rfl | ⟨s, x, rfl⟩
  · rcases List.eq_nil_or_concat' c.text with h | ⟨s, x, h⟩
    · simp [previous, lastOf, Buffer.length, h]
    · have hx : read c (c.length - 1) = .ok x := read_eq h (by simp [Buffer.length, h])
      simp only [previous, List.getLast?_nil, hx]
      simp [lastOf, Buffer.length, h]
  · simp [previous]

/-- Collapsing by indices adds the same characters, by induction over the data; all that has been
added so far is what the next character is judged by. -/
theorem collapse_eq (c : Canvas) (t : Text) :
    ∀ chars, collapse c chars t =
      .ok (chars ++ Flow.collapse (chars.getLastD (lastOf c.text)) t) := by
  induction t with
  | nil =>
    intro chars
    simp [collapse, Flow.collapse]
  | cons x t ih =>
    intro chars
    simp only [collapse, Flow.collapse, previous_eq, Except.bind, ih]
    split
    · split
      · rfl
      · simp
    · simp

/-- Backing off reads no character before `start`, so it stops there at the latest; up to there it
leaves out the newlines at the end. -/
theorem backOff_take {c : Canvas} {start : Nat} :
    ∀ {stop : Nat}, start ≤ stop → stop ≤ c.length → backOff c start stop =
      .ok (start + (Text.dropTrailing (· = '\n') ((c.text.take stop).drop start)).length) := by
  intro stop
  -- by induction on the offset that is backed off from, one character at a time
  induction stop with
  | zero =>
    intro hle _
    simp [backOff, Nat.le_zero.mp hle]
  | succ stop ih =>
    intro hle hlen
    have hlt : stop < c.text.length := hlen
    have htake : c.text.take (stop + 1) = c.text.take stop ++ [c.text[stop]] :=
      (List.take_append_getElem hlt).symm
    -- the character before the offset is in the text, as the offset is not beyond its end
    have hread : read c stop = .ok c.text[stop] :=
      read_eq (s := c.text.take stop) (t := c.text.drop (stop + 1)) (by simp)
        (by simp [Nat.min_eq_left (Nat.le_of_lt hlt)])
    rw [backOff]
    split
    next hstart =>
      have hdrop : (c.text.take (stop + 1)).drop start =
          (c.text.take stop).drop start ++ [c.text[stop]] := by
        rw [htake, List.drop_append_of_le_length]
        rw [List.length_take]
        omega
      rw [hread, hdrop, Text.dropTrailing_concat]
      simp only [Except.bind, decide_eq_true_eq]
      split
      · exact ih (by omega) (by omega)
      · simp only [List.length_append, List.length_drop, List.length_take, List.length_singleton]
        congr 1
        omega
    next hstart =>
      have heq : start = stop + 1 := by omega
      rw [heq, List.drop_eq_nil_of_le (by rw [List.length_take]; exact Nat.min_le_left _ _)]
      rfl

/-- A heading is closed up to the same offset in both ways. -/
theorem finishHeading_eq {n : Nat} {c : Canvas} (hc : c.Sound n) :
    finishHeading n c = finish n .heading c := by
  rcases h : newest? .heading c with _ | ⟨o, s⟩
  · simp only [finishHeading, finish, h]
  · have hfit := hc s (newest?_eq_some h).1
    have hback := backOff_take (c := c) (Nat.le_trans hfit.start_le hfit.stop_le) (Nat.le_refl _)
    have htake : c.text.take c.length = c.text := List.take_length
    rw [htake] at hback
    simp only [finishHeading, finish, h, hback]
    rfl

theorem startTag_eq (lookup? : Option Image.Lookup) (n : Nat) (tag : Tag)
    (attributes : Markup.Attributes) (f : State) :
    startTag lookup? n tag attributes f = f.startTag lookup? n tag attributes := by
  cases tag with
  | block =>
    simp only [startTag, State.draw, blankLine_eq]
    rfl
  | quote => simp only [startTag, State.draw, blankLine_eq, State.startTag, Except.bind]
  | heading level => simp only [startTag, State.draw, blankLine_eq, State.startTag, Except.bind]
  | _ => rfl

/-- An end tag does the same in both ways, on a sound canvas, where the start of a heading lies in
the text. -/
theorem endTag_eq {n : Nat} {f : State} (tag : Tag) (hc : f.canvas.Sound n) :
    endTag n tag f = f.endTag n tag := by
  cases tag with
  | block =>
    simp only [endTag, State.draw, blankLine_eq]
    rfl
  | quote => simp only [endTag, State.draw, blankLine_eq, State.endTag, Except.bind]
  | heading level =>
    obtain ⟨t, ht⟩ := (Tag.heading level).before_eq_append f.canvas
    have hs : Canvas.Sound n (Flow.blankLine f.canvas) := by
      rw [show Flow.blankLine f.canvas = Buffer.append f.canvas t from ht]
      exact hc.append t
    simp only [endTag, State.draw, blankLine_eq, State.endTag, Except.bind, finishHeading_eq hs]
  | _ => rfl

/-- **Both ways agree** on every event that comes to a sound canvas. -/
theorem receive_eq (lookup? : Option Image.Lookup) {n : Nat} {f : State} (hc : f.canvas.Sound n)
    (e : Markup.Event) : receive lookup? n e f = f.receive lookup? n e := by
  cases e with
  | startElement name attributes =>
    simp only [receive, State.receive]
    cases Tag.ofName? name with
    | none => rfl
    | some tag => exact startTag_eq lookup? n tag attributes f
  | endElement name =>
    simp only [receive, State.receive]
    cases Tag.ofName? name with
    | none => rfl
    | some tag => exact endTag_eq tag hc
  | characters t =>
    simp only [receive, State.receive, State.draw, collapse_eq]
    rfl
  | _ => rfl

/-- The names of the headings are those with a digit from one to six. -/
theorem lookup_heading :
    ∀ level : Fin 6, Tag.names.lookup ['h', Char.ofNat (49 + level)] = some (.heading level) := by
  decide

/-- The digit of a heading is one of a level that there is, so no table of levels is read out of
range. -/
theorem exists_level_of_headingLevel? {name : Text} {k : Int}
    (h : headingLevel? name.lower = some k) :
    ∃ level : Fin 6, k = level ∧ Tag.ofName? name = some (.heading level) := by
  unfold headingLevel? at h
  split at h
  next digit hname =>
    split at h
    next hdigit =>
      cases h
      have hlow : 49 ≤ digit.toNat := hdigit.1
      have hhigh : digit.toNat ≤ 54 := hdigit.2
      refine ⟨⟨digit.toNat - 49, by omega⟩, ?_, ?_⟩
      · change (digit.toNat : Int) - 48 - 1 = ((digit.toNat - 49 : Nat) : Int)
        omega
      · have hfound := lookup_heading ⟨digit.toNat - 49, by omega⟩
        rw [Nat.add_sub_cancel' hlow, Char.ofNat_toNat] at hfound
        rw [Tag.ofName?, hname]
        exact hfound
    next => cases h
  next => cases h

end Indexed

end Flow

/-- Writes running text, by indices. -/
def flowByIndex (lookup? : Option Image.Lookup) : Consumer Flow.State where
  receive := Flow.Indexed.receive lookup?
  canvas? := some Flow.State.access

/-! ## Data in pieces -/

namespace Flow

/-- Data that comes in two pieces. White space at the beginning of the second is judged by what the
first has left at the end of the text. -/
theorem State.characters_append (f : State) (s t : Text) :
    (f.characters s).characters t = f.characters (s ++ t) := by
  have hlast : lastOf (f.canvas.text ++ collapse (lastOf f.canvas.text) s) =
      (collapse (lastOf f.canvas.text) s).getLastD (lastOf f.canvas.text) := lastOf_append _ _
  simp only [State.characters, Buffer.text_append, hlast, collapse_append]
  simp [Buffer.append]

/-- **How data is cut does not matter.** Pieces of data that come one after another are written like
the whole text at once, behind any text: the canvas is the same, with its marks and its styles. It
makes no difference whether white space is judged by the characters that are still to be added or,
where there are none, by the last character of the text. -/
theorem data_in_pieces (lookup? : Option Image.Lookup) (n : Nat) (pieces : List Text) (f : State) :
    (flowByIndex lookup?).runFrom n (pieces.map .characters) f =
        .ok (f.characters pieces.flatten) ∧
      (flow lookup?).runFrom n (pieces.map .characters) f = .ok (f.characters pieces.flatten) := by
  induction pieces generalizing n f with
  | nil =>
    have hnone : f.characters [] = f := by simp [State.characters, collapse, Buffer.append]
    exact ⟨congrArg Except.ok hnone.symm, congrArg Except.ok hnone.symm⟩
  | cons t pieces ih =>
    have hindex : (flowByIndex lookup?).receive n (.characters t) f = .ok (f.characters t) := by
      simp only [flowByIndex, Indexed.receive, State.draw, Indexed.collapse_eq]
      rfl
    obtain ⟨hpieces, hpieces'⟩ := ih (n + 1) (f.characters t)
    rw [List.flatten_cons, ← State.characters_append]
    constructor
    · rw [List.map_cons, Consumer.runFrom, hindex]
      exact hpieces
    · exact hpieces'

/-- A run of white space that is cut, behind a space that the first piece has left. -/
example : (flow none).runFrom 0 [.characters "a ".toList, .characters "\n".toList,
    .characters " b".toList] {} = .ok { canvas := Buffer.ofText "a b".toList } := by
  decide +kernel

end Flow

end StyledText
