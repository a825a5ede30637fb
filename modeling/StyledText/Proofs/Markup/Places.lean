import StyledText.Proofs.Formatted
import StyledText.Proofs.Markup.OnePass
import StyledText.Proofs.Markup.Template.Reading

/-!
# Where faults are reported

Formatting reads a markup whose tags have been renamed, behind a placeholder, so it reports the
place of a fault in that text. The markup itself cannot be read either, and the fault is at the same
place of it (`Markup.faults_alike`). No line is added or taken away, but on its line the place is
further on by what renaming has made longer before it, and on the first line by the placeholder as
well (`format_fault_place`).
-/

namespace StyledText

/-! ## Lines and columns -/

namespace Position

variable {s t : Text} {p : Position}

/-- The line of a place is told by the newlines before it, whatever else the text holds. -/
theorem line_after (p : Position) (t : Text) : (p.after t).line = p.line + t.count '\n' := by
  induction t generalizing p with
  | nil => rfl
  | cons c t ih =>
    have hcons : p.after (c :: t) = (p.next c).after t := rfl
    rw [hcons, ih, next]
    split
    next hc =>
      rw [hc, List.count_cons_self]
      simp only
      omega
    next hc => rw [List.count_cons_of_ne hc]

/-- On one line the column moves on by the characters, and the line stays. -/
theorem after_of_notMem (ht : '\n' ∉ t) (p : Position) : p.after t = ⟨p.line, p.column + t.length⟩ := by
  induction t generalizing p with
  | nil => rfl
  | cons c t ih =>
    obtain ⟨hc, ht⟩ := not_or.mp (mt List.mem_cons.mpr ht)
    have hcons : p.after (c :: t) = (p.next c).after t := rfl
    rw [hcons, ih ht, next, if_neg (Ne.symm hc), List.length_cons]
    simp only [mk.injEq, true_and]
    omega

/-- Behind a newline the columns begin anew, so nothing that stands on earlier lines counts for the
column. -/
theorem column_after_newline (p : Position) (s : Text) : (p.after (s ++ ['\n'])).column = 0 := by
  rw [after_append]
  rfl

end Position

namespace Text

variable {c : Char} {lines s t w : Text} {p : Pattern} {by' : Text}

/-- Whether a line begins behind a text. -/
def EndsLine (t : Text) : Prop := ∀ c ∈ t.getLast?, c = '\n'

/-- A line begins at the start of the text, or behind a newline and nowhere else. -/
theorem EndsLine.eq_nil_or (h : EndsLine t) : t = [] ∨ ∃ s, t = s ++ ['\n'] := by
  rcases List.eq_nil_or_concat t with rfl | ⟨s, c, rfl⟩
  · exact .inl rfl
  · have hc : c = '\n' := h c (by simp)
    exact .inr ⟨s, by rw [hc, List.concat_eq_append]⟩

theorem endsLine_newline (s : Text) : EndsLine (s ++ ['\n']) := by simp [EndsLine]

/-- A text is lines and the beginning of one. It is in this form that places are told, since the two
parts give the line and the column. -/
theorem exists_lines (t : Text) : ∃ lines line, t = lines ++ line ∧ EndsLine lines ∧ '\n' ∉ line := by
  induction t with
  | nil => exact ⟨[], [], rfl, by simp [EndsLine], List.not_mem_nil⟩
  | cons c t ih =>
    obtain ⟨lines, line, rfl, hlines, hline⟩ := ih
    rcases hlines.eq_nil_or with rfl | ⟨s, rfl⟩
    · by_cases hc : c = '\n'
      · exact ⟨[c], line, rfl, by simp [EndsLine, hc], hline⟩
      · exact ⟨[], c :: line, rfl, by simp [EndsLine], by simp [Ne.symm hc, hline]⟩
    · exact ⟨c :: s ++ ['\n'], line, rfl, endsLine_newline (c :: s), hline⟩

/-- The place behind lines and the beginning of one. The column of the place from which the text
starts counts only if there are no lines. -/
theorem EndsLine.after_eq (h : EndsLine lines) (ht : '\n' ∉ t) (p : Position) :
    p.after (lines ++ t) =
      ⟨p.line + lines.count '\n', (if lines = [] then p.column else 0) + t.length⟩ := by
  rw [Position.after_append, Position.after_of_notMem ht, Position.line_after]
  rcases h.eq_nil_or with rfl | ⟨s, rfl⟩
  · rw [if_pos rfl, Position.after_nil]
  · rw [Position.column_after_newline, if_neg (by simp)]

/-- No pattern reaches over a character that it does not have, so whether it begins somewhere is
told by the text before that character. -/
theorem prefix_append_cons_iff (hw : c ∉ w) : w <+: s ++ c :: t ↔ w <+: s := by
  refine ⟨fun h => ?_, fun h => h.trans (List.prefix_append s _)⟩
  rcases List.prefix_or_prefix_of_prefix h (List.prefix_append s _) with hpre | ⟨u, rfl⟩
  · exact hpre
  · cases u with
    | nil => simp
    | cons d u =>
      rw [List.prefix_append_right_inj, List.cons_prefix_cons] at h
      exact absurd (by simp [h.1]) hw

/-- The texts before and behind such a character are replaced by themselves. Patterns of tags have
no newline, and so lines are renamed one by one. -/
theorem replace_append_cons (hp : c ∉ p.toText) (s t : Text) :
    replace p by' (s ++ c :: t) = replace p by' s ++ c :: replace p by' t := by
  obtain ⟨hfirst, hrest⟩ := not_or.mp (mt List.mem_cons.mpr hp)
  fun_induction replace p by' s with
  | case1 =>
    exact replace_cons_of_not_atStart (by simp [Pattern.atStart, hfirst])
  | case2 d s h ih =>
    obtain ⟨rfl, u, rfl⟩ : d = p.first ∧ p.rest <+: s := by simpa [Pattern.atStart] using h
    rw [List.drop_left] at ih ⊢
    have hhit : replace p by' (p.toText ++ (u ++ c :: t)) = by' ++ replace p by' (u ++ c :: t) :=
      replace_append_of_toText
    rw [ih, Pattern.toText] at hhit
    simpa using hhit
  | case3 d s h ih =>
    have hmiss : p.atStart (d :: (s ++ c :: t)) = false := by
      simpa [Pattern.atStart, ← Bool.not_eq_true, List.isPrefixOf_iff_prefix,
        prefix_append_cons_iff hrest] using h
    rw [List.cons_append, replace_cons_of_not_atStart hmiss, ih, List.cons_append]

end Text

namespace Markup

open Spelling

/-! ## Renaming line by line -/

namespace Renamed

variable {r : Renamed} {t : Text}

/-- What begins a tag begins it with more text behind. Whether a tag is renamed can therefore be
told from a beginning of the markup that holds it. -/
theorem Begins.append (h : r.Begins t) (u : Text) : r.Begins (t ++ u) :=
  h.imp (·.trans (List.prefix_append t u)) (·.trans (List.prefix_append t u))

/-- Neither the patterns nor the reserved names have a newline: renaming adds no line and takes none
away. -/
theorem newline_notMem (r : Renamed) : '\n' ∉ r.startPattern.toText ∧ '\n' ∉ r.endPattern.toText ∧
    '\n' ∉ r.reserved := by
  cases r <;> decide

/-- All four renamings one after another go line by line, since each of them does. -/
theorem renameAll_append_newline (l : List Renamed) (s t : Text) :
    renameAll l (s ++ '\n' :: t) = renameAll l s ++ '\n' :: renameAll l t := by
  induction l generalizing s t with
  | nil => rfl
  | cons r l ih =>
    have hrename : r.rename (s ++ '\n' :: t) = r.rename s ++ '\n' :: r.rename t := by
      rw [rename, Text.replace_append_cons r.newline_notMem.1,
        Text.replace_append_cons r.newline_notMem.2.1]
      rfl
    exact (congrArg (renameAll l) hrename).trans (ih _ _)

end Renamed

/-- A text has a newline under reserved names just if it has one. -/
theorem newline_mem_reserveTags_iff {t : Text} : '\n' ∈ reserveTags t ↔ '\n' ∈ t :=
  Renamed.mem_renameAll_iff fun r _ =>
    ⟨⟨r.newline_notMem.1, r.newline_notMem.2.1⟩, r.newline_notMem.2.2⟩

/-- The beginning of a tag alone is no tag that is renamed. -/
theorem reserveTags_bracket : reserveTags ['<'] = ['<'] := by decide +kernel

/-- Nor is the beginning of an end tag. -/
theorem reserveTags_slash : reserveTags ['<', '/'] = ['<', '/'] := by decide +kernel

/-- Behind a line tags are renamed by themselves, so what stands on earlier lines can be put
aside. -/
theorem reserveTags_append_of_endsLine {lines : Text} (h : Text.EndsLine lines) (line : Text) :
    reserveTags (lines ++ line) = reserveTags lines ++ reserveTags line := by
  have hnil : reserveTags [] = [] := reserveTags_of_notMem List.not_mem_nil
  have hnewline (s t : Text) : reserveTags (s ++ '\n' :: t) = reserveTags s ++ '\n' :: reserveTags t :=
    Renamed.renameAll_append_newline Renamed.all s t
  rcases h.eq_nil_or with rfl | ⟨s, rfl⟩
  · rw [hnil]
    rfl
  · rw [hnewline s [], hnil, List.append_assoc, List.append_assoc]
    exact hnewline s line

/-! ## The template of a markup -/

namespace Spelling

variable {σ : Spelling} {T : Template} {c : Char}

/-- A character that cannot stand in a name is there as often as in the template, under either kind
of name. -/
theorem count_fill (hc : isWordChar c = false) (σ : Spelling) (T : Template) :
    (σ.fill T).count c = T.count (.char c) := by
  induction T with
  | nil => rfl
  | cons s T ih =>
    cases s with
    | char d => simp [List.count_cons, ih]
    | name r =>
      have hname : c ∉ σ.name r := fun hmem => ne_of_isWordChar (isWordChar_of_mem_name hmem) hc rfl
      rw [fill_name, List.count_append, List.count_eq_zero_of_not_mem hname, ih,
        List.count_cons_of_ne (by simp), Nat.zero_add]

/-- Reserved names are longer than those that they replace, so a place on a line moves to the right
or stays. -/
theorem length_fill_le (T : Template) : (plain.fill T).length ≤ (reserved.fill T).length := by
  induction T with
  | nil => exact Nat.le_refl 0
  | cons s T ih =>
    cases s with
    | char c => exact Nat.succ_le_succ ih
    | name r =>
      have hname : (plain.name r).length ≤ (reserved.name r).length := by cases r <;> decide
      rw [fill_name, fill_name, List.length_append, List.length_append]
      exact Nat.add_le_add hname ih

/-- Without names nothing is longer, and with one something is. -/
theorem fill_eq_of_length_eq (h : (reserved.fill T).length = (plain.fill T).length) :
    reserved.fill T = plain.fill T := by
  induction T with
  | nil => rfl
  | cons s T ih =>
    cases s with
    | char c => exact congrArg (c :: ·) (ih (Nat.succ.inj h))
    | name r =>
      have hname : (plain.name r).length < (reserved.name r).length := by cases r <;> decide
      have hrest := length_fill_le T
      rw [fill_name, fill_name, List.length_append, List.length_append] at h
      omega

end Spelling

namespace Template

variable {A B T : Template}

/-- Whether the open names of a template are those of the tags that are renamed in it. -/
inductive Marked : Template → Prop
  | nil : Marked []
  | other {c : Char} {T : Template} (hc : c ≠ '<') (h : Marked T) : Marked (.char c :: T)
  | start (r : Renamed) {T : Template} (h : Marked T) : Marked (.char '<' :: .name r :: T)
  | stop (r : Renamed) {T : Template} (h : Marked T) :
      Marked (.char '<' :: .char '/' :: .name r :: .char '>' :: T)
  | miss {T : Template} (hT : ∀ r : Renamed, ¬ r.Begins (plain.fill T)) (h : Marked T) :
      Marked (.char '<' :: T)

/-- A marked template does not begin with a name: there is a bracket before each of them, and in the
template of an end tag a slash as well. -/
theorem Marked.head?_ne (h : Marked T) (r : Renamed) : T.head? ≠ some (.name r) := by
  cases h <;> simp

/-- Every markup has a template, with a name wherever renaming finds one. It is made from the front,
as the markup is searched. -/
theorem exists_marked (t : Text) : ∃ T, Marked T ∧ plain.fill T = t := by
  refine tagRules_apart.induction (P := fun t => ∃ T, Marked T ∧ plain.fill T = t) ?_ ?_ ?_ ?_ t
  · exact ⟨[], .nil, rfl⟩
  · rintro c t hc ⟨T, hT, rfl⟩
    exact ⟨.char c :: T, .other hc hT, rfl⟩
  · rintro rule hrule t ⟨T, hT, rfl⟩
    obtain ⟨r, rfl | rfl⟩ := mem_tagRules_iff.mp hrule
    · exact ⟨_, .start r hT, rfl⟩
    · exact ⟨_, .stop r hT, by simp [Renamed.endRule, Renamed.endPattern, Spelling.name]⟩
  · rintro t ht ⟨T, hT, rfl⟩
    refine ⟨.char '<' :: T, .miss (fun r hbegins => ?_) hT, rfl⟩
    rcases hbegins with hstart | hend
    · exact ht _ (mem_tagRules_iff.mpr ⟨r, .inl rfl⟩) hstart
    · exact ht _ (mem_tagRules_iff.mpr ⟨r, .inr rfl⟩) hend

/-- In a marked template names stand where tags can have them, which is what reading under both
kinds of name asks for. -/
theorem Marked.placed (h : Marked T) : Placed T := by
  have hcons {s : Symbol} {T : Template} (hT : Marked T) (hplaced : Placed T) : Placed (s :: T) := by
    refine List.isChain_cons.mpr ⟨?_, hplaced⟩
    rintro s' hs' r rfl
    exact absurd hs' (hT.head?_ne r)
  have hname {s : Symbol} {r : Renamed} {T : Template} (hs : s = .char '<' ∨ s = .char '/')
      (hplaced : Placed (.name r :: T)) : Placed (s :: .name r :: T) :=
    List.isChain_cons_cons.mpr ⟨fun _ _ => hs, hplaced⟩
  induction h with
  | nil => exact List.isChain_nil
  | other hc h ih => exact hcons h ih
  | start r h ih => exact hname (.inl rfl) (hcons h ih)
  | stop r h ih =>
    have hclose := hname (r := r) (.inr rfl) (hcons (.other (c := '>') (by decide) h) (hcons h ih))
    refine List.isChain_cons_cons.mpr ⟨?_, hclose⟩
    rintro r' ⟨⟩
  | miss hT h ih => exact hcons h ih

/-- What stands before a cut can lose its first symbol, so the induction on a marked template can go
on. -/
theorem CleanCut.of_cons {s : Symbol} (h : CleanCut (s :: A) B) : CleanCut A B := by
  rintro ⟨r, hr⟩
  exact h ⟨r, by rw [List.getLast?_cons, hr]; rfl⟩

/-- **Tags are renamed** in the beginning of a markup like in the whole, if it does not end in one.
So the text before the place of a fault can be renamed by itself. -/
theorem Marked.reserved_fill (h : Marked (A ++ B)) (hcut : CleanCut A B) :
    reserved.fill A = reserveTags (plain.fill A) := by
  have hnil : reserveTags [] = [] := reserveTags_of_notMem List.not_mem_nil
  generalize hT : A ++ B = T at h
  -- a tag is cut before it, behind its bracket, behind its slash, or not at all
  induction h generalizing A with
  | nil =>
    obtain rfl := (List.append_eq_nil_iff.mp hT).1
    exact hnil.symm
  | other hc h ih =>
    rcases A with _ | ⟨s, A⟩
    · exact hnil.symm
    obtain ⟨rfl, rfl⟩ := List.cons.inj hT
    rw [fill_char, fill_char, ih hcut.of_cons rfl]
    exact (reserveTags_append_of_notMem (s := [_]) (by simpa using Ne.symm hc) _).symm
  | start r h ih =>
    rcases A with _ | ⟨s₁, _ | ⟨s₂, A⟩⟩
    · exact hnil.symm
    · obtain ⟨rfl, -⟩ := List.cons.inj hT
      exact reserveTags_bracket.symm
    · simp only [List.cons_append, List.cons.injEq] at hT
      obtain ⟨rfl, rfl, rfl⟩ := hT
      rw [fill_char, fill_char, fill_name, fill_name, ih hcut.of_cons.of_cons rfl]
      exact (reserveTags_start r _).symm
  | stop r h ih =>
    rcases A with _ | ⟨s₁, _ | ⟨s₂, _ | ⟨s₃, _ | ⟨s₄, A⟩⟩⟩⟩
    · exact hnil.symm
    · obtain ⟨rfl, -⟩ := List.cons.inj hT
      exact reserveTags_bracket.symm
    · simp only [List.cons_append, List.cons.injEq] at hT
      obtain ⟨rfl, rfl, -⟩ := hT
      exact reserveTags_slash.symm
    · -- here the bracket of the tag would be cut off
      simp only [List.cons_append, List.nil_append, List.cons.injEq] at hT
      obtain ⟨-, -, rfl, rfl⟩ := hT
      exact absurd rfl (hcut ⟨r, rfl⟩)
    · simp only [List.cons_append, List.cons.injEq] at hT
      obtain ⟨rfl, rfl, rfl, rfl, rfl⟩ := hT
      have hrest := ih hcut.of_cons.of_cons.of_cons.of_cons rfl
      simp only [fill_char, fill_name, hrest]
      exact (reserveTags_end r _).symm
  | miss hmiss h ih =>
    rcases A with _ | ⟨s, A⟩
    · exact hnil.symm
    simp only [List.cons_append, List.cons.injEq] at hT
    obtain ⟨rfl, rfl⟩ := hT
    rw [fill_char, fill_char, ih hcut.of_cons rfl, reserveTags_of_not_begins fun r hbegins => ?_]
    refine hmiss r ?_
    rw [fill_append]
    exact hbegins.append _

/-- In particular the whole markup under reserved names is its template with reserved names filled
in. -/
theorem Marked.reserved_fill_self (h : Marked T) : reserved.fill T = reserveTags (plain.fill T) :=
  reserved_fill (B := []) (by rwa [List.append_nil]) fun _ => by simp

end Template

/-! ## Lines with renamed tags -/

/-- No line is added or taken away. -/
theorem count_newline_reserveTags (t : Text) : (reserveTags t).count '\n' = t.count '\n' := by
  obtain ⟨T, hT, rfl⟩ := Template.exists_marked t
  rw [← hT.reserved_fill_self, count_fill (by decide), count_fill (by decide)]

/-- No text gets shorter. -/
theorem length_le_reserveTags (t : Text) : t.length ≤ (reserveTags t).length := by
  obtain ⟨T, hT, rfl⟩ := Template.exists_marked t
  rw [← hT.reserved_fill_self]
  exact length_fill_le T

/-- Text is as long as before only if no tag has been renamed in it. By this the columns agree only
where the texts do. -/
theorem length_reserveTags_eq_iff (t : Text) : (reserveTags t).length = t.length ↔ reserveTags t = t := by
  refine ⟨fun h => ?_, congrArg List.length⟩
  obtain ⟨T, hT, rfl⟩ := Template.exists_marked t
  rw [← hT.reserved_fill_self] at h ⊢
  exact fill_eq_of_length_eq h

/-- Of no text is nothing left. -/
theorem reserveTags_eq_nil_iff {t : Text} : reserveTags t = [] ↔ t = [] := by
  rw [← List.head?_eq_none_iff, head?_reserveTags, List.head?_eq_none_iff]

/-- Lines stay lines when their tags are renamed. -/
theorem endsLine_reserveTags {lines : Text} (h : Text.EndsLine lines) :
    Text.EndsLine (reserveTags lines) := by
  rcases h.eq_nil_or with rfl | ⟨s, rfl⟩
  · rw [reserveTags_of_notMem List.not_mem_nil]
    exact h
  · have hnewline : reserveTags (s ++ ['\n']) = reserveTags s ++ '\n' :: reserveTags [] :=
      Renamed.renameAll_append_newline Renamed.all s []
    rw [hnewline, reserveTags_of_notMem List.not_mem_nil]
    exact Text.endsLine_newline _

/-- The place behind lines and the beginning of one, once their tags have been renamed. The
placeholder stands on the first line, and is all that is added there besides. -/
theorem after_reserveNames {lines line : Text} (hlines : Text.EndsLine lines) (hline : '\n' ∉ line) :
    Position.start.after (reserveNames (lines ++ line)) =
      ⟨lines.count '\n' + 1,
        (if lines = [] then placeholder.length else 0) + (reserveTags line).length⟩ := by
  have hline' : '\n' ∉ reserveTags line := mt newline_mem_reserveTags_iff.mp hline
  rw [reserveNames_eq, Position.after_append, reserveTags_append_of_endsLine hlines,
    (endsLine_reserveTags hlines).after_eq hline', Position.after_of_notMem (by decide),
    count_newline_reserveTags]
  simp [reserveTags_eq_nil_iff, Position.start, Nat.add_comm]

/-! ## Faults -/

/-- **A markup can be read under both kinds of name, or under neither**; then the faults are at the
same place of it, whichever they are. -/
theorem faults_alike (html : Text) :
    ((read html).fault = none ∧ (read (reserveNames html)).fault = none) ∨
      ∃ f f' place rest, (read html).fault = some f ∧ (read (reserveNames html)).fault = some f' ∧
        html = place ++ rest ∧ f.position = Position.start.after place ∧
        f'.position = Position.start.after (reserveNames place) ∧
        reserveNames place <+: reserveNames html := by
  obtain ⟨T, hT, rfl⟩ := Template.exists_marked html
  -- the placeholder is read without a fault, and the rest is the same template
  have hreserved : (read (reserveNames (plain.fill T))).fault =
      (Reading.startingAt (Position.start.after placeholder) none (reserved.fill T)).fault := by
    rw [fault_read, reserveNames_eq, startingAt_append_placeholder, Reading.fault_prepend,
      hT.reserved_fill_self]
  rw [fault_read, hreserved]
  cases Reading.stops none hT.placed with
  | never h => exact .inl ⟨h plain _, h reserved _⟩
  | behind A B hAB hcut h =>
    subst hAB
    obtain ⟨cause, hplain⟩ := h plain Position.start
    obtain ⟨cause', hrenamed⟩ := h reserved (Position.start.after placeholder)
    have hA : reserveNames (plain.fill A) = placeholder ++ reserved.fill A := by
      rw [reserveNames_eq, hT.reserved_fill hcut]
    refine .inr ⟨_, _, plain.fill A, plain.fill B, hplain, hrenamed, fill_append _ A B, rfl, ?_, ?_⟩
    · rw [hA, Position.after_append]
    · rw [hA, reserveNames_eq, ← hT.reserved_fill_self, fill_append]
      exact (List.prefix_append_right_inj _).mpr (List.prefix_append _ _)

end Markup

/-! ## Formatting -/

open Markup (placeholder reserveTags reserveNames)

variable {r : Request} {html : Text} {f f' : Markup.Fault}

/-- What formatting reports is the fault of the markup with reserved names, and it reports it as it
is. -/
theorem fault_of_format (h : (format r html).result = .error (.markup f)) :
    (Markup.read (reserveNames html)).fault = some f := by
  cases hstart : r.interceptor with
  | error e => cases h.symm.trans (result_of_interceptor_error hstart html)
  | ok t =>
    obtain ⟨n, d, -, hresult⟩ := exists_draft_of_interceptor hstart html
    rw [h] at hresult
    cases hfault : (Markup.read (reserveNames html)).fault with
    | none => simp [hfault] at hresult
    | some fault =>
      rw [hfault] at hresult
      cases hresult
      rfl

/-- **Faults are reported where they are in the markup with reserved names.** The markup itself
cannot be read either. Its fault is behind `lines`, which end with a newline unless there are none,
and behind `line`, the beginning of the next one. Formatting reports the same line; but it counts
the columns of the same beginning with its tags renamed, and those of the placeholder on the first
line. So it reports the place in the markup only if that is on a later line and no tag has been
renamed before it on that line. -/
theorem format_fault_place (h : (format r html).result = .error (.markup f')) :
    ∃ f lines line rest, (Markup.read html).fault = some f ∧ html = lines ++ line ++ rest ∧
      Text.EndsLine lines ∧ '\n' ∉ line ∧
      f.position = ⟨lines.count '\n' + 1, line.length⟩ ∧
      f'.position = ⟨lines.count '\n' + 1,
        (if lines = [] then placeholder.length else 0) + (reserveTags line).length⟩ ∧
      reserveNames (lines ++ line) <+: reserveNames html ∧
      (f'.position = f.position ↔ lines ≠ [] ∧ reserveTags line = line) := by
  rcases Markup.faults_alike html with ⟨-, hnone⟩ |
    ⟨f, fault, place, rest, hread, hreserved, hhtml, hplace, hplace', hpre⟩
  · cases hnone.symm.trans (fault_of_format h)
  obtain rfl : fault = f' := Option.some.inj (hreserved.symm.trans (fault_of_format h))
  obtain ⟨lines, line, rfl, hlines, hline⟩ := Text.exists_lines place
  have hposition : f.position = ⟨lines.count '\n' + 1, line.length⟩ := by
    rw [hplace, hlines.after_eq hline]
    simp [Position.start, Nat.add_comm]
  rw [Markup.after_reserveNames hlines hline] at hplace'
  refine ⟨f, lines, line, rest, hread, hhtml, hlines, hline, hposition, hplace', hpre, ?_⟩
  have hlonger := Markup.length_le_reserveTags line
  have hlength : 0 < placeholder.length := by decide
  rw [hposition, hplace', ← Markup.length_reserveTags_eq_iff]
  by_cases hfirst : lines = []
  · simp only [hfirst, if_true, Position.mk.injEq, ne_eq, not_true_eq_false, false_and, iff_false, not_and]
    omega
  · simp [hfirst]

/-- A link that has been renamed stands before the marked section on its line. -/
theorem format_fault_place_secondLine :
    ∃ f' f : Markup.Fault, (format {} "<p>\n<a><![x]>".toList).result = .error (.markup f') ∧
      (Markup.read "<p>\n<a><![x]>".toList).fault = some f ∧
      f.position = ⟨2, 3⟩ ∧ f'.position = ⟨2, 29⟩ ∧
      ∃ lines line rest, "<p>\n<a><![x]>".toList = lines ++ line ++ rest ∧
        f.position = ⟨lines.count '\n' + 1, line.length⟩ ∧
        f'.position = ⟨lines.count '\n' + 1,
          (if lines = [] then placeholder.length else 0) + (reserveTags line).length⟩ ∧
        ¬ (lines ≠ [] ∧ reserveTags line = line) := by
  have hresult : (format {} "<p>\n<a><![x]>".toList).result =
      .error (.markup ⟨.unknownKeyword "x".toList, ⟨2, 29⟩⟩) := by decide +kernel
  have hread : (Markup.read "<p>\n<a><![x]>".toList).fault =
      some ⟨.unknownKeyword "x".toList, ⟨2, 3⟩⟩ := by decide +kernel
  obtain ⟨f, lines, line, rest, hfault, hhtml, -, -, hplace, hplace', -, hiff⟩ :=
    format_fault_place hresult
  obtain rfl := Option.some.inj (hread.symm.trans hfault)
  exact ⟨_, _, hresult, hread, rfl, rfl, lines, line, rest, hhtml, hplace, hplace',
    mt hiff.mpr (by decide)⟩

/-- **The place in the markup is not what is reported.** Here it is that of the first character. -/
theorem not_format_fault_place_eq :
    ¬ ∀ (r : Request) (html : Text) (f' : Markup.Fault),
      (format r html).result = .error (.markup f') →
        ∃ f, (Markup.read html).fault = some f ∧ f'.position = f.position := by
  intro h
  have hresult : (format {} "<![x]>".toList).result =
      .error (.markup ⟨.unknownKeyword "x".toList, ⟨1, 71⟩⟩) := by decide +kernel
  have hread : (Markup.read "<![x]>".toList).fault =
      some ⟨.unknownKeyword "x".toList, ⟨1, 0⟩⟩ := by decide +kernel
  obtain ⟨f, hfault, hsame⟩ := h {} "<![x]>".toList _ hresult
  obtain rfl := Option.some.inj (hread.symm.trans hfault)
  exact absurd hsame (by decide)

end StyledText
