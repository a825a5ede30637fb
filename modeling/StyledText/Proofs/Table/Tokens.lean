import StyledText.Proofs.Intercept.Desk
import StyledText.Proofs.Table.Enclosed

/-!
# The tags in the markup of a table

The tags of a table are written down one by one, with text between them that has been taken out of
some canvas. Where no text holds the character that begins a tag, they can be read off the markup
again (`Text.tokens`): they are the tags since the outermost open table was opened
(`SinceOutermost`), whether they match or not.

How many tables are open is told by the tags alone (`level`); an end tag without a start does not
count. Closing the outermost table completes the markup, and its styles carry that.
-/

namespace StyledText

open Markup (Event Attributes)

/-! ## Tokens -/

namespace Text

/-- The tokens of the rest of a markup, behind the beginning of a token or outside of one. -/
def tokensFrom : Option Text → Text → List Text
  | _, [] => []
  | none, x :: t => if x = '<' then tokensFrom (some [x]) t else tokensFrom none t
  | some begun, x :: t =>
    if x = '>' then (begun ++ [x]) :: tokensFrom none t else tokensFrom (some (begun ++ [x])) t

/-- The tokens of a markup, each from a `<` up to the next `>`. -/
def tokens (t : Text) : List Text := tokensFrom none t

/-- Whether no token is left open at the end, so that what follows is read by itself. -/
def Whole (s : Text) : Prop := ∀ t, tokens (s ++ t) = tokens s ++ tokens t

/-- Whether a text is a single token. -/
def IsToken (w : Text) : Prop := ∃ s : Text, w = '<' :: s ++ ['>'] ∧ '>' ∉ s

variable {s t w x : Text}

/-- A token that has begun goes on to the next `>`, whatever other characters there are in
between. -/
theorem tokensFrom_some (h : '>' ∉ s) (begun t : Text) :
    tokensFrom (some begun) (s ++ '>' :: t) = (begun ++ s ++ ['>']) :: tokens t := by
  induction s generalizing begun with
  | nil => simp [tokensFrom, tokens]
  | cons y s ih =>
    obtain ⟨hy, hs⟩ := not_or.mp (mt List.mem_cons.mpr h)
    rw [List.cons_append, tokensFrom, if_neg (Ne.symm hy), ih hs]
    simp

/-- A token at the beginning of a markup is the first one that is read, and the rest is read by
itself. -/
theorem IsToken.tokens_append (h : IsToken w) (t : Text) : tokens (w ++ t) = w :: tokens t := by
  obtain ⟨s, rfl, hs⟩ := h
  have hread := tokensFrom_some hs ['<'] t
  simpa [tokens, tokensFrom] using hread

/-- Text without the beginning of a token is passed over. This is where text from the document must
not hold a `<`. -/
theorem tokens_append_of_notMem (h : '<' ∉ x) (t : Text) : tokens (x ++ t) = tokens t := by
  induction x with
  | nil => rfl
  | cons y x ih =>
    obtain ⟨hy, hx⟩ := not_or.mp (mt List.mem_cons.mpr h)
    rw [List.cons_append, tokens, tokensFrom, if_neg (Ne.symm hy)]
    exact ih hx

/-- A markup gets one token longer by text and a token, as it does with every tag that is written
down. -/
theorem Whole.tokens_append (hs : Whole s) (hx : '<' ∉ x) (hw : IsToken w) :
    tokens (s ++ x ++ w) = tokens s ++ [w] := by
  have hone := hw.tokens_append []
  rw [List.append_nil] at hone
  rw [List.append_assoc, hs, tokens_append_of_notMem hx, hone]
  rfl

/-- And it is whole again, so the next tag can be added in the same way. -/
theorem Whole.append (hs : Whole s) (hx : '<' ∉ x) (hw : IsToken w) : Whole (s ++ x ++ w) := by
  intro t
  rw [hs.tokens_append hx hw, List.append_assoc, List.append_assoc, hs, tokens_append_of_notMem hx,
    hw.tokens_append, List.append_assoc]
  rfl

end Text

/-- The markup of a table that a style carries. -/
def Style.markup? : Style → Option Text
  | tableLink t => t.html
  | tableClick _ html => html
  | _ => none

namespace Intercept

namespace Tag

/-- The text of a start tag is a single token: no name of a tag has a bracket in it. -/
theorem isToken_startText (tag : Tag) : tag.startText.IsToken := by
  refine ⟨tag.name, rfl, ?_⟩
  cases tag with
  | list kind => cases kind <;> decide
  | bare b => cases b <;> decide
  | _ => decide

/-- So is the text of an end tag. -/
theorem isToken_endText (tag : Tag) : tag.endText.IsToken := by
  refine ⟨'/' :: tag.name, rfl, ?_⟩
  cases tag with
  | list kind => cases kind <;> decide
  | bare b => cases b <;> decide
  | _ => decide

end Tag

/-! ## Levels -/

/-- The number of tables that are open behind a tag, by the number before it. -/
def levelAfter (k : Nat) (w : Text) : Nat :=
  if w = Tag.table.startText then k + 1 else if w = Tag.table.endText then k - 1 else k

/-- The number of tables that are open behind some tags. -/
def level (tags : List Text) : Nat := tags.foldl levelAfter 0

/-- Some of the last tags are those since the outermost open table was opened: no table is open
before them, and behind each of them one is, which the first of them opens. -/
structure SinceOutermost (tags since : List Text) : Prop where
  outside : ∃ before, tags = before ++ since ∧ level before = 0
  inside : ∀ p, p <+: since → p ≠ [] →
    p.count Tag.table.endText < p.count Tag.table.startText

/-- The level is followed tag by tag, as the tags come. -/
theorem level_concat (tags : List Text) (w : Text) :
    level (tags ++ [w]) = levelAfter (level tags) w := by
  simp [level]

/-- Only the start tag of a table raises the level. -/
theorem levelAfter_startText (k : Nat) (tag : Tag) : levelAfter k tag.startText = k + tag.levels := by
  cases tag with
  | list kind => cases kind <;> rfl
  | bare b => cases b <;> rfl
  | _ => rfl

/-- Only the end tag of a table lowers it, and below zero it does not get. -/
theorem levelAfter_endText (k : Nat) (tag : Tag) : levelAfter k tag.endText = k - tag.levels := by
  cases tag with
  | list kind => cases kind <;> rfl
  | bare b => cases b <;> rfl
  | _ => rfl

/-- While a table is open, the level is told by counting. Without that an end tag that has no start
would have been counted, but left the level at zero. -/
theorem count_concat {since : List Text} {k : Nat} (hk : 0 < k)
    (h : since.count Tag.table.startText = since.count Tag.table.endText + k) (w : Text) :
    (since ++ [w]).count Tag.table.startText =
      (since ++ [w]).count Tag.table.endText + levelAfter k w := by
  have hne : Tag.table.endText ≠ Tag.table.startText := by decide
  by_cases hstart : w = Tag.table.startText
  · simp only [hstart, List.count_append, List.count_singleton_self,
      List.count_cons_of_ne hne.symm, List.count_nil, levelAfter, if_pos]
    omega
  by_cases hend : w = Tag.table.endText
  · simp only [hend, List.count_append, List.count_singleton_self, List.count_cons_of_ne hne,
      List.count_nil, levelAfter, if_neg hne, if_pos]
    omega
  · simp only [List.count_append, List.count_cons_of_ne hstart, List.count_cons_of_ne hend,
      List.count_nil, levelAfter, if_neg hstart, if_neg hend]
    omega

/-- One more tag while the table stays open, as the counts of its start and end tags tell. -/
theorem SinceOutermost.concat {tags since : List Text} {w : Text} (h : SinceOutermost tags since)
    (hw : (since ++ [w]).count Tag.table.endText < (since ++ [w]).count Tag.table.startText) :
    SinceOutermost (tags ++ [w]) (since ++ [w]) := by
  obtain ⟨before, rfl, hbefore⟩ := h.outside
  refine ⟨⟨before, List.append_assoc _ _ _, hbefore⟩, fun p hp hne => ?_⟩
  rcases List.prefix_concat_iff.mp hp with rfl | hp
  · exact hw
  · exact h.inside p hp hne

/-! ## What is done to the markup -/

namespace State

variable {n : Nat} {kind : MarkerKind} {isParagraph : Bool} {styles : List Style} {t t' : State}
  {c c' : Canvas} {tag : Tag} {attributes : Attributes}

/-- What a start tag does to the markup before it is recorded: nothing inside a table, and outside
of tables it empties it if it is that of a table. -/
theorem Opens.html (h : Opens n attributes t c tag t' c') :
    t'.depth = t.depth + tag.levels ∧ (0 < t.depth → t'.html = t.html) ∧
      (t.depth = 0 → tag = .table → t'.html = []) := by
  cases h with
  | root hdepth => exact ⟨by rw [hdepth]; rfl, fun hpos => by omega, fun _ _ => rfl⟩
  | inner hdepth => exact ⟨rfl, fun _ => rfl, fun hzero => by omega⟩
  | _ => exact ⟨rfl, fun _ => rfl, fun _ ht => by cases ht⟩

/-- The markup has got longer by text that begins no tag, if at all. -/
def Lengthens (t t' : State) : Prop := ∃ x : Text, '<' ∉ x ∧ t'.html = t.html ++ x

theorem lengthens_of_html_eq (h : t'.html = t.html) : t.Lengthens t' :=
  ⟨[], List.not_mem_nil, h.trans (List.append_nil _).symm⟩

/-- Closing adds to the markup what has been on the canvas, so text without the beginning of a tag
if the canvas has none. -/
theorem Closes.lengthens (h : Closes n kind isParagraph styles t c t' c') (hc : '<' ∉ c.text) :
    t.Lengthens t' := by
  cases h with
  | inside => exact ⟨_, fun hx => hc (List.mem_of_mem_drop hx), rfl⟩
  | _ => exact lengthens_of_html_eq rfl

/-- The newline that ends a line is no beginning of a tag either. -/
theorem notMem_newline (hc : '<' ∉ c.text) : '<' ∉ c.newline.text := by
  unfold Canvas.newline
  split
  · rw [Buffer.text_append, List.mem_append, not_or]
    exact ⟨hc, by decide⟩
  · exact hc

/-- What an end tag does to it before it is recorded. If it closes the outermost table nothing has
to be known, as the markup is then complete. -/
theorem Shuts.html (h : Shuts n t c tag t' c') (hc : '<' ∉ c.text) :
    t'.depth = t.depth - tag.levels ∧ (0 < t'.depth → t.Lengthens t') := by
  cases h with
  | list kind => exact ⟨depth_closeList t, fun _ => lengthens_of_html_eq (html_closeList t)⟩
  | strayItem => exact ⟨rfl, fun _ => lengthens_of_html_eq rfl⟩
  | strayTable hdepth => exact ⟨by rw [hdepth]; rfl, fun _ => lengthens_of_html_eq rfl⟩
  | item hl h => exact ⟨h.frame.2.2.1, fun _ => h.lengthens (notMem_newline hc)⟩
  | link h => exact ⟨h.frame.2.2.1, fun _ => h.lengthens hc⟩
  | bare h => exact ⟨h.frame.2.2.1, fun _ => h.lengthens hc⟩
  | root hdepth ht₀ h =>
    have hzero : t'.depth = 0 := by
      rw [h.frame.2.2.1, depth_countClick, ht₀]
      rfl
    exact ⟨by rw [hzero, hdepth]; rfl, fun hpos => by omega⟩
  | inner hdepth h => exact ⟨by rw [h.frame.2.2.1, hdepth]; rfl, fun _ => h.lengthens hc⟩

/-! ## What is left on a canvas -/

/-- A start tag leaves no beginning of a tag on the canvas: it adds a newline or the placeholder at
most. -/
theorem Opens.notMem_text (h : Opens n attributes t c tag t' c') (hc : '<' ∉ c.text) :
    '<' ∉ c'.text := by
  cases h with
  | looseItem => exact notMem_newline hc
  | bullet => exact notMem_newline hc
  | number => exact notMem_newline hc
  | root =>
    rw [Buffer.text_append, List.mem_append, not_or]
    exact ⟨hc, by decide⟩
  | _ => exact hc

/-- Nor does closing, which takes text off the canvas or leaves it. -/
theorem Closes.notMem_text (h : Closes n kind isParagraph styles t c t' c') (hc : '<' ∉ c.text) :
    '<' ∉ c'.text := by
  cases h with
  | nothing => exact hc
  | elsewhere => exact hc
  | @inside m a =>
    rw [Buffer.text_remove, Buffer.cut, List.mem_append, not_or]
    exact ⟨fun hx => hc (List.mem_of_mem_take hx), fun hx => hc (List.mem_of_mem_drop hx)⟩
  | @outside m a =>
    have hremove : '<' ∉ (Buffer.remove c (.marker m)).text := hc
    simp only [closed]
    split
    · exact hc
    · cases isParagraph with
      | true => exact notMem_newline hremove
      | false => exact hremove

/-- So an end tag does not, on any canvas. -/
theorem Shuts.notMem_text (h : Shuts n t c tag t' c') (hc : '<' ∉ c.text) : '<' ∉ c'.text := by
  cases h with
  | item hl h => exact h.notMem_text (notMem_newline hc)
  | link h => exact h.notMem_text hc
  | bare h => exact h.notMem_text hc
  | root hdepth ht₀ h => exact h.notMem_text hc
  | inner hdepth h => exact h.notMem_text hc
  | _ => exact hc

/-! ## The markup along the tags -/

/-- What is known behind some tags: the depth is their level, and while a table is open its markup
has the tags since the outermost one, the first of which opens it. -/
structure Captured (tags : List Text) (t : State) : Prop where
  depth : t.depth = level tags
  since : 0 < t.depth → SinceOutermost tags t.html.tokens
  count : 0 < t.depth →
    t.html.tokens.count Tag.table.startText = t.html.tokens.count Tag.table.endText + t.depth
  whole : 0 < t.depth → t.html.Whole
  begins : 0 < t.depth → Tag.table.startText <+: t.html

variable {tags : List Text}

/-- Outside of tables there is nothing to know but the level, since the markup of the next table is
begun anew. -/
theorem Captured.of_depth_eq_zero (h : t.depth = 0) (hlevel : level tags = 0) :
    t.Captured tags := by
  constructor <;> omega

/-- One more tag behind some text, while the outermost table stays open. All five facts are carried
on together, as each needs the others. -/
theorem Captured.concat {x w : Text} (h : t.Captured tags) (hpos : 0 < t.depth) (hw : w.IsToken)
    (hx : '<' ∉ x) (hdepth : t'.depth = levelAfter t.depth w) (hpos' : 0 < t'.depth)
    (hhtml : t'.html = t.html ++ x ++ w) : t'.Captured (tags ++ [w]) := by
  have htokens : t'.html.tokens = t.html.tokens ++ [w] := by
    rw [hhtml, (h.whole hpos).tokens_append hx hw]
  have hcount : t'.html.tokens.count Tag.table.startText =
      t'.html.tokens.count Tag.table.endText + t'.depth := by
    rw [htokens, hdepth]
    exact count_concat hpos (h.count hpos) w
  refine ⟨?_, fun _ => ?_, fun _ => hcount, fun _ => ?_, fun _ => ?_⟩
  · rw [level_concat, ← h.depth, hdepth]
  · rw [htokens] at hcount ⊢
    exact (h.since hpos).concat (by omega)
  · rw [hhtml]
    exact (h.whole hpos).append hx hw
  · rw [hhtml, List.append_assoc]
    exact (h.begins hpos).trans (List.prefix_append _ _)

/-- The start tag of an outermost table begins the markup anew, and with it the tags that are
counted. -/
theorem Captured.begin (h : t.Captured tags) (hzero : t.depth = 0) (hdepth : t'.depth = 1)
    (hhtml : t'.html = Tag.table.startText) : t'.Captured (tags ++ [Tag.table.startText]) := by
  have hnil : Text.Whole [] := fun _ => rfl
  have htable := Tag.table.isToken_startText
  have htokens : t'.html.tokens = [Tag.table.startText] := by
    rw [hhtml]
    exact hnil.tokens_append (x := []) List.not_mem_nil htable
  have hlevel : level tags = 0 := h.depth.symm.trans hzero
  refine ⟨?_, fun _ => ?_, fun _ => ?_, fun _ => ?_, fun _ => ?_⟩
  · rw [level_concat, hlevel, hdepth]
    rfl
  · rw [htokens]
    refine ⟨⟨tags, rfl, hlevel⟩, fun p hp hne => ?_⟩
    rcases List.prefix_concat_iff.mp (show p <+: [] ++ [Tag.table.startText] from hp) with rfl | hp
    · decide
    · exact absurd (List.prefix_nil.mp hp) hne
  · rw [htokens, hdepth]
    decide
  · rw [hhtml]
    exact hnil.append (x := []) List.not_mem_nil htable
  · exact hhtml ▸ List.prefix_refl _

/-- A start tag is recorded behind the tags before it, at any depth. -/
theorem Captured.opens (h : t.Captured tags) (hopens : Opens n attributes t c tag t' c') :
    (t'.record tag.startText).Captured (tags ++ [tag.startText]) := by
  obtain ⟨hdepth, hsame, hnew⟩ := hopens.html
  rcases Nat.eq_zero_or_pos t.depth with hzero | hpos
  · by_cases htag : tag = .table
    · subst htag
      have hone : t'.depth = 1 := by
        rw [hdepth, hzero]
        rfl
      rw [record_of_depth_pos (by omega)]
      refine h.begin hzero hone ?_
      rw [write, hnew hzero rfl, List.nil_append]
    · have hlevels : tag.levels = 0 := by
        cases tag <;> first | rfl | exact absurd rfl htag
      rw [record_of_depth_eq_zero (by omega)]
      refine .of_depth_eq_zero (by omega) ?_
      rw [level_concat, levelAfter_startText, ← h.depth]
      omega
  · rw [record_of_depth_pos (by omega)]
    refine h.concat (x := []) hpos tag.isToken_startText List.not_mem_nil
      (hdepth.trans (levelAfter_startText _ _).symm) (by change 0 < t'.depth; omega) ?_
    rw [write, hsame hpos, List.append_nil]

/-- So is an end tag, behind the text that it has taken off a canvas without the beginning of a
tag. -/
theorem Captured.shuts (h : t.Captured tags) (hshuts : Shuts n t c tag t' c')
    (hc : '<' ∉ c.text) : (t'.record tag.endText).Captured (tags ++ [tag.endText]) := by
  obtain ⟨hdepth, hgrows⟩ := hshuts.html hc
  rcases Nat.eq_zero_or_pos t'.depth with hzero | hpos
  · -- a stray tag, or the end of the outermost table
    rw [record_of_depth_eq_zero hzero]
    refine .of_depth_eq_zero hzero ?_
    rw [level_concat, levelAfter_endText, ← h.depth]
    omega
  · obtain ⟨x, hx, hhtml⟩ := hgrows hpos
    rw [record_of_depth_pos hpos]
    refine h.concat (by omega) tag.isToken_endText hx
      (hdepth.trans (levelAfter_endText _ _).symm) hpos ?_
    rw [write, hhtml]

/-! ## The end of an outermost table -/

/-- The place of the newest marker of a kind on a canvas. -/
def placeOf? (kind : MarkerKind) (t : State) (c : Canvas) : Option Nat :=
  (t.newest? kind).bind fun m => c.start? (.marker m)

/-- The end of an outermost table completes the markup, and the styles that carry it come over all
that stands behind the marker. -/
theorem Shuts.root_spec (h : Shuts n t c .table t' c') (hc : c.Sound n) (hdepth : t.depth = 1) :
    t'.depth = 0 ∧ t'.html = t.html ++ Tag.table.endText ∧
      c'.ranges = c.ranges ++ Canvas.spread n t'.shownStyles
        ((t.placeOf? .table c).getD c.length) c.length := by
  cases h with
  | strayTable hzero => omega
  | inner htwo h => omega
  -- the end tag is written and the table counted before its marker is looked for
  | @root t₀ _ _ _ ht₀ h =>
    have hhtml : t₀.countClick.html = t.html ++ Tag.table.endText := by
      rw [html_countClick, ht₀]
      rfl
    have hzero : t₀.countClick.depth = 0 := by
      rw [depth_countClick, ht₀]
      rfl
    have hmarkers : t₀.countClick.newest? .table = t.newest? .table := by
      rw [newest?, markers_countClick, ht₀]
      rfl
    refine ⟨h.frame.2.2.1.trans hzero, ?_⟩
    cases h with
    | nothing hm =>
      rw [hmarkers] at hm
      simp [placeOf?, hm, hhtml]
    | elsewhere hm ha =>
      rw [hmarkers] at hm
      simp [placeOf?, hm, ha, drop, hhtml]
    | inside hm ha hpos => omega
    | @outside m a hm ha =>
      have hshown : (t₀.countClick.drop .table).shownStyles = t₀.tableStyles :=
        shownStyles_countClick t₀ _
      rw [hmarkers] at hm
      refine ⟨hhtml, ?_⟩
      rw [closed_inline, Canvas.ranges_styled, Canvas.ranges_remove hc rfl, hshown, placeOf?, hm]
      simp [ha]

/-- Each style that shows a table carries its markup as a whole. -/
theorem markup?_of_mem_shownStyles {style : Style} (h : style ∈ t.shownStyles) :
    style.markup? = some t.html := by
  rcases List.mem_append.mp h with h | h
  · obtain ⟨link, -, rfl⟩ := Option.map_eq_some_iff.mp (Option.mem_toList.mp h)
    rfl
  · split at h
    · obtain rfl := List.mem_singleton.mp h
      rfl
    · exact absurd h List.not_mem_nil

end State

/-! ## Along a run -/

/-- The text of the tag that an action is, if it is one that is intercepted. -/
def Action.tagText? : Action → Option Text
  | offer (.startElement name _) => (Tag.ofName? name).map Tag.startText
  | offer (.endElement name) => (Tag.ofName? name).map Tag.endText
  | _ => none

/-- Whether an action is a tag or adds text that does not hold the character that begins one. -/
def Action.Clean : Action → Prop
  | offer _ => True
  | write text => '<' ∉ text
  | delete .. => False

namespace Desk

variable {ι : Type}

/-- The intercepted tags of some steps. -/
def tagTexts (steps : List (ι × Action)) : List Text := steps.filterMap (·.2.tagText?)

/-- The tags of one more step come behind those of the steps before it. -/
theorem tagTexts_concat (steps : List (ι × Action)) (i : ι) (a : Action) :
    tagTexts (steps ++ [(i, a)]) = tagTexts steps ++ a.tagText?.toList := by
  rw [tagTexts, List.filterMap_append, tagTexts]
  cases h : a.tagText? <;> simp [h]

variable [DecidableEq ι] {n : Nat} {i : ι} {a : Action} {d d' : Desk ι} {tags : List Text}

/-- A step changes one canvas, so the others hold no beginning of a tag as before. -/
theorem notMem_text_put (hd : ∀ j, '<' ∉ (d.canvas j).text) {c : Canvas} (hc : '<' ∉ c.text)
    (j : ι) : '<' ∉ ((d.put i c).canvas j).text := by
  change '<' ∉ (if j = i then c else d.canvas j).text
  split
  · exact hc
  · exact hd j

/-- No canvas holds the character that begins a tag, and the markup has the tags. -/
structure Captured (tags : List Text) (d : Desk ι) : Prop where
  canvas : ∀ i, '<' ∉ (d.canvas i).text
  tags : d.tags.Captured tags

/-- **A step writes its tag down**, on whichever canvas it works: the markup is one for all
canvases. -/
theorem Captured.perform (h : d.Captured tags) (ha : a.Clean) (hperforms : Performs n i d a d') :
    d'.Captured (tags ++ a.tagText?.toList) := by
  cases hperforms with
  | @declined e hnone =>
    have htext : (Action.offer e).tagText? = none := by
      cases e with
      | startElement name attributes => simp [Action.tagText?, hnone name rfl]
      | endElement name => simp [Action.tagText?, hnone name rfl]
      | _ => rfl
    rw [htext, Option.toList_none, List.append_nil]
    exact h
  | startTag htag hopens =>
    simp only [Action.tagText?, htag, Option.map_some, Option.toList_some]
    exact ⟨notMem_text_put h.canvas (hopens.notMem_text (h.canvas i)), h.tags.opens hopens⟩
  | endTag htag hshuts =>
    simp only [Action.tagText?, htag, Option.map_some, Option.toList_some]
    exact ⟨notMem_text_put h.canvas (hshuts.notMem_text (h.canvas i)),
      h.tags.shuts hshuts (h.canvas i)⟩
  | write text =>
    refine ⟨notMem_text_put h.canvas ?_, ?_⟩
    · rw [Buffer.text_append, List.mem_append, not_or]
      exact ⟨h.canvas i, ha⟩
    · change d.tags.Captured (tags ++ [])
      rw [List.append_nil]
      exact h.tags
  | delete => exact absurd ha id

/-- Clean steps all succeed, and each of them writes its tag down. None of them deletes, which is
the only way to fail. -/
theorem exists_run_captured (setup : Setup) (indent : Option Nat) {steps : List (ι × Action)}
    (hclean : ∀ step ∈ steps, step.2.Clean) :
    ∃ d : Desk ι, (fresh setup indent).run 0 steps = .ok d ∧ d.Sound steps.length ∧
      d.Captured (tagTexts steps) := by
  have hfresh : (fresh setup indent : Desk ι).Captured [] :=
    ⟨fun _ => List.not_mem_nil, .of_depth_eq_zero rfl rfl⟩
  rcases hrun : (fresh setup indent : Desk ι).run 0 steps with f | d
  · -- only a deletion can fail, and a clean run has none
    obtain ⟨pre, j, start, stop, post, -, rfl, -⟩ :=
      (run_eq_error_iff (sound_fresh setup indent)).mp ⟨f, hrun⟩
    exact absurd (hclean (j, .delete start stop) (by simp)) id
  · obtain ⟨hsound, hcaptured⟩ := run_induction
      (P := fun steps d => (∀ step ∈ steps, step.2.Clean) → d.Captured (tagTexts steps))
      (sound_fresh setup indent) (fun _ => hfresh)
      (fun {done i a} _ _ hd hP hperforms hclean => by
        rw [tagTexts_concat]
        exact (hP fun step hs => hclean step (List.mem_append_left _ hs)).perform
          (hclean (i, a) (List.mem_append_right _ (List.mem_singleton_self _))) hperforms)
      hrun
    exact ⟨d, rfl, hsound, hcaptured hclean⟩

/-- **The tags of a table.** Whatever tags come in whatever order, with text between them that does
not hold the character that begins a tag: the tables that are open are told by the tags, and while
one is open the tokens of the markup are the tags since the outermost one was opened. An end tag
that closes the outermost table adds itself to them, and the styles of the table carry that markup.
It begins with the start tag of a table, and only as a whole it has as many end tags of tables as
start tags. -/
theorem tokens_of_table (setup : Setup) (indent : Option Nat) {steps : List (ι × Action)}
    (hclean : ∀ step ∈ steps, step.2.Clean) :
    ∃ d : Desk ι, (fresh setup indent).run 0 steps = .ok d ∧
      d.tags.depth = level (tagTexts steps) ∧
      (0 < d.tags.depth → SinceOutermost (tagTexts steps) d.tags.html.tokens) ∧
      (d.tags.depth = 1 → ∀ (i : ι) (name : Text), Tag.ofName? name = some .table →
        ∃ d' : Desk ι, d.perform steps.length i (.offer (.endElement name)) = .ok d' ∧
          d'.tags.depth = 0 ∧
          d'.tags.html.tokens = d.tags.html.tokens ++ [Tag.table.endText] ∧
          Tag.table.startText <+: d'.tags.html ∧
          (∀ p, p <+: d'.tags.html.tokens → p ≠ [] → p ≠ d'.tags.html.tokens →
            p.count Tag.table.endText < p.count Tag.table.startText) ∧
          (∀ style ∈ d'.tags.shownStyles, style.markup? = some d'.tags.html) ∧
          (d'.canvas i).ranges = (d.canvas i).ranges ++ Canvas.spread steps.length d'.tags.shownStyles
            ((d.tags.placeOf? .table (d.canvas i)).getD (d.canvas i).length)
            (d.canvas i).length) := by
  obtain ⟨d, hrun, hsound, hcaptured⟩ := exists_run_captured setup indent hclean
  refine ⟨d, hrun, hcaptured.tags.depth, hcaptured.tags.since, fun hdepth i name hname => ?_⟩
  have hpos : 0 < d.tags.depth := by omega
  obtain ⟨d', hok, hperforms⟩ :=
    exists_perform (i := i) (a := .offer (.endElement name)) hsound trivial
  refine ⟨d', hok, ?_⟩
  cases hperforms with
  | declined hnone => cases (hnone name rfl).symm.trans hname
  | @endTag _ tag t c htag hshuts =>
    obtain rfl : tag = .table := Option.some.inj (htag.symm.trans hname)
    obtain ⟨hzero, hhtml, hranges⟩ := hshuts.root_spec (hsound.canvas i) hdepth
    rw [State.record_of_depth_eq_zero hzero]
    -- the text in front of the end tag begins no tag, so one token comes behind the others
    have htokens : t.html.tokens = d.tags.html.tokens ++ [Tag.table.endText] := by
      rw [hhtml, ← (hcaptured.tags.whole hpos).tokens_append (x := []) List.not_mem_nil
        Tag.table.isToken_endText, List.append_nil]
    refine ⟨hzero, htokens, ?_, ?_, fun _ => State.markup?_of_mem_shownStyles, ?_⟩
    · rw [hhtml]
      exact (hcaptured.tags.begins hpos).trans (List.prefix_append _ _)
    · change ∀ p, p <+: t.html.tokens → p ≠ [] → p ≠ t.html.tokens → _
      rw [htokens]
      intro p hp hne hproper
      rcases List.prefix_concat_iff.mp hp with rfl | hp
      · exact absurd rfl hproper
      · exact (hcaptured.tags.since hpos).inside p hp hne
    · rw [← hranges]
      exact congrArg Canvas.ranges (canvas_put_self i c d)

/-- Cells that do not match, stray ends and text between them. -/
def unmatchedSteps : List (Unit × Action) :=
  [((), .offer (.endElement "table".toList)), ((), .offer (.startElement "table".toList [])),
    ((), .offer (.startElement "TD".toList [])), ((), .write "a > b".toList),
    ((), .offer (.endElement Markup.Renamed.listItem.reserved)),
    ((), .offer (.startElement "p".toList [])), ((), .offer (.endElement "td".toList)),
    ((), .write "c".toList)]

theorem tokens_of_table_unmatchedSteps :
    (∀ step ∈ unmatchedSteps, step.2.Clean) ∧
    ∃ d d' : Desk Unit, (fresh { clickable := true } none).run 0 unmatchedSteps = .ok d ∧
      d.perform 8 () (.offer (.endElement "table".toList)) = .ok d' ∧
      d'.tags.html.tokens =
        ["<table>".toList, "<td>".toList, "</li>".toList, "</td>".toList, "</table>".toList] ∧
      (d'.canvas ()).ranges = Canvas.spread 8 d'.tags.shownStyles 0 18 ∧
      ∀ style ∈ d'.tags.shownStyles, style.markup? = some d'.tags.html := by
  have hclean : ∀ step ∈ unmatchedSteps, step.2.Clean := by
    simp [unmatchedSteps, Action.Clean]
  obtain ⟨d₀, hrun₀, hdepth₀, htokens₀, hplace₀, hlength₀, hranges₀⟩ :
      ∃ d : Desk Unit, (fresh { clickable := true } none).run 0 unmatchedSteps = .ok d ∧
        d.tags.depth = 1 ∧ d.tags.html.tokens =
          ["<table>".toList, "<td>".toList, "</li>".toList, "</td>".toList] ∧
        d.tags.placeOf? .table (d.canvas ()) = some 0 ∧ (d.canvas ()).length = 18 ∧
        (d.canvas ()).ranges = [] :=
    ⟨_, rfl, by decide +kernel, by decide +kernel, by decide +kernel, by decide +kernel,
      by decide +kernel⟩
  obtain ⟨d, hrun, -, -, hend⟩ := tokens_of_table { clickable := true } none hclean
  cases hrun₀.symm.trans hrun
  obtain ⟨d', hok, -, htokens, -, -, hstyles, hranges⟩ :=
    hend hdepth₀ () "table".toList (by decide +kernel)
  rw [htokens₀] at htokens
  rw [hplace₀, hlength₀, hranges₀] at hranges
  exact ⟨hclean, d₀, d', hrun₀, hok, htokens, hranges, hstyles⟩

end Desk

end Intercept

end StyledText
