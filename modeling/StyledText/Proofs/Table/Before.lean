import StyledText.Proofs.Intercept.Markers
import StyledText.Proofs.Table.Enclosed

/-!
# The text before a table

Inside a table an end tag takes out all the text behind the newest marker of its kind, on whichever
side of the start of the table that marker stands. So the text before a table is not safe from the
tags in the table, and the only threat to it are the markers that were open when the table began.

Some text at the beginning of the canvas is **guarded** (`Canvas.Guards`) while it is there and the
marks in front of its end are those of certain early markers. A step inside the table keeps it so,
or it takes up one of the early markers, and then the text is shorter than what was guarded
(`Desk.Performs.guards`). Markers that are gone do not come back, so both ways can be told from the
markers at the end of a run (`Desk.prefix_kept_iff`). The marker of the table itself is never taken
up while the table is open (`State.Rooted`).
-/

namespace StyledText

open Markup (Event Attributes)

/-! ## Guarded text -/

namespace Canvas

variable {n a : Nat} {x : Text} {early : Marker → Prop} {c : Canvas} {m : Marker}

/-- The canvas begins with `x`, and the markers whose marks stand in front of the end of `x` are the
early ones. -/
structure Guards (x : Text) (early : Marker → Prop) (c : Canvas) : Prop where
  text : x <+: c.text
  early_iff : ∀ s ∈ c.spans, ∀ m, s.what = .marker m → (s.start < x.length ↔ early m)

/-- What is guarded is there, so it is no longer than the text of the canvas. -/
theorem Guards.length_le (h : c.Guards x early) : x.length ≤ c.length := h.text.length_le

/-- Text behind what is guarded can be added. -/
theorem Guards.append (h : c.Guards x early) (t : Text) : Guards x early (c.append t) :=
  ⟨h.text.trans (List.prefix_append _ _), h.early_iff⟩

/-- So can the newline that ends a line. -/
theorem Guards.newline (h : c.Guards x early) : c.newline.Guards x early := by
  obtain ⟨t, ht⟩ := c.newline_eq_append
  rw [ht]
  exact h.append t

/-- Marks can be removed, early ones as well: what is guarded is the text, and it is told of the
marks that are left where they stand. -/
theorem Guards.remove (h : c.Guards x early) (o : Object) : Guards x early (c.remove o) :=
  ⟨h.text, fun s hs => h.early_iff s (List.mem_filter.mp hs).1⟩

/-- A new mark stands behind what is guarded, since that is at most the whole text. So its marker
must not be counted as an early one. -/
theorem Guards.marked (h : c.Guards x early) (hm : ¬ early m) :
    (c.marked (.marker m)).Guards x early := by
  refine ⟨h.text, fun s hs m' hs' => ?_⟩
  rcases List.mem_append.mp hs with hs | hs
  · exact h.early_iff s hs m' hs'
  · obtain rfl := List.mem_singleton.mp hs
    cases hs'
    exact iff_of_false (Nat.not_lt.mpr h.length_le) hm

/-- Text behind what is guarded can be cut off. A mark behind it comes to stand at its end at the
nearest, and not in it. -/
theorem Guards.cut (h : c.Guards x early) (hc : c.Sound n) (hx : x.length ≤ a) :
    Guards x early (c.cut a c.length) := by
  refine ⟨?_, fun s hs m hm => ?_⟩
  · simp only [Buffer.cut]
    exact (List.prefix_take_iff.mpr ⟨h.text, hx⟩).trans (List.prefix_append _ _)
  · obtain ⟨r, hr, hcut⟩ := List.mem_filterMap.mp hs
    have hfit := hc r hr
    have hstart := Nat.le_trans hfit.start_le hfit.stop_le
    obtain ⟨rfl, -⟩ := Span.cut?_eq_some_iff.mp hcut
    -- a mark moves back to the cut at most, which is not in front of the end of `x`
    have hshift : shift a c.length r.start < x.length ↔ r.start < x.length := by
      rw [shift_eq_min hstart]
      omega
    exact hshift.trans (h.early_iff r hr m hm)

end Canvas

namespace Intercept

namespace State

variable {n : Nat} {kind : MarkerKind} {isParagraph : Bool} {styles : List Style} {t t' : State}
  {c c' : Canvas} {tag : Tag} {attributes : Attributes} {m root : Marker} {x : Text}
  {early : Marker → Prop}

/-! ## Markers that are gone -/

/-- What a start tag puts down is new, and told apart from what was there by the number of its
event. -/
theorem Opens.mem_markers (h : Opens n attributes t c tag t' c') (hm : m ∈ t'.markers) :
    m ∈ t.markers ∨ m.made = n := by
  have hcons {m' : Marker} (hm' : m'.made = n) (hm : m ∈ m' :: t.markers) :
      m ∈ t.markers ∨ m.made = n := by
    rcases List.mem_cons.mp hm with rfl | hm
    · exact .inr hm'
    · exact .inl hm
  cases h with
  | list kind => exact .inl hm
  | looseItem => exact .inl hm
  | _ => exact hcons rfl hm

/-- No start tag takes a marker up. -/
theorem Opens.mem_of_mem (h : Opens n attributes t c tag t' c') (hm : m ∈ t.markers) :
    m ∈ t'.markers := by
  cases h with
  | list kind => exact hm
  | looseItem => exact hm
  | _ => exact List.mem_cons_of_mem _ hm

/-- An end tag takes up one marker at most, and that of a table only where it closes one. In the
second case a level of tables goes with it. -/
theorem Shuts.markers_eq (h : Shuts n t c tag t' c') :
    t'.markers = t.markers ∨ ∃ kind, t'.markers = t.markers.eraseP (·.kind = kind) ∧
      (kind = .table → t.depth = t'.depth + 1) := by
  have hother {kind isParagraph styles} {c : Canvas} (hkind : kind ≠ .table)
      (h : Closes n kind isParagraph styles t c t' c') :
      ∃ kind, t'.markers = t.markers.eraseP (·.kind = kind) ∧
        (kind = .table → t.depth = t'.depth + 1) :=
    ⟨kind, h.frame.2.2.2, fun htable => absurd htable hkind⟩
  cases h with
  | list kind => exact .inl (markers_closeList t)
  | strayItem => exact .inl rfl
  | strayTable => exact .inl rfl
  | item hl h => exact .inr (hother (ListKind.marker_ne_table _) h)
  | link h => exact .inr (hother (by simp) h)
  | bare h => exact .inr (hother (BareTag.marker_ne_table _) h)
  -- the end tag of a table takes its marker off, and its level with it
  | root hdepth ht₀ h =>
    obtain ⟨-, -, hdepth', hmarkers⟩ := h.frame
    rw [depth_countClick, ht₀] at hdepth'
    rw [markers_countClick, ht₀] at hmarkers
    exact .inr ⟨.table, hmarkers, fun _ => by rw [hdepth, hdepth']; rfl⟩
  | inner hdepth h =>
    obtain ⟨-, -, hdepth', hmarkers⟩ := h.frame
    exact .inr ⟨.table, hmarkers, fun _ => by rw [hdepth, hdepth']⟩

/-- An end tag puts nothing down, so a marker that is gone has gone for good. -/
theorem Shuts.mem_markers (h : Shuts n t c tag t' c') (hm : m ∈ t'.markers) : m ∈ t.markers := by
  rcases h.markers_eq with heq | ⟨kind, heq, -⟩
  · rwa [heq] at hm
  · rw [heq] at hm
    exact List.mem_of_mem_eraseP hm

/-- What is taken up is the newest marker of its kind alone. The others stay, those of the same kind
included. -/
theorem mem_eraseP_kind_iff (hnodup : t.markers.Nodup) :
    m ∈ t.markers.eraseP (·.kind = kind) ↔ m ∈ t.markers ∧ t.newest? kind ≠ some m := by
  rcases hnewest : t.newest? kind with _ | m'
  · rw [List.eraseP_of_forall_not (List.find?_eq_none.mp hnewest)]
    simp
  · rw [eraseP_eq_filter_ne hnodup hnewest, List.mem_filter, decide_eq_true_iff]
    refine and_congr_right fun _ => ?_
    rw [Ne, Ne, Option.some_inj, eq_comm]

/-! ## The marker of the table -/

/-- The marker of an open outermost table: of the markers of tables it is the oldest. -/
structure Rooted (root : Marker) (t : State) : Prop where
  kind : root.kind = .table
  mem : root ∈ t.markers
  oldest : ∀ m ∈ t.markers, m.kind = .table → root.made ≤ m.made

/-- Where two tables are open, the newest marker of a table is not that of the outermost one, which
is older. -/
theorem Rooted.newest?_ne (h : t.Rooted root)
    (hopened : t.markers.Pairwise fun m m' => m'.made < m.made)
    (htables : 2 ≤ t.markers.countP (·.kind = .table)) : t.newest? .table ≠ some root := by
  intro hnewest
  obtain ⟨-, before, after, hmarkers, hbefore⟩ := List.find?_eq_some_iff_append.mp hnewest
  -- the others would be older still
  have hafter : after.countP (·.kind = .table) = 0 := by
    rw [List.countP_eq_zero]
    intro m hm hkind
    rw [hmarkers] at hopened
    have hlt := (List.pairwise_cons.mp (List.pairwise_append.mp hopened).2.1).1 m hm
    have hle := h.oldest m (by rw [hmarkers]; simp [hm]) (of_decide_eq_true hkind)
    omega
  have hnone : before.countP (·.kind = .table) = 0 := by
    rw [List.countP_eq_zero]
    intro m hm
    simpa using hbefore m hm
  rw [hmarkers, List.countP_append, List.countP_cons, hnone, hafter] at htables
  split at htables <;> omega

/-- A start tag puts no marker below that of the outermost table. -/
theorem Rooted.opens (h : t.Rooted root) (hroot : root.made < n)
    (hopens : Opens n attributes t c tag t' c') : t'.Rooted root := by
  refine ⟨h.kind, hopens.mem_of_mem h.mem, fun m hm hkind => ?_⟩
  rcases hopens.mem_markers hm with hm | hm
  · exact h.oldest m hm hkind
  · omega

/-- While the table stays open its marker is not taken up. An end tag of a table then closes one of
at least two, as the markers of tables are as many as the levels. -/
theorem Rooted.shuts (h : t.Rooted root) (ht : t.Counted) (hatt : t.Attached c)
    (hshuts : Shuts n t c tag t' c') (hdepth' : 0 < t'.depth) : t'.Rooted root := by
  refine ⟨h.kind, ?_, fun m hm => h.oldest m (hshuts.mem_markers hm)⟩
  rcases hshuts.markers_eq with heq | ⟨kind, heq, hdepth⟩
  · rw [heq]
    exact h.mem
  · rw [heq, mem_eraseP_kind_iff hatt.nodup]
    refine ⟨h.mem, fun hnewest => ?_⟩
    have hkind := List.find?_some hnewest
    have hkind : root.kind = kind := of_decide_eq_true hkind
    have htable : kind = .table := hkind.symm.trans h.kind
    subst htable
    refine h.newest?_ne hatt.opened ?_ hnewest
    rw [ht.tables, hdepth rfl]
    exact Nat.succ_le_succ hdepth'

/-- A marker has one mark, and that is found: no two markers are equal, so the first span of the
object is its only one. -/
theorem Attached.start?_eq (h : t.Attached c) {s : Span Object} (hs : s ∈ c.spans)
    (hm : s.what = .marker m) : c.start? (.marker m) = some s.start := by
  have hnodup : (c.markerSpans.map (·.what)).Nodup := by
    rw [h.what]
    exact (List.nodup_reverse.mpr h.nodup).map fun _ _ he => Object.marker.inj he
  have hmem {s : Span Object} (hs : s ∈ c.spans) (hm : s.what = .marker m) : s ∈ c.markerSpans :=
    List.mem_filter.mpr ⟨hs, by rw [hm]; rfl⟩
  rcases hfind : c.find? (.marker m) with _ | r
  · have hnone := List.find?_eq_none.mp hfind s hs
    exact absurd (decide_eq_true hm) hnone
  · have hr := List.find?_some hfind
    have hr : r.what = .marker m := of_decide_eq_true hr
    have heq : r = s := List.inj_on_of_nodup_map hnodup
      (hmem (List.mem_of_find?_eq_some hfind) hr) (hmem hs hm) (hr.trans hm.symm)
    rw [Buffer.start?, hfind, heq]
    rfl

/-! ## What a tag does to guarded text -/

/-- The early markers that are there stay. -/
def Spares (early : Marker → Prop) (t t' : State) : Prop :=
  ∀ m, early m → (m ∈ t'.markers ↔ m ∈ t.markers)

/-- The guarded text stays, and with it the early markers; or one of these is taken up, and then the
text is shorter than what was guarded. -/
def Minds (x : Text) (early : Marker → Prop) (t t' : State) (c' : Canvas) : Prop :=
  t.Spares early t' ∧ c'.Guards x early ∨
    (∃ m, early m ∧ m ∈ t.markers ∧ m ∉ t'.markers) ∧ c'.length < x.length

/-- A start tag only adds to the text, and its mark is not early. -/
theorem Opens.minds (h : Opens n attributes t c tag t' c') (hg : c.Guards x early)
    (hearly : ∀ m, early m → m.made < n) : t.Minds x early t' c' := by
  have hnew {m : Marker} (hm : m.made = n) : ¬ early m := fun he => by
    have := hearly m he
    omega
  refine .inl ⟨fun m hm => ⟨fun hin => ?_, h.mem_of_mem⟩, ?_⟩
  · refine (h.mem_markers hin).resolve_right fun hmade => hnew hmade hm
  · cases h with
    | list kind => exact hg
    | looseItem => exact hg.newline
    | bullet => exact hg.newline.marked (hnew rfl)
    | number => exact hg.newline.marked (hnew rfl)
    | root => exact (hg.marked (hnew rfl)).append _
    | _ => exact hg.marked (hnew rfl)

/-- Inside a table closing an element cuts the text off where the mark stands. If that is in the
guarded text its marker was an early one, and is gone. -/
theorem Closes.minds (h : Closes n kind isParagraph styles t c t' c') (hg : c.Guards x early)
    (hc : c.Sound n) (hatt : t.Attached c) (hdepth : 0 < t.depth) : t.Minds x early t' c' := by
  have hmarkers := h.frame.2.2.2
  cases h with
  | nothing => exact .inl ⟨fun _ _ => Iff.rfl, hg⟩
  -- an attached marker has its mark on the canvas
  | elsewhere hm ha =>
    obtain ⟨s, hs, hsm⟩ := hatt.exists_mem_spans (List.mem_of_find?_eq_some hm)
    obtain ⟨a, ha'⟩ := Canvas.exists_start?_of_mem hs
    rw [hsm, ha] at ha'
    cases ha'
  | @inside m a hm ha =>
    have hle := le_length_of_start? hc ha
    obtain ⟨s, hs, rfl⟩ := Option.map_eq_some_iff.mp ha
    have hwhat := List.find?_some hs
    have hwhat : s.what = .marker m := of_decide_eq_true hwhat
    have hiff := hg.early_iff s (List.mem_of_find?_eq_some hs) m hwhat
    -- an early marker stands in the guarded text, any other behind it
    by_cases hearly : early m
    · refine .inr ⟨⟨m, hearly, List.mem_of_find?_eq_some hm, ?_⟩, ?_⟩
      · rw [hmarkers, mem_eraseP_kind_iff hatt.nodup]
        exact fun hin => hin.2 hm
      · change (c.cut s.start c.length).length < _
        rw [Buffer.length_cut hle (Nat.le_refl _)]
        have := hiff.mpr hearly
        omega
    · refine .inl ⟨fun m' hm' => ?_, (hg.cut hc (Nat.not_lt.mp (mt hiff.mp hearly))).remove _⟩
      rw [hmarkers, mem_eraseP_kind_iff hatt.nodup, hm]
      refine and_iff_left fun he => hearly ?_
      rw [Option.some.inj he]
      exact hm'
  | outside hm ha hzero => omega

/-- While the table stays open an end tag minds the guarded text. One that changes no marker cuts
nothing off. -/
theorem Shuts.minds (h : Shuts n t c tag t' c') (hg : c.Guards x early) (hc : c.Sound n)
    (hatt : t.Attached c) (hdepth' : 0 < t'.depth) : t.Minds x early t' c' := by
  have hline : t.Attached c.newline := hatt.congr rfl c.markerSpans_newline
  have hdepth {kind isParagraph styles} {c : Canvas}
      (h : Closes n kind isParagraph styles t c t' c') : 0 < t.depth := by
    rw [← h.frame.2.2.1]
    exact hdepth'
  cases h with
  | list kind => exact .inl ⟨fun m _ => by rw [markers_closeList], hg⟩
  | strayItem => exact .inl ⟨fun _ _ => Iff.rfl, hg⟩
  | strayTable => exact .inl ⟨fun _ _ => Iff.rfl, hg⟩
  | item hl h => exact h.minds hg.newline hc.newline hline (hdepth h)
  | link h => exact h.minds hg hc hatt (hdepth h)
  | bare h => exact h.minds hg hc hatt (hdepth h)
  | root hone ht₀ h =>
    rw [h.frame.2.2.1, depth_countClick, ht₀] at hdepth'
    exact absurd hdepth' (Nat.lt_irrefl 0)
  | inner htwo h => exact h.minds hg hc (hatt.congr rfl rfl) (Nat.succ_pos _)

/-- The end of an outermost table leaves the text: at depth zero it is styled and not taken out. -/
theorem Shuts.text_root (h : Shuts n t c .table t' c') (hdepth : t.depth = 1) :
    c'.text = c.text := by
  cases h with
  | strayTable => rfl
  | inner htwo => omega
  | root hone ht₀ h =>
    cases h with
    | nothing => rfl
    | elsewhere => rfl
    | inside hm ha hpos =>
      rw [depth_countClick, ht₀] at hpos
      exact absurd hpos (Nat.lt_irrefl 0)
    | outside =>
      rw [closed_inline]
      rfl

/-- Recording the tag changes the markup alone. -/
theorem Minds.record (h : t.Minds x early t' c') (text : Text) :
    t.Minds x early (t'.record text) c' := by
  unfold Minds Spares at *
  rw [markers_record]
  exact h

/-- And it leaves all markers. -/
theorem Rooted.record (h : t.Rooted root) (text : Text) : (t.record text).Rooted root :=
  ⟨h.kind, by rw [markers_record]; exact h.mem, by rw [markers_record]; exact h.oldest⟩

end State

/-- Whether an action takes a range out. -/
def Action.IsDelete : Action → Prop
  | delete .. => True
  | _ => False

namespace Desk

variable {n : Nat} {a : Action} {d d' d'' : Desk Unit} {m root : Marker} {x : Text}
  {early : Marker → Prop} {steps : List (Unit × Action)}

/-! ## What a step does to guarded text -/

/-- A marker behind a step was there before it, or has the number of the step. -/
theorem Performs.mem_markers (h : Performs n () d a d') (hm : m ∈ d'.tags.markers) :
    m ∈ d.tags.markers ∨ m.made = n := by
  cases h with
  | startTag _ hopens =>
    rw [State.markers_record] at hm
    exact hopens.mem_markers hm
  | endTag _ hshuts =>
    rw [State.markers_record] at hm
    exact .inl (hshuts.mem_markers hm)
  | _ => exact .inl hm

/-- **A step inside a table** keeps the guarded text, or it takes up an early marker. Deletions are
left out, as they can take out any range. -/
theorem Performs.minds (h : Performs n () d a d') (ha : ¬ a.IsDelete) (hd : d.Sound n)
    (hkept : d.Kept) (hg : (d.canvas ()).Guards x early) (hearly : ∀ m, early m → m.made < n)
    (hdepth' : 0 < d'.tags.depth) : d.tags.Minds x early d'.tags (d'.canvas ()) := by
  cases h with
  | declined => exact .inl ⟨fun _ _ => Iff.rfl, hg⟩
  | startTag _ hopens => exact (hopens.minds hg hearly).record _
  | endTag _ hshuts =>
    change 0 < (State.record _ _).depth at hdepth'
    rw [(State.sameOpen_record _ _).depth] at hdepth'
    exact (hshuts.minds hg (hd.canvas ()) hkept.attached hdepth').record _
  | write text => exact .inl ⟨fun _ _ => Iff.rfl, hg.append text⟩
  | delete => exact absurd trivial ha

/-- No step closes the table without leaving it, so the marker of the table is there as long as it
is open. -/
theorem Performs.rooted (h : Performs n () d a d') (hkept : d.Kept) (hr : d.tags.Rooted root)
    (hroot : root.made < n) (hdepth' : 0 < d'.tags.depth) : d'.tags.Rooted root := by
  cases h with
  | startTag _ hopens => exact (hr.opens hroot hopens).record _
  | endTag _ hshuts =>
    change 0 < (State.record _ _).depth at hdepth'
    rw [(State.sameOpen_record _ _).depth] at hdepth'
    exact (hr.shuts hkept.counted hkept.attached hshuts hdepth').record _
  | _ => exact hr

/-! ## Along the steps inside a table -/

/-- Whether steps, the first of which has number `n`, lead through a desk, at their beginning, at
their end or between two of them. -/
def Passes (n : Nat) (steps : List (Unit × Action)) (d d' : Desk Unit) : Prop :=
  ∃ done, done <+: steps ∧ d.run n done = .ok d'

/-- Without steps only the desk itself is passed. -/
theorem passes_nil_iff : d.Passes n [] d' ↔ d' = d := by
  constructor
  · rintro ⟨done, hdone, hrun⟩
    obtain rfl := List.prefix_nil.mp hdone
    exact (Except.ok.inj hrun).symm
  · rintro rfl
    exact ⟨[], List.prefix_refl _, rfl⟩

/-- The desks that steps lead through are the first one, and those behind its first step. -/
theorem passes_cons_iff (h : d.perform n () a = .ok d') :
    d.Passes n (((), a) :: steps) d'' ↔ d'' = d ∨ d'.Passes (n + 1) steps d'' := by
  constructor
  · rintro ⟨done, hdone, hrun⟩
    rcases List.prefix_cons_iff.mp hdone with rfl | ⟨rest, rfl, hrest⟩
    · exact .inl (Except.ok.inj hrun).symm
    · rw [run_cons_of_ok h] at hrun
      exact .inr ⟨rest, hrest, hrun⟩
  · rintro (rfl | ⟨done, hdone, hrun⟩)
    · exact ⟨[], List.nil_prefix, rfl⟩
    · exact ⟨((), a) :: done, (List.prefix_cons_inj _).mpr hdone, by rw [run_cons_of_ok h, hrun]⟩

/-- Every run from a sound desk that succeeds ends at a sound one. -/
theorem Sound.run (hd : d.Sound n) (hrun : d.run n steps = .ok d') :
    d'.Sound (n + steps.length) := by
  induction steps generalizing n d with
  | nil =>
    cases hrun
    exact hd
  | cons step steps ih =>
    obtain ⟨i, a⟩ := step
    obtain ⟨d₁, hok, hrest⟩ := exists_of_bind_eq_ok hrun
    have := ih (hd.perform (performs_of_perform hd hok)) hrest
    rwa [Nat.add_assoc, Nat.add_comm 1] at this

/-- A marker that is there at the end and is not new has been there all the time, since none comes
back. -/
theorem mem_markers_of_run (hd : d.Sound n) (hrun : d.run n steps = .ok d')
    (hm : m ∈ d'.tags.markers) (hmade : m.made < n) : m ∈ d.tags.markers := by
  induction steps generalizing n d with
  | nil =>
    cases hrun
    exact hm
  | cons step steps ih =>
    obtain ⟨i, a⟩ := step
    obtain ⟨d₁, hok, hrest⟩ := exists_of_bind_eq_ok hrun
    have hperforms := performs_of_perform hd hok
    have hm₁ := ih (hd.perform hperforms) hrest (Nat.lt_succ_of_lt hmade)
    refine (hperforms.mem_markers hm₁).resolve_right fun h => ?_
    omega

/-- **Guarded text along a run.** While the table is open, guarded text stays if and only if no
early marker is taken up. Once one is, the text is too short at that step, whatever is written
later. -/
theorem prefix_kept_iff (hd : d.Sound n) (hkept : d.Kept) (hg : (d.canvas ()).Guards x early)
    (hearly : ∀ m, early m → m.made < n) (hsteps : ∀ step ∈ steps, ¬ step.2.IsDelete)
    (hopen : ∀ d'', d.Passes n steps d'' → 0 < d''.tags.depth) (hrun : d.run n steps = .ok d') :
    (∀ d'', d.Passes n steps d'' → x <+: (d''.canvas ()).text) ↔
      ∀ m ∈ d.tags.markers, early m → m ∈ d'.tags.markers := by
  induction steps generalizing n d with
  | nil =>
    cases hrun
    refine iff_of_true (fun d'' hpass => ?_) fun m hm _ => hm
    rw [passes_nil_iff.mp hpass]
    exact hg.text
  | cons step steps ih =>
    obtain ⟨i, a⟩ := step
    obtain ⟨d₁, hok, hrest⟩ := exists_of_bind_eq_ok hrun
    have hperforms := performs_of_perform hd hok
    have hs₁ := hd.perform hperforms
    have hearly₁ (m : Marker) (hm : early m) : m.made < n + 1 := Nat.lt_succ_of_lt (hearly m hm)
    have hfirst : d.Passes n (((), a) :: steps) d₁ :=
      (passes_cons_iff hok).mpr (.inr ⟨[], List.nil_prefix, rfl⟩)
    rcases hperforms.minds (hsteps _ (List.mem_cons_self ..)) hd hkept hg hearly
      (hopen d₁ hfirst) with ⟨hspares, hg₁⟩ | ⟨⟨m, hm, hin, hout⟩, hshort⟩
    · have hih := ih hs₁ (hkept.perform hd hperforms) hg₁ hearly₁
        (fun step hstep => hsteps step (List.mem_cons_of_mem _ hstep))
        (fun d'' hpass => hopen d'' ((passes_cons_iff hok).mpr (.inr hpass))) hrest
      constructor
      · intro htext m hm hm'
        exact hih.mp (fun d'' hpass => htext d'' ((passes_cons_iff hok).mpr (.inr hpass))) m
          ((hspares m hm').mpr hm) hm'
      · intro hstay d'' hpass
        rcases (passes_cons_iff hok).mp hpass with rfl | hpass
        · exact hg.text
        · exact hih.mpr (fun m hm hm' => hstay m ((hspares m hm').mp hm) hm') d'' hpass
    · -- the text has got too short, and the marker does not come back
      refine iff_of_false (fun htext => ?_) fun hstay => ?_
      · exact absurd (htext d₁ hfirst).length_le (Nat.not_le.mpr hshort)
      · exact hout (mem_markers_of_run hs₁ hrest (hstay m hin hm) (hearly₁ m hm))

/-- While the table is open its own marker is there, so it is never the one that is taken up. -/
theorem rooted_of_run (hd : d.Sound n) (hkept : d.Kept) (hr : d.tags.Rooted root)
    (hroot : root.made < n) (hopen : ∀ d'', d.Passes n steps d'' → 0 < d''.tags.depth)
    (hrun : d.run n steps = .ok d') : d'.tags.Rooted root := by
  induction steps generalizing n d with
  | nil =>
    cases hrun
    exact hr
  | cons step steps ih =>
    obtain ⟨i, a⟩ := step
    obtain ⟨d₁, hok, hrest⟩ := exists_of_bind_eq_ok hrun
    have hperforms := performs_of_perform hd hok
    have hdepth₁ : 0 < d₁.tags.depth :=
      hopen d₁ ((passes_cons_iff hok).mpr (.inr ⟨[], List.nil_prefix, rfl⟩))
    exact ih (hd.perform hperforms) (hkept.perform hd hperforms)
      (hperforms.rooted hkept hr hroot hdepth₁) (Nat.lt_succ_of_lt hroot)
      (fun d'' hpass => hopen d'' ((passes_cons_iff hok).mpr (.inr hpass))) hrest

/-! ## The start of the table -/

/-- A run from the start keeps the desk sound, and the markers with their marks. -/
theorem sound_kept_of_run {setup : Setup} {indent : Option Nat}
    (hrun : (fresh setup indent).run 0 steps = .ok d) : d.Sound steps.length ∧ d.Kept :=
  run_induction (P := fun _ d => d.Kept) (sound_fresh setup indent) (kept_fresh setup indent)
    (fun hd h hperforms => h.perform hd hperforms) hrun

/-- The start tag of an outermost table, which always succeeds, and what it leaves: its marker comes
before the placeholder. -/
theorem eq_of_perform_root (hd : d.Sound n) (hdepth : d.tags.depth = 0) {name : Text}
    {attributes : Attributes} (hname : Tag.ofName? name = some .table)
    (hstart : d.perform n () (.offer (.startElement name attributes)) = .ok d') :
    d'.tags = d.tags.beginTable n ∧ d'.canvas () = State.placeTable n (d.canvas ()) := by
  have hroot : d.tags.startTag n .table attributes (d.canvas ()) =
      .ok (d.tags.beginTable n, State.placeTable n (d.canvas ())) :=
    State.startTag_root (hd.canvas ()) hdepth
  simp only [perform, State.handle?_startElement, hname, Option.map_some, hroot] at hstart
  cases hstart
  exact ⟨rfl, rfl⟩

/-- The end tag of an outermost table leaves the text. -/
theorem text_of_perform_root (hd : d.Sound n) (hdepth : d.tags.depth = 1) {name : Text}
    (hname : Tag.ofName? name = some .table)
    (hend : d.perform n () (.offer (.endElement name)) = .ok d') :
    (d'.canvas ()).text = (d.canvas ()).text := by
  obtain ⟨t, c, hshuts, rfl⟩ := (performs_of_perform hd hend).exists_shuts hname
  exact hshuts.text_root hdepth

/-- The text at the beginning of a canvas is guarded, with the markers in front of its end as the
early ones. So any offset can be chosen as the end of what is guarded. -/
theorem guards_take (hkept : d.Kept) {j : Nat} (hj : j ≤ (d.canvas ()).length) :
    (d.canvas ()).Guards ((d.canvas ()).text.take j)
      fun m => ∃ a, (d.canvas ()).start? (.marker m) = some a ∧ a < j := by
  refine ⟨List.take_prefix _ _, fun s hs m hm => ?_⟩
  have hstart : (d.canvas ()).start? (.marker m) = some s.start :=
    hkept.attached.start?_eq hs hm
  have hlen : ((d.canvas ()).text.take j).length = j := List.length_take_of_le hj
  rw [hlen, hstart]
  simp

/-- **The text before a table.** Whatever comes before it and whatever tags and texts come inside
it, matching or not: while an outermost table is open, the text that there was behind its start tag
is kept up to offset `j` if and only if no marker that was open before the table and stands in front
of `j` is taken up. So all of it is kept, the placeholder as well, if and only if every marker from
before the table is still there; and the end tag of the table leaves the text. -/
theorem text_before_table_kept_iff (setup : Setup) (indent : Option Nat)
    {before inside : List (Unit × Action)} {d₀ d₁ d : Desk Unit} {name : Text}
    {attributes : Attributes} (hbefore : (fresh setup indent).run 0 before = .ok d₀)
    (hdepth : d₀.tags.depth = 0) (hname : Tag.ofName? name = some .table)
    (hstart : d₀.perform before.length () (.offer (.startElement name attributes)) = .ok d₁)
    (hinside : ∀ step ∈ inside, ¬ step.2.IsDelete)
    (hopen : ∀ d', d₁.Passes (before.length + 1) inside d' → 0 < d'.tags.depth)
    (hrun : d₁.run (before.length + 1) inside = .ok d) :
    (∀ j ≤ (d₁.canvas ()).length,
      (∀ d', d₁.Passes (before.length + 1) inside d' →
        (d₁.canvas ()).text.take j <+: (d'.canvas ()).text) ↔
      ∀ m ∈ d₀.tags.markers, m ∉ d.tags.markers →
        ∀ a, (d₁.canvas ()).start? (.marker m) = some a → j ≤ a) ∧
    ((∀ d', d₁.Passes (before.length + 1) inside d' →
        (d₁.canvas ()).text <+: (d'.canvas ()).text) ↔
      ∀ m ∈ d₀.tags.markers, m ∈ d.tags.markers) ∧
    (d.tags.depth = 1 → ∃ d', d.perform (before.length + 1 + inside.length) ()
        (.offer (.endElement name)) = .ok d' ∧ (d'.canvas ()).text = (d.canvas ()).text) := by
  obtain ⟨hs₀, hk₀⟩ := sound_kept_of_run hbefore
  have hperforms := performs_of_perform hs₀ hstart
  have hs₁ := hs₀.perform hperforms
  have hk₁ := hk₀.perform hs₀ hperforms
  obtain ⟨htags, hcanvas⟩ := eq_of_perform_root hs₀ hdepth hname hstart
  have hmarkers : d₁.tags.markers = ⟨before.length, .table, none⟩ :: d₀.tags.markers := by
    rw [htags]
    rfl
  have hrooted : d₁.tags.Rooted ⟨before.length, .table, none⟩ := by
    refine ⟨rfl, by rw [hmarkers]; exact List.mem_cons_self .., ?_⟩
    intro m hm hkind
    rcases List.mem_cons.mp (hmarkers ▸ hm) with rfl | hm
    · exact Nat.le_refl _
    · -- before the table there is no other
      have hnone := List.countP_eq_zero.mp (hk₀.counted.tables.trans hdepth) m hm
      exact absurd (decide_eq_true hkind) hnone
  have hroot : ⟨before.length, .table, none⟩ ∈ d.tags.markers :=
    (rooted_of_run hs₁ hk₁ hrooted (Nat.lt_succ_self _) hopen hrun).mem
  have hupto : ∀ j ≤ (d₁.canvas ()).length,
      (∀ d', d₁.Passes (before.length + 1) inside d' →
        (d₁.canvas ()).text.take j <+: (d'.canvas ()).text) ↔
      ∀ m ∈ d₀.tags.markers, m ∉ d.tags.markers →
        ∀ a, (d₁.canvas ()).start? (.marker m) = some a → j ≤ a := by
    intro j hj
    refine (prefix_kept_iff hs₁ hk₁ (guards_take hk₁ hj) ?_ hinside hopen hrun).trans ?_
    · rintro m ⟨a, ha, -⟩
      obtain ⟨s, hs, -⟩ := Option.map_eq_some_iff.mp ha
      have hmade := (hs₁.canvas () s (List.mem_of_find?_eq_some hs)).made_lt
      have hwhat := List.find?_some hs
      rwa [show s.what = .marker m from of_decide_eq_true hwhat] at hmade
    rw [hmarkers]
    constructor
    · intro hstay m hm hout a ha
      by_contra hlt
      exact hout (hstay m (List.mem_cons_of_mem _ hm) ⟨a, ha, Nat.not_le.mp hlt⟩)
    · rintro hbehind m hm ⟨a, ha, hlt⟩
      rcases List.mem_cons.mp hm with rfl | hm
      · exact hroot
      · by_contra hout
        exact absurd (hbehind m hm hout a ha) (Nat.not_le.mpr hlt)
  refine ⟨hupto, ?_, fun hone => ?_⟩
  · have hwhole := hupto _ (Nat.le_refl _)
    rw [show (d₁.canvas ()).text.take (d₁.canvas ()).length = (d₁.canvas ()).text from
      List.take_length] at hwhole
    refine hwhole.trans ⟨fun hbehind m hm => ?_, fun hstay m hm hout => absurd (hstay m hm) hout⟩
    by_contra hout
    -- the mark of an earlier marker stands before the placeholder
    obtain ⟨s, hs, hsm⟩ := hk₀.attached.exists_mem_spans hm
    have hfit := hs₀.canvas () s hs
    have hs₁' : s ∈ (d₁.canvas ()).spans := by
      rw [hcanvas]
      exact List.mem_append_left _ hs
    have hle := hbehind m hm hout _ (hk₁.attached.start?_eq hs₁' hsm)
    rw [hcanvas, State.length_placeTable] at hle
    have hpos : 0 < placeholder.length := by decide
    have := Nat.le_trans hfit.start_le hfit.stop_le
    omega
  · have hs := hs₁.run hrun
    obtain ⟨d', hok, -⟩ := exists_perform (i := ()) (a := .offer (.endElement name)) hs trivial
    exact ⟨d', hok, text_of_perform_root hs hone hname hok⟩

/-- Text with a code element and one that is struck out, both left open. -/
def openSteps : List (Unit × Action) :=
  [((), .write "a".toList), ((), .offer (.startElement "code".toList [])), ((), .write "b".toList),
    ((), .offer (.startElement "s".toList [])), ((), .write "c".toList)]

/-- A cell and, in it, the end of the element that is struck out. -/
def strayEndSteps : List (Unit × Action) :=
  [((), .offer (.startElement "td".toList [])), ((), .offer (.endElement "s".toList))]

theorem text_before_table_kept_iff_strayEnd :
    ∃ d₀ d₁ d : Desk Unit, (fresh {} none).run 0 openSteps = .ok d₀ ∧
      d₀.perform 5 () (.offer (.startElement "table".toList [])) = .ok d₁ ∧
      d₁.run 6 strayEndSteps = .ok d ∧
      (∀ d', d₁.Passes 6 strayEndSteps d' → (d₁.canvas ()).text.take 2 <+: (d'.canvas ()).text) ∧
      ¬ ∀ d', d₁.Passes 6 strayEndSteps d' → (d₁.canvas ()).text <+: (d'.canvas ()).text := by
  obtain ⟨d₀, d₁, d₂, d, hbefore, hstart, hcell, hend, hdepth₀, hdepths, hmarkers₀, hmarkers, hplace,
      hlength⟩ : ∃ d₀ d₁ d₂ d : Desk Unit, (fresh {} none).run 0 openSteps = .ok d₀ ∧
      d₀.perform 5 () (.offer (.startElement "table".toList [])) = .ok d₁ ∧
      d₁.perform 6 () (.offer (.startElement "td".toList [])) = .ok d₂ ∧
      d₂.perform 7 () (.offer (.endElement "s".toList)) = .ok d ∧ d₀.tags.depth = 0 ∧
      (d₁.tags.depth = 1 ∧ d₂.tags.depth = 1 ∧ d.tags.depth = 1) ∧
      d₀.tags.markers = [⟨3, .strike, none⟩, ⟨1, .code, none⟩] ∧
      d.tags.markers = [⟨6, .cell, none⟩, ⟨5, .table, none⟩, ⟨1, .code, none⟩] ∧
      (d₁.canvas ()).start? (.marker ⟨3, .strike, none⟩) = some 2 ∧ (d₁.canvas ()).length = 20 :=
    ⟨_, _, _, _, rfl, rfl, rfl, rfl, rfl, ⟨rfl, rfl, rfl⟩, by decide +kernel, by decide +kernel,
      by decide +kernel, by decide +kernel⟩
  have hinside : ∀ step ∈ strayEndSteps, ¬ step.2.IsDelete := by
    simp [strayEndSteps, Action.IsDelete]
  have hopen : ∀ d', d₁.Passes 6 strayEndSteps d' → 0 < d'.tags.depth := by
    intro d' hpass
    rcases (passes_cons_iff hcell).mp hpass with rfl | hpass
    · omega
    rcases (passes_cons_iff hend).mp hpass with rfl | hpass
    · omega
    · rw [passes_nil_iff.mp hpass]
      omega
  have hrun : d₁.run 6 strayEndSteps = .ok d := by
    rw [strayEndSteps, run_cons_of_ok hcell, run_cons_of_ok hend]
    rfl
  obtain ⟨hupto, hwhole, -⟩ := text_before_table_kept_iff {} none hbefore hdepth₀
    (show Tag.ofName? "table".toList = some .table by decide +kernel) hstart hinside hopen hrun
  refine ⟨d₀, d₁, d, hbefore, hstart, hrun, (hupto 2 (by omega)).mpr ?_, fun h => ?_⟩
  · rw [hmarkers₀, hmarkers]
    intro m hm hout a ha
    have hm : m = ⟨3, .strike, none⟩ ∨ m = ⟨1, .code, none⟩ := by simpa using hm
    rcases hm with rfl | rfl
    · rw [hplace] at ha
      exact Nat.le_of_eq (Option.some.inj ha)
    · exact absurd (by simp) hout
  · have hstay := hwhole.mp h ⟨3, .strike, none⟩ (by rw [hmarkers₀]; simp)
    rw [hmarkers] at hstay
    exact absurd hstay (by decide)

/-- **Text before a table can be lost.** An end tag in the table takes out what stands behind a
marker from before it. -/
theorem not_text_before_table_kept :
    ¬ ∀ (before inside : List (Unit × Action)) (d₀ d₁ d : Desk Unit) (name : Text)
      (attributes : Attributes), (fresh {} none).run 0 before = .ok d₀ → d₀.tags.depth = 0 →
      Tag.ofName? name = some .table →
      d₀.perform before.length () (.offer (.startElement name attributes)) = .ok d₁ →
      (∀ step ∈ inside, ¬ step.2.IsDelete) →
      (∀ d', d₁.Passes (before.length + 1) inside d' → 0 < d'.tags.depth) →
      d₁.run (before.length + 1) inside = .ok d →
      (d₁.canvas ()).text <+: (d.canvas ()).text := by
  intro h
  have hkept := h [((), .write "a".toList), ((), .offer (.startElement "code".toList [])),
      ((), .write "b".toList)] [((), .offer (.endElement "code".toList))] _ _ _ "table".toList [] rfl
    rfl (by decide +kernel) rfl (by simp [Action.IsDelete]) ?_ rfl
  · exact absurd hkept (by decide +kernel)
  · intro d' hpass
    rcases (passes_cons_iff rfl).mp hpass with rfl | hpass
    · exact Nat.one_pos
    · rw [passes_nil_iff.mp hpass]
      exact Nat.one_pos

end Desk

end Intercept

end StyledText
