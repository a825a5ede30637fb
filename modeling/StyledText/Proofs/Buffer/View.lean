import StyledText.Proofs.Canvas.Sound
import StyledText.Buffer.View

/-!
# The order of styled ranges

Ranges that every other range leads are shown after all others, in an order of their own. On a sound
canvas this is so for styles that begin at the end of the text.
-/

namespace StyledText

namespace Span

variable {α : Type} {s t : Span α} {l new : List (Span α)}

theorem insertInto_perm (s : Span α) (l : List (Span α)) : (insertInto s l).Perm (s :: l) := by
  induction l with
  | nil => exact .refl [s]
  | cons r rest ih =>
    rw [insertInto]
    split
    next => exact .refl _
    next => exact (ih.cons r).trans (.swap s r rest)

/-- Arranging changes nothing but the order, so each range is shown once. -/
theorem arrange_perm (l : List (Span α)) : (arrange l).Perm l := by
  induction l with
  | nil => exact .refl []
  | cons s rest ih => exact (insertInto_perm s _).trans (ih.cons s)

theorem mem_arrange : t ∈ arrange l ↔ t ∈ l := (arrange_perm l).mem_iff

theorem insertInto_append (h : ∀ t ∈ new, s.Leads t) :
    insertInto s (l ++ new) = insertInto s l ++ new := by
  induction l with
  | nil =>
    cases new with
    | nil => rfl
    | cons t rest => exact if_pos (h t (List.mem_cons_self ..))
  | cons r rest ih =>
    simp only [List.cons_append, insertInto]
    split
    next => rfl
    next => rw [ih, List.cons_append]

/-- What every range leads comes after all of them, arranged by itself. -/
theorem arrange_append (h : ∀ s ∈ l, ∀ t ∈ new, s.Leads t) :
    arrange (l ++ new) = arrange l ++ arrange new := by
  induction l with
  | nil => rfl
  | cons s rest ih =>
    rw [List.cons_append, arrange, ih fun r hr => h r (List.mem_cons_of_mem _ hr), arrange]
    exact insertInto_append fun t ht => h s (List.mem_cons_self ..) t (mem_arrange.mp ht)

/-- Ranges in the order of `Leads` stay as they are. -/
theorem arrange_of_pairwise (h : l.Pairwise Leads) : arrange l = l := by
  induction l with
  | nil => rfl
  | cons s rest ih =>
    rw [arrange, ih h.of_cons]
    cases rest with
    | nil => rfl
    | cons t rest => exact if_pos (List.rel_of_pairwise_cons h (List.mem_cons_self ..))

end Span

namespace Canvas

variable {n m start stop : Nat} {styles : List Style} {c : Canvas}

theorem arrange_spread : Span.arrange (spread n styles start stop) = spread n styles start stop := by
  refine Span.arrange_of_pairwise (List.pairwise_of_forall_mem_list ?_)
  intro s hs t ht
  obtain ⟨-, -, -, rfl⟩ := mem_spread hs
  obtain ⟨-, -, -, rfl⟩ := mem_spread ht
  exact .inr ⟨rfl, Nat.le_refl _⟩

/-- Styles that begin at the end of a sound canvas or behind it are shown last. -/
theorem annotations_eq_append {c' : Canvas} (hc : c.Sound n) (hstart : c.length ≤ start)
    (hs : c'.spans = c.spans ++ spread m styles start stop) :
    c'.annotations = c.annotations ++ spread m styles start stop := by
  have hstyle : (spread m styles start stop).filter (·.flag ≠ .mark) =
      spread m styles start stop := by
    rw [List.filter_eq_self]
    intro s hm
    obtain ⟨-, -, -, rfl⟩ := mem_spread hm
    rfl
  rw [Buffer.annotations, hs, List.filter_append, hstyle, Span.arrange_append, arrange_spread]
  · rfl
  · intro s hm t ht
    obtain ⟨hin, hflag⟩ := List.mem_filter.mp hm
    obtain ⟨-, -, -, rfl⟩ := mem_spread ht
    have hfit := hc s hin
    have hne : s.start ≠ s.stop := fun he => by simp [hfit.empty_iff.mp he] at hflag
    exact .inl (Nat.lt_of_lt_of_le (Nat.lt_of_le_of_ne hfit.start_le hne)
      (Nat.le_trans hfit.stop_le hstart))

end Canvas

end StyledText
