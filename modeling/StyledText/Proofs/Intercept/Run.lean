import StyledText.Consumer
import StyledText.Proofs.Intercept.Element
import StyledText.Proofs.Markup.Content

/-!
# Runs behind the interceptor

The interceptor in front of any consumer whose own events never fail on a sound canvas
(`Consumer.KeepsSound`): no event fails then either, whatever the order of the tags, and only tables
change the number of tables around.
-/

namespace StyledText

open Markup (Event Attributes Content)

namespace Consumer

variable {σ : Type} {k : Consumer σ} {canvas : Access σ} {n : Nat} {t t' : Intercept.State}
  {s s' : σ} {name : Text} {tag : Intercept.Tag}

/-! ## Runs -/

theorem runFrom_cons_of_ok {e : Event} (h : k.receive n e s = .ok s') (es : List Event) :
    k.runFrom n (e :: es) s = k.runFrom (n + 1) es s' := by
  rw [runFrom, h]
  rfl

theorem runFrom_append_of_ok {es : List Event} (h : k.runFrom n es s = .ok s')
    (fs : List Event) : k.runFrom n (es ++ fs) s = k.runFrom (n + es.length) fs s' := by
  rw [runFrom_append, h]
  rfl

/-- An element: its start tag, its content, its end tag and what follows. -/
theorem runFrom_element_of_ok {attributes : Attributes} {inner : Content} {s₁ s₂ s₃ : σ}
    (h₁ : k.receive n (.startElement name attributes) s = .ok s₁)
    (h₂ : k.runFrom (n + 1) inner.events s₁ = .ok s₂)
    (h₃ : k.receive (n + 1 + inner.events.length) (.endElement name) s₂ = .ok s₃)
    (rest : Content) :
    k.runFrom n (Content.element name attributes inner rest).events s =
      k.runFrom (n + 1 + inner.events.length + 1) rest.events s₃ := by
  rw [Content.events, List.cons_append, runFrom_cons_of_ok h₁, runFrom_append_of_ok h₂,
    runFrom_cons_of_ok h₃]

/-! ## What an event does -/

/-- An intercepted start tag comes to the interceptor and its canvas; the consumer does not get
it. -/
theorem receive_startElement_of_ofName? (h : Intercept.Tag.ofName? name = some tag)
    (attributes : Attributes) :
    (k.behindIntercept canvas).receive n (.startElement name attributes) (t, s) =
      (t.startTag n tag attributes (canvas.get s)).map fun (t, c) => (t, canvas.put c s) := by
  simp only [behindIntercept, Intercept.State.handle?_startElement, h]
  rfl

/-- An intercepted end tag comes to the interceptor and its canvas as well. -/
theorem receive_endElement_of_ofName? (h : Intercept.Tag.ofName? name = some tag) :
    (k.behindIntercept canvas).receive n (.endElement name) (t, s) =
      (t.endTag n tag (canvas.get s)).map fun (t, c) => (t, canvas.put c s) := by
  simp only [behindIntercept, Intercept.State.handle?_endElement, h]
  rfl

theorem receive_startElement_of_ok {attributes : Attributes} {c : Canvas}
    (h : Intercept.Tag.ofName? name = some tag)
    (hok : t.startTag n tag attributes (canvas.get s) = .ok (t', c)) :
    (k.behindIntercept canvas).receive n (.startElement name attributes) (t, s) =
      .ok (t', canvas.put c s) := by
  rw [receive_startElement_of_ofName? h, hok]
  rfl

theorem receive_endElement_of_ok {c : Canvas} (h : Intercept.Tag.ofName? name = some tag)
    (hok : t.endTag n tag (canvas.get s) = .ok (t', c)) :
    (k.behindIntercept canvas).receive n (.endElement name) (t, s) =
      .ok (t', canvas.put c s) := by
  rw [receive_endElement_of_ofName? h, hok]
  rfl

/-- What the interceptor declines goes to the consumer, and leaves the interceptor as it was. -/
theorem receive_of_declined {e : Event}
    (h : ∀ name, e.name? = some name → Intercept.Tag.ofName? name = none) :
    (k.behindIntercept canvas).receive n e (t, s) = (k.receive n e s).map fun s => (t, s) := by
  have hnone : t.handle? n e (canvas.get s) = none := by
    cases e with
    | startElement name attributes => simp [Intercept.State.handle?_startElement, h name rfl]
    | endElement name => simp [Intercept.State.handle?_endElement, h name rfl]
    | _ => rfl
  simp only [behindIntercept]
  rw [hnone]

/-- Who takes an event: the consumer takes what is declined, and the interceptor the tags that it
knows. -/
inductive Handles (k : Consumer σ) (canvas : Access σ) (n : Nat) (t : Intercept.State) (s : σ) :
    Event → Intercept.State → σ → Prop
  | declined {e : Event} {s' : σ}
      (hnone : ∀ name, e.name? = some name → Intercept.Tag.ofName? name = none)
      (h : k.receive n e s = .ok s') : Handles k canvas n t s e t s'
  | startTag {name : Text} {attributes : Attributes} {tag : Intercept.Tag} {t' : Intercept.State}
      {c : Canvas} (htag : Intercept.Tag.ofName? name = some tag)
      (h : t.startTag n tag attributes (canvas.get s) = .ok (t', c)) :
      Handles k canvas n t s (.startElement name attributes) t' (canvas.put c s)
  | endTag {name : Text} {tag : Intercept.Tag} {t' : Intercept.State} {c : Canvas}
      (htag : Intercept.Tag.ofName? name = some tag)
      (h : t.endTag n tag (canvas.get s) = .ok (t', c)) :
      Handles k canvas n t s (.endElement name) t' (canvas.put c s)

/-- Every event that succeeds is taken by one of the two, so what is to be shown of events is shown
of either. -/
theorem handles_of_receive {e : Event}
    (h : (k.behindIntercept canvas).receive n e (t, s) = .ok (t', s')) :
    Handles k canvas n t s e t' s' := by
  by_cases hdeclined : ∀ name, e.name? = some name → Intercept.Tag.ofName? name = none
  · rw [receive_of_declined hdeclined] at h
    obtain ⟨s'', hok, heq⟩ := exists_of_map_eq_ok h
    cases heq
    exact .declined hdeclined hok
  · push Not at hdeclined
    obtain ⟨name, hname, htag⟩ := hdeclined
    obtain ⟨tag, htag⟩ := Option.ne_none_iff_exists'.mp htag
    cases e with
    | startElement _ attributes =>
      cases hname
      rw [receive_startElement_of_ofName? htag] at h
      obtain ⟨⟨t₁, c₁⟩, hstart, heq⟩ := exists_of_map_eq_ok h
      cases heq
      exact .startTag htag hstart
    | endElement _ =>
      cases hname
      rw [receive_endElement_of_ofName? htag] at h
      obtain ⟨⟨t₁, c₁⟩, hend, heq⟩ := exists_of_map_eq_ok h
      cases heq
      exact .endTag htag hend
    | _ => cases hname

/-- The name that the tag of a table comes under is the plain one, in lower case. -/
theorem lower_eq_of_ofName?_table (h : Intercept.Tag.ofName? name = some .table) :
    name.lower = "table".toList :=
  (Intercept.Tag.eventName_of_ofName? h).symm

/-! ## Sound runs -/

/-- Events never fail on a sound canvas, and the canvas stays sound. -/
def KeepsSound (k : Consumer σ) (canvas : Access σ) : Prop :=
  ∀ n e s, (canvas.get s).Sound n → ∃ s', k.receive n e s = .ok s' ∧ (canvas.get s').Sound (n + 1)

/-- **No event fails.** Unless a table begins or ends the number of tables around stays. -/
theorem receive_sound (hk : k.KeepsSound canvas) (hb : t.Balanced) (hc : (canvas.get s).Sound n)
    (e : Event) :
    ∃ t' s', (k.behindIntercept canvas).receive n e (t, s) = .ok (t', s') ∧ t'.Balanced ∧
      (canvas.get s').Sound (n + 1) ∧
      ((∀ name, e.name? = some name → name.lower ≠ "table".toList) → t'.depth = t.depth) := by
  -- what is declined comes to the consumer, which keeps the canvas sound
  have hdeclined (h : ∀ name, e.name? = some name → Intercept.Tag.ofName? name = none) :
      ∃ t' s', (k.behindIntercept canvas).receive n e (t, s) = .ok (t', s') ∧ t'.Balanced ∧
        (canvas.get s').Sound (n + 1) ∧ t'.depth = t.depth := by
    obtain ⟨s', hok, hs⟩ := hk n e s hc
    refine ⟨t, s', ?_, hb, hs, rfl⟩
    rw [receive_of_declined h, hok]
    rfl
  have hnot {name : Text} {tag : Intercept.Tag} (h : Intercept.Tag.ofName? name = some tag)
      (hn : name.lower ≠ "table".toList) : tag ≠ .table := by
    rintro rfl
    exact hn (lower_eq_of_ofName?_table h)
  cases e with
  | startElement name attributes =>
    rcases h : Intercept.Tag.ofName? name with _ | tag
    · obtain ⟨t', s', hok, hb', hs, hdepth⟩ := hdeclined (by rintro _ ⟨⟩; exact h)
      exact ⟨t', s', hok, hb', hs, fun _ => hdepth⟩
    · obtain ⟨t', c, hok, hl⟩ := Intercept.State.startTag_leaves tag attributes hb hc
      refine ⟨t', canvas.put c s, receive_startElement_of_ok h hok, hl.balanced, ?_,
        fun hn => hl.depth (hnot h (hn _ rfl))⟩
      rw [canvas.get_put]
      exact hl.sound
  | endElement name =>
    rcases h : Intercept.Tag.ofName? name with _ | tag
    · obtain ⟨t', s', hok, hb', hs, hdepth⟩ := hdeclined (by rintro _ ⟨⟩; exact h)
      exact ⟨t', s', hok, hb', hs, fun _ => hdepth⟩
    · obtain ⟨t', c, hok, hl⟩ := Intercept.State.endTag_leaves tag hb hc
      refine ⟨t', canvas.put c s, receive_endElement_of_ok h hok, hl.balanced, ?_,
        fun hn => hl.depth (hnot h (hn _ rfl))⟩
      rw [canvas.get_put]
      exact hl.sound
  | _ =>
    obtain ⟨t', s', hok, hb', hs, hdepth⟩ := hdeclined (by rintro _ ⟨⟩)
    exact ⟨t', s', hok, hb', hs, fun _ => hdepth⟩

/-- **No events fail**, whatever they are and whatever the consumer does with what it gets, by
induction over the events. -/
theorem run_sound (hk : k.KeepsSound canvas) (events : List Event) :
    ∀ {n : Nat} {t : Intercept.State} {s : σ}, t.Balanced → (canvas.get s).Sound n →
      ∃ t' s', (k.behindIntercept canvas).runFrom n events (t, s) = .ok (t', s') ∧ t'.Balanced ∧
        (canvas.get s').Sound (n + events.length) ∧
        ((∀ e ∈ events, ∀ name, e.name? = some name → name.lower ≠ "table".toList) →
          t'.depth = t.depth) := by
  induction events with
  | nil =>
    intro n t s hb hc
    exact ⟨t, s, rfl, hb, hc, fun _ => rfl⟩
  | cons e events ih =>
    intro n t s hb hc
    obtain ⟨t₁, s₁, hok₁, hb₁, hs₁, hdepth₁⟩ := receive_sound hk hb hc e
    obtain ⟨t₂, s₂, hok₂, hb₂, hs₂, hdepth₂⟩ := ih hb₁ hs₁
    refine ⟨t₂, s₂, ?_, hb₂, ?_, fun h => ?_⟩
    · rw [runFrom_cons_of_ok hok₁]
      exact hok₂
    · rw [List.length_cons, Nat.add_comm events.length, ← Nat.add_assoc]
      exact hs₂
    · exact (hdepth₂ fun e' he' => h e' (List.mem_cons_of_mem e he')).trans
        (hdepth₁ (h e (List.mem_cons_self ..)))

/-- **What each event keeps, all of them keep.** The number of the next event may have a part in
it. -/
theorem runFrom_invariant (hk : k.KeepsSound canvas) {P : Nat → Intercept.State → σ → Prop}
    {events : List Event}
    (hstep : ∀ e ∈ events, ∀ {n : Nat} {t t' : Intercept.State} {s s' : σ}, t.Balanced →
      (canvas.get s).Sound n → P n t s →
        (k.behindIntercept canvas).receive n e (t, s) = .ok (t', s') → P (n + 1) t' s') :
    ∀ {n : Nat} {t t' : Intercept.State} {s s' : σ}, t.Balanced → (canvas.get s).Sound n → P n t s →
      (k.behindIntercept canvas).runFrom n events (t, s) = .ok (t', s') →
        P (n + events.length) t' s' := by
  induction events with
  | nil =>
    intro n t t' s s' _ _ hP hrun
    cases hrun
    exact hP
  | cons e events ih =>
    intro n t t' s s' hb hc hP hrun
    obtain ⟨t₁, s₁, hok, hb₁, hs₁, -⟩ := receive_sound hk hb hc e
    have hP₁ : P (n + 1) t₁ s₁ := hstep e (List.mem_cons_self ..) hb hc hP hok
    rw [runFrom_cons_of_ok hok] at hrun
    rw [List.length_cons, Nat.add_comm events.length, ← Nat.add_assoc]
    exact ih (fun e he => hstep e (List.mem_cons_of_mem _ he)) hb₁ hs₁ hP₁ hrun

end Consumer

end StyledText
