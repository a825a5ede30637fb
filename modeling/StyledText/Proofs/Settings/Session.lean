import Mathlib.Logic.Function.Basic
import StyledText.Settings.Session

/-!
# What a cache answers

What a cache keeps is told by the log of its session alone: the reading of the last reload that
succeeded, or else of the first get that did (`Session.Follows`). All other calls read the
environment of their moment and make a reading that there has not been before. Calls that fail, and
those whose reading is not kept, can be left out of a session: at most the readings that are made
later get other numbers (`Session.get_answers_kept`).
-/

namespace StyledText

namespace Settings

/-! ## Logs -/

/-- The environment after steps. Calls leave it alone. -/
def environment (env : Environment) : List Step → Environment
  | [] => env
  | .change name value :: steps => environment (env.update name value) steps
  | .call _ :: steps => environment env steps

namespace Entry

/-- Whether an entry tells of a call of one kind that succeeded. -/
def succeeds (c : Call) (e : Entry) : Bool := e.call = c && e.answer.isOk

/-- Whether an entry behind a log tells of a reading of the environment: it has the settings of its
moment, or their problem, and a number that is not in the log. -/
structure ReadsAnew (past : List Entry) (e : Entry) : Prop where
  settings : e.answer.map Reading.settings = read e.env
  serial_ne : ∀ r, e.answer = .ok r → ∀ e' ∈ past, ∀ r', e'.answer = .ok r' → r'.serial ≠ r.serial

theorem succeeds_of_error {c : Call} {e : Entry} {p : Problem} (h : e.answer = .error p) :
    e.succeeds c = false := by
  rw [succeeds, h]
  exact Bool.and_false _

theorem succeeds_of_ok {c : Call} {e : Entry} {r : Reading} (h : e.answer = .ok r) :
    e.succeeds c = decide (e.call = c) := by
  rw [succeeds, h]
  exact Bool.and_true _

end Entry

/-- The entry that made what is kept after a log: the last reload that succeeded, or the first get
that did where there is no such reload. -/
def kept? (past : List Entry) : Option Entry :=
  (past.reverse.find? (Entry.succeeds .reload)).or (past.find? (Entry.succeeds .get))

/-- One more call keeps its own reading if it is a reload that succeeds, or a get that does where
nothing has been kept; after all other calls the same is kept as before. -/
theorem kept?_concat (past : List Entry) (e : Entry) :
    kept? (past ++ [e]) =
      if e.succeeds .reload then some e
      else (kept? past).or (if e.succeeds .get then some e else none) := by
  rw [kept?, kept?, List.reverse_concat, List.find?_cons, List.find?_append, List.find?_singleton,
    Option.or_assoc]
  cases e.succeeds .reload <;> rfl

namespace Session

variable {s t : Session} {c : Call} {r : Reading} {past : List Entry} {e e₀ : Entry}

/-- Every entry is that of a call among the steps, and the entries before it are those of the steps
before. -/
theorem exists_steps_of_log {steps : List Step} {before after : List Entry}
    (h : s.log steps = before ++ e :: after) :
    ∃ earlier later, steps = earlier ++ .call e.call :: later ∧ s.log earlier = before ∧
      (s.run earlier).entry e.call = e := by
  induction steps generalizing s before with
  | nil => simp [log] at h
  | cons x steps ih =>
    cases x with
    | change name value =>
      obtain ⟨earlier, later, rfl, hbefore, he⟩ := ih h
      exact ⟨.change name value :: earlier, later, rfl, hbefore, he⟩
    | call c =>
      rw [log] at h
      cases before with
      | nil =>
        obtain ⟨rfl, -⟩ := List.cons.inj h
        exact ⟨[], steps, rfl, rfl, rfl⟩
      | cons e' before =>
        obtain ⟨rfl, hrest⟩ := List.cons.inj h
        obtain ⟨earlier, later, rfl, rfl, he⟩ := ih hrest
        exact ⟨.call c :: earlier, later, rfl, rfl, he⟩

/-! ## One call -/

/-- The reading that is made next. -/
def next (settings : Settings) (s : Session) : Reading := ⟨s.cache.readings + 1, settings⟩

/-- The session after a call that has made a reading. -/
def made (c : Call) (settings : Settings) (s : Session) : Session :=
  { s with cache :=
      ⟨s.cache.readings + 1, if c = .create then s.cache.kept else some (s.next settings)⟩ }

/-- A get where something is kept answers just that, and the cache stays as it is. -/
theorem ask_of_kept (h : s.cache.kept = some r) : s.ask .get = (.ok r, s) := by
  rw [ask, Call.perform, Cache.get_of_kept h]

/-- A call that cannot read the environment. A get does not try where something is kept. -/
theorem ask_of_read_eq_error {p : Problem} (hmiss : c = .get → s.cache.kept = none)
    (h : read s.env = .error p) : s.ask c = (.error p, s) := by
  have hperform : c.perform s.env s.cache = (.error p, s.cache) := by
    cases c with
    | get => exact (Cache.get_of_not_kept (hmiss rfl)).trans (Cache.reload_of_error h)
    | reload => exact Cache.reload_of_error h
    | create => exact Cache.create_of_error h
  rw [ask, hperform]

/-- A call that reads the environment. -/
theorem ask_of_read_eq_ok {settings : Settings} (hmiss : c = .get → s.cache.kept = none)
    (h : read s.env = .ok settings) : s.ask c = (.ok (s.next settings), s.made c settings) := by
  have hperform : c.perform s.env s.cache = (.ok (s.next settings), (s.made c settings).cache) := by
    cases c with
    | get => exact (Cache.get_of_not_kept (hmiss rfl)).trans (Cache.reload_of_ok h)
    | reload => exact Cache.reload_of_ok h
    | create => exact Cache.create_of_ok h
  rw [ask, hperform]
  rfl

/-- **What a call can do**: answer what is kept, fail without a trace, or make a reading. -/
theorem ask_cases (c : Call) (s : Session) :
    (∃ r, c = .get ∧ s.cache.kept = some r ∧ s.ask c = (.ok r, s)) ∨
    ((c = .get → s.cache.kept = none) ∧
      ((∃ p, read s.env = .error p ∧ s.ask c = (.error p, s)) ∨
        ∃ settings, read s.env = .ok settings ∧
          s.ask c = (.ok (s.next settings), s.made c settings))) := by
  by_cases hmiss : c = .get → s.cache.kept = none
  · refine .inr ⟨hmiss, ?_⟩
    cases hread : read s.env with
    | error p => exact .inl ⟨p, rfl, ask_of_read_eq_error hmiss hread⟩
    | ok settings => exact .inr ⟨settings, rfl, ask_of_read_eq_ok hmiss hread⟩
  · obtain ⟨rfl, hkept⟩ := Classical.not_imp.mp hmiss
    obtain ⟨r, hr⟩ := Option.ne_none_iff_exists'.mp hkept
    exact .inl ⟨r, rfl, hr, ask_of_kept hr⟩

/-- Calls leave the environment alone; only a change among the steps makes another one of it. -/
theorem env_ask (c : Call) (s : Session) : (s.ask c).2.env = s.env := rfl

/-- So the environment after steps is told by the changes among them. -/
theorem env_run (steps : List Step) (s : Session) :
    (s.run steps).env = environment s.env steps := by
  induction steps generalizing s with
  | nil => rfl
  | cons x steps ih =>
    cases x with
    | change name value => exact ih _
    | call c => exact (ih _).trans (congrArg (environment · steps) (env_ask c s))

/-- A call that fails leaves no trace: nothing is kept anew, and no number is used up. -/
theorem ask_of_error {p : Problem} (h : (s.entry c).answer = .error p) : (s.ask c).2 = s := by
  change (s.ask c).1 = .error p at h
  obtain ⟨r, -, -, hask⟩ | ⟨-, ⟨p, -, hask⟩ | ⟨settings, -, hask⟩⟩ := ask_cases c s
  · rw [hask]
  · rw [hask]
  · rw [hask] at h
    cases h

/-! ## Histories -/

/-- Whether a session can have come out of calls with a log. -/
structure Follows (past : List Entry) (s : Session) : Prop where
  /-- what is kept is the reading of the last reload, or else of the first get -/
  kept : s.cache.kept = (kept? past).bind (·.answer.toOption)
  /-- readings have been counted -/
  serial_le : ∀ e ∈ past, ∀ r, e.answer = .ok r → r.serial ≤ s.cache.readings
  /-- what is kept was made by the call that is found -/
  made : ∀ e₀, kept? past = some e₀ → (∃ r, e₀.answer = .ok r) ∧
    ∃ before after, past = before ++ e₀ :: after ∧ e₀.ReadsAnew before

/-- An empty cache keeps to an empty log: nothing is kept, and nothing has been made. -/
theorem follows_nil (env : Environment) : Follows [] { env := env } where
  kept := rfl
  serial_le e he := absurd he List.not_mem_nil
  made e₀ h := by cases h

namespace Follows

theorem kept_eq_some (h : Follows past s) (hkept : kept? past = some e₀) :
    ∃ r, e₀.answer = .ok r ∧ s.cache.kept = some r := by
  obtain ⟨⟨r, hr⟩, -⟩ := h.made e₀ hkept
  exact ⟨r, hr, by rw [h.kept, hkept, Option.bind_some, hr]; rfl⟩

theorem kept_eq_none_iff (h : Follows past s) : s.cache.kept = none ↔ kept? past = none := by
  cases hkept : kept? past with
  | none => simp [h.kept, hkept]
  | some e₀ =>
    obtain ⟨r, -, hr⟩ := h.kept_eq_some hkept
    simp [hr]

/-- What is kept has been counted, since it is the reading of a call of the log. -/
theorem serial_le_of_kept (h : Follows past s) (hr : s.cache.kept = some r) :
    r.serial ≤ s.cache.readings := by
  obtain ⟨e₀, hkept, hanswer⟩ := Option.bind_eq_some_iff.mp (h.kept.symm.trans hr)
  obtain ⟨⟨r', hr'⟩, before, after, hsplit, -⟩ := h.made e₀ hkept
  rw [hr'] at hanswer
  cases hanswer
  exact h.serial_le e₀ (by simp [hsplit]) r hr'

/-- A call that reads the environment reads it anew: its reading has a number beyond all that have
been given. -/
theorem readsAnew (h : Follows past s) (hmiss : c = .get → s.cache.kept = none) :
    (s.entry c).ReadsAnew past := by
  obtain ⟨r, rfl, hr, -⟩ | ⟨-, ⟨p, hread, hask⟩ | ⟨settings, hread, hask⟩⟩ := ask_cases c s
  · cases (hmiss rfl).symm.trans hr
  · have hanswer : (s.entry c).answer = .error p := congrArg Prod.fst hask
    exact ⟨by rw [hanswer]; exact hread.symm, fun r hr => by cases hanswer.symm.trans hr⟩
  · have hanswer : (s.entry c).answer = .ok (s.next settings) := congrArg Prod.fst hask
    refine ⟨by rw [hanswer]; exact hread.symm, fun r hr e' he' r' hr' => ?_⟩
    cases hanswer.symm.trans hr
    exact Nat.ne_of_lt (Nat.lt_succ_of_le (h.serial_le e' he' r' hr'))

/-- A call after which the same is kept, whether it has made a reading of its own or not. -/
theorem stay (h : Follows past s) (hkept : kept? (past ++ [e]) = kept? past)
    (hsame : t.cache.kept = s.cache.kept) (hle : s.cache.readings ≤ t.cache.readings)
    (hserial : ∀ r, e.answer = .ok r → r.serial ≤ t.cache.readings) :
    Follows (past ++ [e]) t where
  kept := by rw [hkept, hsame, h.kept]
  serial_le e' he' r hr := by
    obtain he' | rfl := List.mem_append.mp he' |>.imp_right List.mem_singleton.mp
    · exact Nat.le_trans (h.serial_le e' he' r hr) hle
    · exact hserial r hr
  made e₀ he₀ := by
    obtain ⟨hok, before, after, rfl, hnew⟩ := h.made e₀ (hkept.symm.trans he₀)
    exact ⟨hok, before, after ++ [e], by simp, hnew⟩

/-- A call whose reading is kept from now on, in the place of what was kept before. -/
theorem replace (h : Follows past s) (hkept : kept? (past ++ [e]) = some e) (hr : e.answer = .ok r)
    (hnew : e.ReadsAnew past) (hcache : t.cache = ⟨s.cache.readings + 1, some r⟩)
    (hserial : r.serial = s.cache.readings + 1) : Follows (past ++ [e]) t where
  kept := by rw [hkept, hcache, Option.bind_some, hr]; rfl
  serial_le e' he' r' hr' := by
    rw [hcache]
    obtain he' | rfl := List.mem_append.mp he' |>.imp_right List.mem_singleton.mp
    · exact Nat.le_succ_of_le (h.serial_le e' he' r' hr')
    · cases hr.symm.trans hr'
      exact Nat.le_of_eq hserial
  made e₀ he₀ := by
    cases hkept.symm.trans he₀
    exact ⟨⟨r, hr⟩, past, [], rfl, hnew⟩

/-- **Every call** keeps to the log, by what it can do: answer what is kept, fail, or make a
reading. -/
theorem ask (h : Follows past s) (c : Call) : Follows (past ++ [s.entry c]) (s.ask c).2 := by
  have hconcat := kept?_concat past (s.entry c)
  obtain ⟨r, rfl, hr, hask⟩ | ⟨hmiss, ⟨p, -, hask⟩ | ⟨settings, -, hask⟩⟩ := ask_cases c s
  · -- something is kept, so there is an entry for it, and it goes before this one
    have hanswer : (s.entry .get).answer = .ok r := congrArg Prod.fst hask
    have hsome : kept? past ≠ none := fun hnone => by
      cases hr.symm.trans (h.kept_eq_none_iff.mpr hnone)
    obtain ⟨e₀, he₀⟩ := Option.ne_none_iff_exists'.mp hsome
    rw [Entry.succeeds_of_ok hanswer, he₀] at hconcat
    rw [hask]
    refine h.stay (hconcat.trans he₀.symm) rfl (Nat.le_refl _) fun r' hr' => ?_
    cases hanswer.symm.trans hr'
    exact h.serial_le_of_kept hr
  · have hanswer : (s.entry c).answer = .error p := congrArg Prod.fst hask
    simp only [Entry.succeeds_of_error hanswer, Bool.false_eq_true, if_false, Option.or_none]
      at hconcat
    rw [hask]
    exact h.stay hconcat rfl (Nat.le_refl _) fun r' hr' => by cases hanswer.symm.trans hr'
  · have hanswer : (s.entry c).answer = .ok (s.next settings) := congrArg Prod.fst hask
    have hnew := h.readsAnew hmiss
    rw [Entry.succeeds_of_ok hanswer, Entry.succeeds_of_ok hanswer] at hconcat
    rw [hask]
    cases c with
    | get =>
      rw [h.kept_eq_none_iff.mp (hmiss rfl)] at hconcat
      exact h.replace hconcat hanswer hnew rfl rfl
    | reload => exact h.replace hconcat hanswer hnew rfl rfl
    | create =>
      refine h.stay (hconcat.trans Option.or_none) rfl (Nat.le_succ _) fun r' hr' => ?_
      cases hanswer.symm.trans hr'
      exact Nat.le_refl _

/-- **Every run** keeps to its log, by induction over its steps. -/
theorem run (h : Follows past s) (steps : List Step) :
    Follows (past ++ s.log steps) (s.run steps) := by
  induction steps generalizing past s with
  | nil => simpa [log, Session.run] using h
  | cons x steps ih =>
    cases x with
    | change name value => exact ih ⟨h.kept, h.serial_le, h.made⟩
    | call c => simpa [log, Session.run, step] using ih (h.ask c)

end Follows

end Session

/-! ## Other numbers -/

/-- The reading with another number. -/
def Reading.renumber (σ : Nat → Nat) (r : Reading) : Reading := { r with serial := σ r.serial }

/-- The entry with another number for its reading, if it has one. -/
def Entry.renumber (σ : Nat → Nat) (e : Entry) : Entry :=
  { e with answer := e.answer.map (Reading.renumber σ) }

namespace Session

variable {s t : Session} {c : Call} {past : List Entry} {σ : Nat → Nat}

/-- Whether two sessions are the same up to the numbers of readings, those included that are still
to be made. -/
structure Renumbers (σ : Nat → Nat) (s t : Session) : Prop where
  env : t.env = s.env
  kept : t.cache.kept = s.cache.kept.map (Reading.renumber σ)
  serial : ∀ k, σ (s.cache.readings + (k + 1)) = t.cache.readings + (k + 1)

namespace Renumbers

/-- One call gives the same answer in both sessions up to numbers, and they are the same again
behind it. -/
theorem ask (h : Renumbers σ s t) (c : Call) :
    t.entry c = (s.entry c).renumber σ ∧ Renumbers σ (s.ask c).2 (t.ask c).2 := by
  have hkept := h.kept
  simp only [entry, Entry.renumber, h.env, Entry.mk.injEq, true_and]
  obtain ⟨r, rfl, hr, hask⟩ | ⟨hmiss, hread⟩ := ask_cases c s
  · rw [hr, Option.map_some] at hkept
    rw [hask, ask_of_kept hkept]
    exact ⟨rfl, h⟩
  · have hmiss' : c = .get → t.cache.kept = none := fun hc => by rw [hkept, hmiss hc]; rfl
    obtain ⟨p, hread, hask⟩ | ⟨settings, hread, hask⟩ := hread
    · rw [hask, ask_of_read_eq_error hmiss' (h.env ▸ hread)]
      exact ⟨rfl, h⟩
    · have hnext : t.next settings = (s.next settings).renumber σ :=
        congrArg (Reading.mk · settings) (h.serial 0).symm
      rw [hask, ask_of_read_eq_ok hmiss' (h.env ▸ hread), hnext]
      refine ⟨rfl, h.env, ?_, fun k => ?_⟩
      · by_cases hc : c = .create
        · simp [made, hc, hkept]
        · simp [made, hc, hnext]
      · have := h.serial (k + 1)
        simp only [made]
        rw [Nat.add_right_comm, Nat.add_assoc, this]
        omega

/-- All calls from then on give the same answers in both sessions, up to numbers. -/
theorem log (h : Renumbers σ s t) (steps : List Step) :
    t.log steps = (s.log steps).map (Entry.renumber σ) := by
  induction steps generalizing s t with
  | nil => rfl
  | cons x steps ih =>
    cases x with
    | change name value => exact ih ⟨congrArg (·.update name value) h.env, h.kept, h.serial⟩
    | call c =>
      obtain ⟨hentry, hrest⟩ := h.ask c
      rw [Session.log, Session.log, List.map_cons, hentry]
      exact congrArg _ (ih hrest)

end Renumbers

/-- A number more from some place on. -/
def skip (n k : Nat) : Nat := if k ≤ n then k else k + 1

theorem skip_injective (n : Nat) : Function.Injective (skip n) := by
  intro j k h
  unfold skip at h
  split at h <;> split at h <;> omega

theorem skip_of_le {n k : Nat} (h : k ≤ n) : skip n k = k := if_pos h

/-- **Calls without effect.** After a call that fails, or whose reading is not kept, everything goes
on as without it. -/
theorem Follows.exists_renumbers (h : Follows past s)
    (hc : c = .create ∨ ∃ p, (s.entry c).answer = .error p) :
    ∃ σ : Nat → Nat, Function.Injective σ ∧ (∀ k, k ≤ s.cache.readings → σ k = k) ∧
      ((∃ p, (s.entry c).answer = .error p) → σ = id) ∧ Renumbers σ s (s.ask c).2 := by
  have hsame : Renumbers id s s := ⟨rfl, Option.map_id'.symm, fun _ => rfl⟩
  by_cases hfail : ∃ p, (s.entry c).answer = .error p
  · obtain ⟨p, hp⟩ := hfail
    refine ⟨id, Function.injective_id, fun _ _ => rfl, fun _ => rfl, ?_⟩
    rw [ask_of_error hp]
    exact hsame
  · obtain rfl := hc.resolve_right hfail
    -- a reading that is not kept has used one number up, and all later ones are one ahead
    refine ⟨skip s.cache.readings, skip_injective _, fun _ => skip_of_le, (absurd · hfail), ?_⟩
    obtain ⟨r, hget, -⟩ | ⟨-, ⟨p, -, hask⟩ | ⟨settings, -, hask⟩⟩ := ask_cases .create s
    · cases hget
    · exact absurd ⟨p, congrArg Prod.fst hask⟩ hfail
    · rw [hask]
      refine ⟨rfl, ?_, fun k => ?_⟩
      · change s.cache.kept = _
        cases hr : s.cache.kept with
        | none => rfl
        | some r =>
          rw [Option.map_some, Reading.renumber, skip_of_le (h.serial_le_of_kept hr)]
      · change skip s.cache.readings (s.cache.readings + (k + 1)) = s.cache.readings + 1 + (k + 1)
        rw [skip, if_neg (by omega)]
        omega

/-- A log has only numbers that have been given, so a renumbering that begins behind those leaves it
as it is. -/
theorem Follows.renumber_eq (h : Follows past s) (hσ : ∀ k, k ≤ s.cache.readings → σ k = k) :
    ∀ e ∈ past, e.renumber σ = e := by
  intro e he
  obtain ⟨c, env, answer⟩ := e
  cases answer with
  | error p => rfl
  | ok r =>
    have hr : σ r.serial = r.serial := hσ _ (h.serial_le _ he r rfl)
    simp [Entry.renumber, Except.map, Reading.renumber, hr]

/-- **The settings of a session.** Take any steps from an empty cache, and then a call.

It finds the environment as the changes among the steps have left it. If it is a get and something
is kept, it gets the very reading of the last reload that succeeded or, without one, of the first
get that did; that entry has the settings of its own moment, and its reading was new then. Every
other call reads the environment now, and the reading that it makes, if it makes one, is new.

If the call fails or its reading is not kept, it can be left out. All calls that follow get the same
answers without it, with other numbers for some of the readings that are still to be made; if it
fails not even these change. -/
theorem get_answers_kept (env : Environment) (steps : List Step) (c : Call) :
    let start : Session := { env := env }
    let past := start.log steps
    let e := (start.run steps).entry c
    e.env = environment env steps ∧
    (c = .get → ∀ e₀, kept? past = some e₀ → ∃ r, e.answer = .ok r ∧ e₀.answer = .ok r ∧
      ∃ earlier later, steps = earlier ++ .call e₀.call :: later ∧
        e₀.env = environment env earlier ∧ e₀.ReadsAnew (start.log earlier)) ∧
    ((c = .get → kept? past = none) → e.ReadsAnew past) ∧
    (c = .create ∨ (∃ p, e.answer = .error p) →
      ∃ σ : Nat → Nat, Function.Injective σ ∧ (∀ e' ∈ past, e'.renumber σ = e') ∧
        ((∃ p, e.answer = .error p) → σ = id) ∧
        ∀ later, ∃ more, start.log (steps ++ later) = past ++ more ∧
          start.log (steps ++ .call c :: later) = past ++ e :: more.map (Entry.renumber σ)) := by
  intro start past e
  have hfollows : Follows past (start.run steps) := (follows_nil env).run steps
  refine ⟨env_run steps start, ?_, ?_, ?_⟩
  · rintro rfl e₀ he₀
    obtain ⟨r, hr, hkept⟩ := hfollows.kept_eq_some he₀
    obtain ⟨-, before, after, hsplit, hnew⟩ := hfollows.made e₀ he₀
    obtain ⟨earlier, later, rfl, rfl, hentry⟩ := exists_steps_of_log hsplit
    refine ⟨r, congrArg Prod.fst (ask_of_kept hkept), hr, earlier, later, rfl, ?_, hnew⟩
    rw [← hentry]
    exact env_run earlier start
  · intro hnone
    exact hfollows.readsAnew fun hc => hfollows.kept_eq_none_iff.mpr (hnone hc)
  · intro hc
    obtain ⟨σ, hinjective, hfix, hid, hrenumbers⟩ := hfollows.exists_renumbers hc
    refine ⟨σ, hinjective, hfollows.renumber_eq hfix, hid, fun later => ?_⟩
    refine ⟨(start.run steps).log later, log_append steps later start, ?_⟩
    rw [log_append, Session.log, step, hrenumbers.log]

/-- Steps where the indentation is no number at first: a get fails and one succeeds, a reading is
not kept, a reload succeeds and one fails. -/
def failedReload : List Step :=
  [.call .get, .change indentVariable none, .call .get, .change debugVariable (some "TRUE".toList),
    .call .create, .call .reload, .change indentVariable (some "-1".toList), .call .reload,
    .change debugVariable none]

/-- In this session what is kept comes from the first reload, and it is still kept after a reload
that fails. -/
theorem get_answers_kept_failedReload :
    let start : Session := { env := [(indentVariable, "wide".toList)] }
    let loud : Settings := { standard with debug := true }
    kept? (start.log failedReload) =
      some ⟨.reload, environment start.env (failedReload.take 5), .ok ⟨3, loud⟩⟩ ∧
    ((start.run failedReload).entry .get).answer = .ok ⟨3, loud⟩ ∧
    kept? (start.log []) = none ∧ (start.entry .get).ReadsAnew [] ∧
    ∃ σ : Nat → Nat, Function.Injective σ ∧
      ∃ more, start.log (failedReload.take 4 ++ failedReload.drop 5) =
          start.log (failedReload.take 4) ++ more ∧
        start.log failedReload = start.log (failedReload.take 4) ++
          (start.run (failedReload.take 4)).entry .create :: more.map (Entry.renumber σ) := by
  intro start loud
  obtain ⟨-, hget, -, -⟩ := get_answers_kept start.env failedReload .get
  obtain ⟨-, -, hfirst, -⟩ := get_answers_kept start.env [] .get
  obtain ⟨-, -, -, hcreate⟩ := get_answers_kept start.env (failedReload.take 4) .create
  obtain ⟨r, hr, hreload, -⟩ := hget rfl
    ⟨.reload, environment start.env (failedReload.take 5), .ok ⟨3, loud⟩⟩ rfl
  obtain ⟨σ, hinjective, -, -, hlater⟩ := hcreate (.inl rfl)
  cases hreload
  exact ⟨rfl, hr, rfl, hfirst fun _ => rfl, σ, hinjective, hlater (failedReload.drop 5)⟩

end Session

end Settings

end StyledText
