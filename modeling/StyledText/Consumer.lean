import StyledText.Flow.Basic
import StyledText.Intercept.Handle

/-!
# Consumers of events

A consumer takes the events of a document one after another. Each event comes with its number, so
that what it attaches to a canvas can be told from what others attach.

* `Consumer.run` — a whole document;
* `flow` — writes running text;
* `recorder`, `scribe` — keep the events, without and with a canvas;
* `Consumer.beside` — the same consumer, with a canvas of its own beside it;
* `Consumer.intercept?` — `Intercept` in front of a consumer: it gets every event first, on the
  canvas of the consumer, and what it declines goes on unchanged.
-/

namespace StyledText

/-- The canvas in a state. -/
structure Access (σ : Type) where
  /-- the canvas of a state -/
  get : σ → Canvas
  /-- the state with another canvas -/
  put : Canvas → σ → σ
  /-- what is put is what is there -/
  get_put : ∀ c s, get (put c s) = c := by intros; rfl

/-- What takes the events of a document. -/
structure Consumer (σ : Type) where
  /-- what an event does, by its number -/
  receive : Nat → Markup.Event → σ → Except Fault σ
  /-- the canvas that the consumer offers, if it has one -/
  canvas? : Option (Access σ)

/-- An interceptor has no canvas to work on. -/
inductive NoCanvas where
  | noCanvas
  deriving DecidableEq, Repr

/-- The wording of the refusal. -/
def NoCanvas.message : NoCanvas → String
  | noCanvas => "content_handler has no output buffer; pass output explicitly"

namespace Consumer

variable {σ : Type}

/-! ## Running -/

/-- Takes events, the first of which has number `n`. -/
def runFrom (k : Consumer σ) : Nat → List Markup.Event → σ → Except Fault σ
  | _, [], s => .ok s
  | n, e :: events, s => (k.receive n e s).bind (runFrom k (n + 1) events)

/-- Takes the events of a document. -/
def run (k : Consumer σ) (events : List Markup.Event) (s : σ) : Except Fault σ :=
  k.runFrom 0 events s

/-- The states after each of some events, the first of which has number `n`. -/
def statesFrom (k : Consumer σ) : Nat → List Markup.Event → σ → Except Fault (List σ)
  | _, [], _ => .ok []
  | n, e :: events, s =>
    (k.receive n e s).bind fun s => (statesFrom k (n + 1) events s).map (s :: ·)

/-- The states after each event of a document. -/
def states (k : Consumer σ) (events : List Markup.Event) (s : σ) : Except Fault (List σ) :=
  k.statesFrom 0 events s

/-! ## Combining -/

/-- The consumer with a canvas of its own beside it. -/
def beside (k : Consumer σ) : Consumer (Canvas × σ) where
  receive n e := fun (c, s) => (k.receive n e s).map fun s => (c, s)
  canvas? := some { get := fun (c, _) => c, put := fun c (_, s) => (c, s) }

/-- The interceptor in front of a consumer, on its canvas. -/
def behindIntercept (k : Consumer σ) (canvas : Access σ) : Consumer (Intercept.State × σ) where
  receive n e := fun (t, s) =>
    match t.handle? n e (canvas.get s) with
    | some handled => handled.map fun (t, c) => (t, canvas.put c s)
    | none => (k.receive n e s).map fun s => (t, s)
  canvas? := some
    { get := fun (_, s) => canvas.get s
      put := fun c (t, s) => (t, canvas.put c s)
      get_put := fun c (_, s) => canvas.get_put c s }

/-- The interceptor in front of a consumer, if that offers a canvas. -/
def intercept? (k : Consumer σ) : Except NoCanvas (Consumer (Intercept.State × σ)) :=
  match k.canvas? with
  | some canvas => .ok (k.behindIntercept canvas)
  | none => .error .noCanvas

/-- A document in two parts. The second part goes on with the numbers of the first. -/
theorem runFrom_append (k : Consumer σ) (n : Nat) (es fs : List Markup.Event) (s : σ) :
    k.runFrom n (es ++ fs) s = (k.runFrom n es s).bind (k.runFrom (n + es.length) fs) := by
  induction es generalizing n s with
  | nil => rfl
  | cons e es ih =>
    simp only [List.cons_append, runFrom, List.length_cons]
    cases k.receive n e s with
    | error f => rfl
    | ok s =>
      change k.runFrom (n + 1) (es ++ fs) s = _
      rw [ih, Nat.add_assoc, Nat.add_comm 1]
      rfl

end Consumer

/-! ## The consumers -/

/-- The canvas that running text is written on. -/
def Flow.State.access : Access Flow.State :=
  { get := fun f => f.canvas, put := fun c f => { f with canvas := c } }

/-- Writes running text. -/
def flow (lookup? : Option Image.Lookup) : Consumer Flow.State where
  receive := Flow.State.receive lookup?
  canvas? := some Flow.State.access

/-- Keeps the events, the first of them first. -/
def recorder : Consumer (List Markup.Event) where
  receive _ e events := .ok (events ++ [e])
  canvas? := none

/-- Keeps the events and writes their character data as it comes. -/
def scribe : Consumer (Canvas × List Markup.Event) where
  receive _ e := fun (c, events) =>
    let c : Canvas := match e with
      | .characters t => c.append t
      | _ => c
    .ok (c, events ++ [e])
  canvas? := some { get := fun (c, _) => c, put := fun c (_, events) => (c, events) }

end StyledText
