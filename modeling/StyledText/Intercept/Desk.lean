import StyledText.Intercept.Handle

/-!
# The interceptor at a desk

Used without a consumer behind it, the interceptor may work on several canvases at once, and text
may be written on them and taken out of them between the tags. All of this is done in steps, each on
one canvas of the desk; the steps are numbered like events.
-/

namespace StyledText

namespace Intercept

/-- What is done to a canvas. -/
inductive Action where
  /-- the interceptor is offered an event, which it may decline -/
  | offer (e : Markup.Event)
  /-- text is added at the end -/
  | write (t : Text)
  /-- the characters of a range are taken out -/
  | delete (start stop : Int)
  deriving DecidableEq

/-- The interceptor and the canvases it works on. -/
structure Desk (ι : Type) where
  /-- what the interceptor knows -/
  tags : State := {}
  /-- the canvases by their names -/
  canvas : ι → Canvas := fun _ => Canvas.blank

namespace Desk

variable {ι : Type} [DecidableEq ι]

/-- The desk with another canvas in the place of one. -/
def put (i : ι) (c : Canvas) (d : Desk ι) : Desk ι :=
  { d with canvas := fun j => if j = i then c else d.canvas j }

/-- Does step `n` to a canvas. -/
def perform (n : Nat) (i : ι) (a : Action) (d : Desk ι) : Except Fault (Desk ι) :=
  match a with
  | .offer e =>
    match d.tags.handle? n e (d.canvas i) with
    | some handled => handled.map fun (t, c) => { d.put i c with tags := t }
    | none => .ok d
  | .write t => .ok (d.put i ((d.canvas i).append t))
  | .delete start stop =>
    (Fault.ofRange ((d.canvas i).delete start stop)).map fun c => d.put i c

/-- Does steps one after another, the first of which has number `n`. -/
def run : Nat → List (ι × Action) → Desk ι → Except Fault (Desk ι)
  | _, [], d => .ok d
  | n, (i, a) :: steps, d => (d.perform n i a).bind (run (n + 1) steps)

@[simp] theorem canvas_put_self (i : ι) (c : Canvas) (d : Desk ι) : (d.put i c).canvas i = c :=
  if_pos rfl

@[simp] theorem tags_put (i : ι) (c : Canvas) (d : Desk ι) : (d.put i c).tags = d.tags := rfl

/-- Steps in two parts. The second part goes on with the numbers of the first. -/
theorem run_append (n : Nat) (steps more : List (ι × Action)) (d : Desk ι) :
    d.run n (steps ++ more) = (d.run n steps).bind (run (n + steps.length) more) := by
  induction steps generalizing n d with
  | nil => rfl
  | cons step steps ih =>
    simp only [List.cons_append, run, List.length_cons]
    cases d.perform n step.1 step.2 with
    | error f => rfl
    | ok d =>
      change d.run (n + 1) (steps ++ more) = _
      rw [ih, Nat.add_assoc, Nat.add_comm 1]
      rfl

end Desk

end Intercept

end StyledText
