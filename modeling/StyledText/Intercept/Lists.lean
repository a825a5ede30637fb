import StyledText.Intercept.Basic

/-!
# Lists

A list is only counted when it opens; what is shown are its items. An item begins on a line of its
own and ends with a newline, and it is styled when it ends: a margin that grows with the depth, and
a bullet or a number before it. The margins of the lists around add up on the line, so the gap of
an inner item takes back what they have added already.

An item belongs to the innermost list, also at its end, and outside of a list its end is nothing.
-/

namespace StyledText

namespace Intercept

/-- The indentation of a list where nothing else is asked for. -/
def standardIndent : Nat := 10

/-- The margin of an item of a list at this depth, for an indentation of `unit`. -/
def itemMargin (unit depth : Nat) : Int := 2 * unit * ((depth : Int) - 1)

/-- The gap before an item of a list at this depth, whose bullet or number takes `own`. -/
def itemGap (unit depth : Nat) (own : Int) : Int :=
  if depth ≤ 1 then unit else unit - own - ((depth : Int) - 2) * (2 * unit)

/-- The styles of an item with a bullet. -/
def bulletStyles (unit depth : Nat) : List Style :=
  let margin := itemMargin unit depth
  [.margin margin margin, .bullet (itemGap unit depth (Style.bulletMargin unit))]

/-- The styles of an item with a number. -/
def numberStyles (unit depth : Nat) (number : Int) : List Style :=
  let margin := itemMargin unit depth
  [.margin margin margin, .number (itemGap unit depth unit) number]

namespace State

/-- The indentation of a list. -/
def unit (t : State) : Nat := t.indent.getD standardIndent

/-- Opens a list; an ordered one begins to count. -/
def openList (kind : ListKind) (t : State) : State :=
  { t with
    lists := kind :: t.lists
    counters := match kind with
      | .ordered => 1 :: t.counters
      | .unordered => t.counters }

/-- Closes the innermost list, of whatever kind. -/
def closeList (t : State) : State :=
  match t.lists with
  | [] => t
  | .unordered :: lists => { t with lists := lists }
  | .ordered :: lists => { t with lists := lists, counters := t.counters.tail }

/-- Counts an item of the innermost ordered list. -/
def count (t : State) : Except Fault State :=
  match t.counters with
  | [] => .error .noCounter
  | k :: counters => .ok { t with counters := (k + 1) :: counters }

/-- Opens an item of the innermost list. -/
def openItem (n : Nat) (t : State) (c : Canvas) : Except Fault (State × Canvas) :=
  let c := c.newline
  match t.lists with
  | [] => .ok (t, c)
  | .unordered :: _ => t.mark n .unorderedItem none c
  | .ordered :: _ => do
    let (t, c) ← t.mark n .orderedItem none c
    return (← t.count, c)

/-- Closes an item of the innermost list; its number is the one before the next. -/
def closeItem (n : Nat) (t : State) (c : Canvas) : Except Fault (State × Canvas) :=
  let depth := t.lists.length
  match t.lists with
  | [] => .ok (t, c)
  | .unordered :: _ =>
    t.finish n .unorderedItem false (bulletStyles t.unit depth) c.newline
  | .ordered :: _ =>
    match t.counters with
    | [] => .error .noCounter
    | next :: _ =>
      t.finish n .orderedItem false (numberStyles t.unit depth ((next : Int) - 1)) c.newline

/-- Outside of a list the end of an item is nothing. -/
theorem closeItem_of_lists_eq_nil {n : Nat} {t : State} {c : Canvas} (h : t.lists = []) :
    t.closeItem n c = .ok (t, c) := by
  simp [closeItem, h]

/-- A list that opens and closes at once leaves nothing. -/
@[simp] theorem closeList_openList (kind : ListKind) (t : State) :
    (t.openList kind).closeList = t := by
  cases kind <;> rfl

end State

end Intercept

end StyledText
