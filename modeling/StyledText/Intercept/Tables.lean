import StyledText.Intercept.Basic

/-!
# Tables

A table is not laid out. The outermost one is shown as a placeholder, and its markup is collected
from the tags and the texts inside it, without attributes. Where it ends, the markup goes to a label
and to what reacts to a click, both over the placeholder. A table inside another is part of the
markup.
-/

namespace StyledText

namespace Intercept

/-- The text that is shown for a table. -/
def placeholder : Text := "table placeholder".toList

namespace State

/-- Opens a table; the outermost one begins its markup anew. -/
def openTable (n : Nat) (t : State) (c : Canvas) : Except Fault (State × Canvas) := do
  let (t, c) ← t.mark n .table none c
  if t.depth = 0 then return ({ t with html := [], depth := 1 }, c.append placeholder)
  else return ({ t with depth := t.depth + 1 }, c)

/-- The styles of a table with the markup that has been collected. -/
def tableStyles (t : State) : List Style :=
  (t.setup.tableLink.map fun link => Style.tableLink (link.attachedTo t.html)).toList
    ++ if t.setup.clickable then [.tableClick (t.clicks + 1) (some t.html)] else []

/-- The state after the styles of a table have been made. -/
def countClick (t : State) : State :=
  if t.setup.clickable then { t with clicks := t.clicks + 1 } else t

/-- Closes a table. The markup of the outermost one is complete before its styles are made. -/
def closeTable (n : Nat) (t : State) (c : Canvas) : Except Fault (State × Canvas) :=
  match t.depth with
  | 0 => .ok (t, c)
  | 1 =>
    let t := { t with depth := 0 }.write Tag.table.endText
    t.countClick.finish n .table false t.tableStyles c
  | depth + 2 => { t with depth := depth + 1 }.finish n .table false [] c

end State

end Intercept

end StyledText
