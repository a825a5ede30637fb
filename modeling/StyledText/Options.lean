import StyledText.Settings.Basic

/-!
# Options of one call

The options of a call come as loosely typed values, each under the name of its field. They are
checked together, and every field that is wrong is reported, in the order of the fields. Three of
them fall back to the settings where they are missing, and the settings are read only then; if they
cannot be read, nothing else is reported. Fields of other names are ignored.

Options do not change once they are made: every assignment is refused.
-/

namespace StyledText

namespace Options

/-- The value of a field as it is given. -/
inductive Value where
  | null
  | boolean (b : Bool)
  | integer (n : Int)
  | decimal (x : Binary64)
  | text (t : Text)
  /-- an object of the kind that the field asks for -/
  | component
  /-- a list or anything else that holds values -/
  | collection
  deriving DecidableEq, Repr

/-- The fields in their order. -/
inductive Field where
  | html
  | images
  | tableClick
  | tableLink
  | linkListener
  | indent
  | trim
  | debug
  deriving DecidableEq, Repr

namespace Field

/-- The fields in their order. -/
def all : List Field :=
  [html, images, tableClick, tableLink, linkListener, indent, trim, debug]

/-- The name of the field. -/
def name : Field → Text
  | html => "html".toList
  | images => "image_getter".toList
  | tableClick => "clickable_table_span".toList
  | tableLink => "draw_table_link_span".toList
  | linkListener => "on_click_a_tag_listener".toList
  | indent => "indent".toList
  | trim => "remove_trailing_whitespace".toList
  | debug => "debug".toList

end Field

/-- What can be wrong with the value of a field. -/
inductive Problem where
  | notText
  | notComponent
  | unreadableNumber
  | notNumber
  | negative
  | unreadableFlag
  | notFlag
  | frozen
  deriving DecidableEq, Repr

/-- The code of a problem. -/
def Problem.code : Problem → String
  | notText => "string_type"
  | notComponent => "is_instance_of"
  | unreadableNumber => "float_parsing"
  | notNumber => "float_type"
  | negative => "greater_than_equal"
  | unreadableFlag => "bool_parsing"
  | notFlag => "bool_type"
  | frozen => "frozen_instance"

/-! ## Checking a value -/

/-- Checks a text or nothing. -/
def checkText : Value → Except Problem (Option Text)
  | .null => .ok none
  | .text t => .ok (some t)
  | _ => .error .notText

/-- Checks a component or nothing. -/
def checkComponent : Value → Except Problem Unit
  | .null => .ok ()
  | .component => .ok ()
  | _ => .error .notComponent

/-- The number of a value. -/
def number : Value → Except Problem Binary64
  | .boolean b => .ok (.ofInt (if b then 1 else 0))
  | .integer n => (Binary64.nearest n).mapError fun _ => .notNumber
  | .decimal x => .ok x
  | .text t => (Numeral.readLatin? t).elim (.error .unreadableNumber) .ok
  | _ => .error .notNumber

/-- Checks a number that is zero or above, or nothing. -/
def checkNumber : Value → Except Problem (Option Binary64)
  | .null => .ok none
  | v => do
    let x ← number v
    if x.isNonNegative then return some x else throw .negative

/-- The words for yes. -/
def yesWords : List Text :=
  ["true".toList, "t".toList, "yes".toList, "y".toList, "on".toList, "1".toList]

/-- The words for no. -/
def noWords : List Text :=
  ["false".toList, "f".toList, "no".toList, "n".toList, "off".toList, "0".toList]

/-- The flag that a number is, if it is zero or one. -/
def flagOfInt? (n : Int) : Option Bool :=
  if n = 0 then some false else if n = 1 then some true else none

/-- The flag that a word is, in any case. -/
def flagOfText? (t : Text) : Option Bool :=
  let t := t.lower
  if t ∈ yesWords then some true else if t ∈ noWords then some false else none

/-- The number that may be meant as a flag: an integer of 64 bits, or a whole decimal below them. -/
def whole? : Value → Option Int
  | .integer n => if -Nat.pow 2 63 ≤ n ∧ n < Nat.pow 2 63 then some n else none
  | .decimal x => x.toInt?.filter fun n => n.natAbs < Nat.pow 2 63
  | _ => none

/-- Checks a flag. -/
def checkFlag : Value → Except Problem Bool
  | .boolean b => .ok b
  | .text t => (flagOfText? t).elim (.error .unreadableFlag) .ok
  | v =>
    match whole? v with
    | some n => (flagOfInt? n).elim (.error .unreadableFlag) .ok
    | none => .error .notFlag

end Options

/-! ## Checking all of them -/

/-- The options of a call. -/
structure Options where
  /-- the markup, if there is any -/
  html : Option Text
  /-- the indentation of lists, if one is asked for -/
  indent : Option Binary64
  /-- whether newlines at the end are dropped -/
  trim : Bool
  /-- whether tags are noted as they are handled -/
  debug : Bool
  deriving DecidableEq, Repr

namespace Options

/-- Why there are no options. -/
inductive Error where
  | settings (p : Settings.Problem)
  | fields (problems : List (Field × Problem))
  deriving DecidableEq, Repr

/-- The values of fields by their names. -/
abbrev Values := List (Text × Value)

namespace Values

/-- The value of a field. -/
def get? (values : Values) (f : Field) : Option Value := values.lookup f.name

/-- Whether an option has to come from the settings. -/
def needSettings (values : Values) : Bool :=
  [Field.indent, .trim, .debug].any fun f => (values.get? f).isNone

/-- What is wrong with the value of a field; a missing one is not wrong. -/
def problem? (values : Values) (f : Field) : Option Problem :=
  (values.get? f).bind fun v =>
    let check : Except Problem Unit := match f with
      | .html => (checkText v).map fun _ => ()
      | .indent => (checkNumber v).map fun _ => ()
      | .trim => (checkFlag v).map fun _ => ()
      | .debug => (checkFlag v).map fun _ => ()
      | .images => checkComponent v
      | .tableClick => checkComponent v
      | .tableLink => checkComponent v
      | .linkListener => checkComponent v
    match check with
    | .error p => some p
    | .ok () => none

/-- Everything that is wrong. -/
def problems (values : Values) : List (Field × Problem) :=
  Field.all.filterMap fun f => (values.problem? f).map fun p => (f, p)

/-- The checked value of a field, or what stands for it where it is missing. -/
def checked {α : Type} (values : Values) (f : Field) (check : Value → Except Problem α)
    (default : α) : α :=
  match (values.get? f).map check with
  | some (.ok a) => a
  | _ => default

end Values

/-- Makes the options from values, with settings for what is missing. -/
def read (values : Values) (settings : Except Settings.Problem Settings) :
    Except Error Options := do
  let s ← if values.needSettings then settings.mapError .settings else .ok .standard
  match values.problems with
  | [] => return {
      html := values.checked .html checkText none
      indent := values.checked .indent checkNumber s.indent
      trim := values.checked .trim checkFlag s.trim
      debug := values.checked .debug checkFlag s.debug }
  | problems => throw (.fields problems)

end Options

end StyledText
