import StyledText.Error
import StyledText.Number.Numeral
import StyledText.Number.Shortest
import StyledText.Text.Lowercase

/-!
# Settings

The defaults of the formatter, taken from environment variables. Flags and folders can be set to
anything; a flag is set by one word. The indentation of lists must be a number that is not
negative.
-/

namespace StyledText

/-- The values of environment variables; of two for one variable the first counts. -/
abbrev Environment := List (Text × Text)

namespace Environment

/-- The environment with a variable set, or unset. -/
def update (env : Environment) (name : Text) (value : Option Text) : Environment :=
  match value with
  | some value => (name, value) :: env
  | none => env.filter (·.1 ≠ name)

/-- The value of a variable. -/
def get? (env : Environment) (name : Text) : Option Text := env.lookup name

/-- A variable that has been set has its value, and one that has been unset has none. -/
theorem get?_update_self (env : Environment) (name : Text) (value : Option Text) :
    (env.update name value).get? name = value := by
  cases value with
  | some value => simp [update, get?]
  | none =>
    simp only [update, get?, List.lookup_eq_none_iff, List.mem_filter]
    intro p hp
    exact bne_iff_ne.mpr (Ne.symm (of_decide_eq_true hp.2))

end Environment

/-- The defaults of the formatter. -/
structure Settings where
  /-- whether tags are noted as they are handled -/
  debug : Bool
  /-- the indentation of lists, if one is set -/
  indent : Option Binary64
  /-- whether newlines at the end of a text are dropped -/
  trim : Bool
  /-- the folder of images -/
  imageFolder : Text
  /-- the folder of images that are looked up there in vain -/
  stockFolder : Option Text
  deriving DecidableEq, Repr

namespace Settings

/-! ## Variables -/

/-- The variable that asks for notes. -/
def debugVariable : Text := "HTMLTEXT_DEBUG".toList

/-- The variable of the indentation. -/
def indentVariable : Text := "HTMLTEXT_LIST_INDENT".toList

/-- The variable that asks for trimming. -/
def trimVariable : Text := "HTMLTEXT_REMOVE_TRAILING_WHITESPACE".toList

/-- The variable of the folder of images. -/
def imageFolderVariable : Text := "HTMLTEXT_IMAGE_DIR".toList

/-- The variable of the second folder of images. -/
def stockFolderVariable : Text := "HTMLTEXT_STOCK_IMAGE_DIR".toList

/-! ## Reading -/

/-- Why an indentation cannot be used. -/
inductive Problem where
  | notNumber (value : Text)
  | negative (value : Binary64)
  deriving DecidableEq, Repr

/-- The error that a problem is reported as. -/
def Problem.toError : Problem → Error
  | notNumber value => .setting indentVariable value "expected a number".toList
  | negative value => .setting indentVariable value.toText "must not be negative".toList

/-- The flag that a value sets. -/
def flag (value : Text) : Bool := value.lower = "true".toList

/-- The indentation that a value sets; a blank one sets none. -/
def readIndent (value : Text) : Except Problem (Option Binary64) :=
  if Text.strip value = [] then .ok none
  else match Numeral.read? value with
    | none => .error (.notNumber value)
    | some x => if x.isNegative then .error (.negative x) else .ok (some x)

/-- The folder of images where none is set. -/
def standardImageFolder : Text := "res/drawable".toList

/-- The settings where no variable is set. -/
def standard : Settings := ⟨false, none, true, standardImageFolder, none⟩

/-- Reads the settings. -/
def read (env : Environment) : Except Problem Settings :=
  let indent := (env.get? indentVariable).elim (.ok none) readIndent
  indent.map fun indent =>
    { debug := (env.get? debugVariable).elim false flag
      indent := indent
      trim := (env.get? trimVariable).elim true flag
      imageFolder := (env.get? imageFolderVariable).getD standardImageFolder
      stockFolder := (env.get? stockFolderVariable).filter (· ≠ []) }

/-- An empty environment leaves the standard settings. -/
theorem read_nil : read [] = .ok standard := rfl

/-- The folders of images in the order in which they are searched. -/
def imageFolders (s : Settings) : List Text :=
  s.imageFolder :: (s.stockFolder.filter (· ≠ s.imageFolder)).toList

end Settings

end StyledText
