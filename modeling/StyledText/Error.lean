import StyledText.Markup.Fault

/-!
# Errors

What goes wrong around the formatter: in the settings, in reading markup, in decoding an image. Tags
that do not match are never errors.
-/

namespace StyledText

/-- An error with all that its report names. -/
inductive Error where
  | general (message : Text)
  /-- a setting that cannot be used -/
  | setting (name value reason : Text)
  /-- markup that cannot be read, and the line and the column where -/
  | markup (message : Text) (position : Option (Int × Int))
  /-- an image that exists and cannot be decoded -/
  | image (source reason : Text)
  deriving DecidableEq, Repr

namespace Error

/-- The beginning of every report on an image. -/
def imagePreamble (source : Text) : Text := "Cannot load image '".toList ++ source ++ "'".toList

/-- Where the markup was found wrong. -/
def positionText (position : Int × Int) : Text :=
  " (line ".toList ++ Text.ofInt position.1 ++ ", column ".toList ++ Text.ofInt position.2 ++ [')']

/-- The report. -/
def message : Error → Text
  | general message => message
  | setting name value reason =>
    "Invalid value ".toList ++ value.quoted ++ " for ".toList ++ name ++ ": ".toList ++ reason
  | markup message position => message ++ position.elim [] positionText
  | image source reason => imagePreamble source ++ ": ".toList ++ reason

end Error

namespace Markup

/-- The error that a fault is reported as. -/
def Fault.toError (f : Fault) : Error :=
  .markup ("Cannot parse markup: ".toList ++ f.cause.message)
    (some (f.position.line, f.position.column))

end Markup

end StyledText
