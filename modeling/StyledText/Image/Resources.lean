import StyledText.Error
import StyledText.Image.Files
import StyledText.Style
import StyledText.Text.Lowercase

/-!
# Looking up images

Images are asked for by name, and a name is looked up in folders: the first folder that has a file
of that name counts. A name without a known extension stands for the name with each of them, in
their order. A name that leads into another folder is not looked up at all.

A lookup fails where there is no such file, and where the file is no image; `Failure` says which.
-/

namespace StyledText

namespace Image

/-- Why there is no image of a name. -/
inductive Failure where
  | notFound (source : Text)
  | undecodable (source : Text)
  deriving DecidableEq, Repr

/-- The line that reports a failure, without what the decoder had to say. -/
def Failure.message : Failure → Text
  | notFound source => "source could not be found: ".toList ++ source
  | undecodable source => Error.imagePreamble source

/-- Something that finds images by the source that a document names. -/
abbrev Lookup := Text → Except Failure Drawable

/-- The extensions of image files, in the order in which they are tried. -/
def extensions : List Text := [
  ".png".toList, ".jpg".toList, ".jpeg".toList, ".gif".toList, ".webp".toList, ".bmp".toList]

/-- Folders of images. -/
structure Resources where
  /-- the folders in the order in which they are searched -/
  folders : List Path
  files : Files
  deriving DecidableEq, Repr

namespace Resources

/-- The names of the files that an image may have. -/
def candidates (name : Text) : List Text :=
  if (Path.suffix name).lower ∈ extensions then [name] else extensions.map (name ++ ·)

/-- Whether a source is the name of an image and no way to it. -/
def isName (source : Text) : Bool := source ≠ [] && (Path.read source).name == source

/-- The paths that are tried for a source: folder by folder, and in each all candidates. -/
def paths (r : Resources) (source : Text) : List Path :=
  if isName source then r.folders.flatMap fun folder => (candidates source).map folder.child
  else []

/-- The file of a source, with its path. -/
def find? (r : Resources) (source : Text) : Option (Path × Node) :=
  (r.paths source).findSome? fun path => (r.files.file? path).map fun node => (path, node)

/-- The image of a source. -/
def lookup (r : Resources) : Lookup := fun source =>
  match r.find? source with
  | none => .error (.notFound source)
  | some (_, .image width height) => .ok ⟨source, ⟨0, 0, width, height⟩⟩
  | some _ => .error (.undecodable source)

end Resources

end Image

end StyledText
