import StyledText.Image.Path

/-!
# Folders and files

A tree of folders and files, in which a node is told by its components from the root on. Relative
paths begin in one of the folders, the **base**, and all others at the root. A path is followed from
component to component; two dots lead back to the folder above, and every component before the last
must be a folder. Above the root there is the root itself.
-/

namespace StyledText

namespace Image

/-- What a name in a folder stands for. -/
inductive Node where
  | folder
  /-- a file that can be decoded as an image of this size -/
  | image (width height : Nat)
  /-- any other file -/
  | other
  deriving DecidableEq, Repr

namespace Node

/-- Whether the node is a file. -/
def isFile : Node → Bool
  | folder => false
  | _ => true

end Node

/-- A tree of folders and files. -/
structure Files where
  /-- the folder in which relative paths begin -/
  base : List Text
  /-- the nodes by their components; of two with the same components the first counts -/
  nodes : List (List Text × Node)
  deriving DecidableEq, Repr

namespace Files

/-- An empty folder in which relative paths begin. It has no name that a path could lead to it
by. -/
def empty : Files := ⟨[[]], [([[]], .folder)]⟩

/-- The folders on the way to a place and that of the place itself. -/
def foldersTo (place : List Text) : List (List Text × Node) :=
  (List.range place.length).map fun k => (place.take (k + 1), .folder)

/-- The files with one more folder, below the base, and its nodes. -/
def addFolder (files : Files) (path : Path) (nodes : List (Text × Node)) : Files :=
  let place := files.base ++ path.parts
  { files with
    nodes := nodes.reverse.map (fun (name, node) => (place ++ [name], node))
      ++ foldersTo place ++ files.nodes }

/-- The files of some folders, given by their paths and their nodes. -/
def ofFolders (folders : List (Path × List (Text × Node))) : Files :=
  folders.foldl (fun files (path, nodes) => files.addFolder path nodes) empty

/-- The node with these components; the root has none. -/
def node? (files : Files) (place : List Text) : Option Node :=
  if place = [] then some .folder else files.nodes.lookup place

/-- Where a way leads from a folder. -/
def walk? (files : Files) : List Text → List Text → Option (List Text)
  | place, [] => some place
  | place, name :: way =>
    if files.node? place ≠ some .folder then none
    else if name = Path.up then walk? files place.dropLast way
    else walk? files (place ++ [name]) way

/-- Where a path begins. -/
def origin (files : Files) (path : Path) : List Text := if path.root = [] then files.base else []

/-- What is at the end of a path. No name holds the character of code zero. -/
def find? (files : Files) (path : Path) : Option Node :=
  if path.parts.any (·.contains '\x00') then none
  else (files.walk? (files.origin path) path.parts).bind files.node?

/-- The file at the end of a path. -/
def file? (files : Files) (path : Path) : Option Node := (files.find? path).filter Node.isFile

end Files

end Image

end StyledText
