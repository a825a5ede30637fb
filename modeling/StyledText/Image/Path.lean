import StyledText.Text.Search

/-!
# Paths

A path is a root, which is empty for a relative one, and the names of its components. Written paths
are brought to one form: runs of slashes are one slash, single dots and a slash at the end go, and
two slashes at the very start are a root of their own. Two dots stay, since what they lead to
depends on the folders.
-/

namespace StyledText

namespace Image

/-- A path to a folder or a file. -/
structure Path where
  /-- nothing, one slash or two -/
  root : Text
  /-- the names of the components; none of them is empty or a single dot -/
  parts : List Text
  deriving DecidableEq, Repr

namespace Path

/-- The name of the folder itself. -/
def here : Text := ['.']

/-- The name of the folder above. -/
def up : Text := ['.', '.']

/-- The pieces between the slashes. -/
def pieces : Text → List Text
  | [] => [[]]
  | c :: t =>
    if c = '/' then [] :: pieces t
    else match pieces t with
      | [] => [[c]]
      | p :: rest => (c :: p) :: rest

/-- The root of a written path. -/
def rootOf (t : Text) : Text :=
  match (t.takeWhile (· = '/')).length with
  | 0 => []
  | 2 => ['/', '/']
  | _ => ['/']

/-- Reads a path. -/
def read (t : Text) : Path := ⟨rootOf t, (pieces t).filter fun p => p ≠ [] ∧ p ≠ here⟩

/-- Writes a path; the empty relative one is a dot. -/
def toText (p : Path) : Text :=
  if p.root = [] ∧ p.parts = [] then here
  else p.root ++ (p.parts.intersperse ['/']).flatten

/-- The last component, or nothing. -/
def name (p : Path) : Text := p.parts.getLastD []

/-- The path of a file in a folder. -/
def child (p : Path) (name : Text) : Path := { p with parts := p.parts ++ [name] }

/-- The end of a name from its last dot, unless that dot is the first character or the last. -/
def suffix (name : Text) : Text :=
  let reversed := name.reverse
  match Text.cut? '.' reversed with
  | some (extension, stem) =>
    if extension = [] ∨ stem = [] then [] else '.' :: extension.reverse
  | none => []

/-- No piece of a written path holds a slash. -/
theorem slash_notMem_of_mem_pieces {t p : Text} (h : p ∈ pieces t) : '/' ∉ p := by
  induction t generalizing p with
  | nil => simp [pieces] at h; simp [h]
  | cons c t ih =>
    simp only [pieces] at h
    split at h
    · rcases List.mem_cons.mp h with rfl | h
      · simp
      · exact ih h
    · next hc =>
      split at h
      · simp at h; simp [h, Ne.symm hc]
      · next q rest hq =>
        rcases List.mem_cons.mp h with rfl | h
        · simpa [Ne.symm hc] using ih (p := q) (by simp [hq])
        · exact ih (by simp [hq, h])

/-- A written path, its name, and the suffixes of three names. -/
example : (read "./app//sub/".toList).toText = "app/sub".toList ∧
    (read "a/b.c".toList).name = "b.c".toList ∧ (read []).toText = here ∧
    suffix "a.txt.png".toList = ".png".toList ∧ suffix ".png".toList = [] ∧
    suffix "x.".toList = [] := by decide

end Path

end Image

end StyledText
