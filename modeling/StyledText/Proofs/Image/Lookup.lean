import Mathlib.Data.List.Basic
import StyledText.Flow.Basic

/-!
# Where images are found

A source is looked up under a few names in one folder after another. What keeps a lookup inside
these folders is that every name it tries is that of a node right in a folder (`Path.IsFileName`):
it is one component, and none that stays in place or leads back. So what is opened stands in one of
the folders themselves (`Files.Holds`), and it is the first of all candidates that is a file.

* `Resources.isFileName_of_mem_candidates` — the names that are tried;
* `Files.file?_child_eq_some_iff` — a file under such a name;
* `Resources.find?_eq_some_iff`, `Resources.find?_eq_none_iff` — what is found, and when nothing is;
* `Resources.first_file_is_opened` — lookups as a whole, with what they report.
-/

namespace StyledText

namespace Image

/-! ## Names in a folder -/

namespace Path

/-- Whether a name is that of a node in a folder, and no way to another place. -/
structure IsFileName (name : Text) : Prop where
  ne_nil : name ≠ []
  slash_notMem : '/' ∉ name
  ne_here : name ≠ here
  ne_up : name ≠ up

/-- A component of a written path is one name: there is no slash in it, and it is not empty. -/
theorem of_mem_parts_read {t p : Text} (h : p ∈ (read t).parts) :
    p ≠ [] ∧ '/' ∉ p ∧ p ≠ here := by
  obtain ⟨hpiece, hp⟩ := List.mem_filter.mp h
  obtain ⟨hnil, hhere⟩ := of_decide_eq_true hp
  exact ⟨hnil, slash_notMem_of_mem_pieces hpiece, hhere⟩

/-- The last component, if there is one, is among the components. -/
theorem name_mem_parts {p : Path} (h : p.name ≠ []) : p.name ∈ p.parts := by
  rw [name, List.getLastD_eq_getLast?] at h ⊢
  cases hlast : p.parts.getLast? with
  | none =>
    rw [hlast] at h
    exact absurd rfl h
  | some x => exact List.mem_of_getLast? hlast

end Path

/-! ## Nodes in a folder -/

namespace Files

variable {files : Files} {folder : Path} {name : Text} {node : Node} {place : List Text}

/-- Whether a node stands in a folder under a name: the way to the folder ends in a place that is
one, and one step down from there is the node. -/
def Holds (files : Files) (folder : Path) (name : Text) (node : Node) : Prop :=
  ∃ place, files.walk? (files.origin folder) folder.parts = some place ∧
    files.node? place = some .folder ∧ files.node? (place ++ [name]) = some node

/-- A way in two parts is walked one part after the other, and fails if one of them does. -/
theorem walk?_append (place way way' : List Text) :
    files.walk? place (way ++ way') = (files.walk? place way).bind (files.walk? · way') := by
  induction way generalizing place with
  | nil => rfl
  | cons name way ih =>
    simp only [List.cons_append, walk?]
    split
    · rfl
    · split
      · exact ih _
      · exact ih _

/-- One step from a folder leads down, unless it is the one back; from anything but a folder no step
leads anywhere. -/
theorem walk?_singleton_eq_some_iff {place' : List Text} (hname : name ≠ Path.up) :
    files.walk? place [name] = some place' ↔
      files.node? place = some .folder ∧ place' = place ++ [name] := by
  simp only [walk?, if_neg hname]
  split
  next h => simp [h]
  next h => simpa [not_not.mp h] using eq_comm

/-- **A file in a folder.** No path to a file of this kind leads out of the folder. -/
theorem file?_child_eq_some_iff (hname : Path.IsFileName name) :
    files.file? (folder.child name) = some node ↔
      files.Holds folder name node ∧ node.isFile = true ∧
        ∀ part ∈ (folder.child name).parts, '\x00' ∉ part := by
  have hparts : (folder.child name).parts = folder.parts ++ [name] := rfl
  have horigin : files.origin (folder.child name) = files.origin folder := rfl
  rw [file?, Option.filter_eq_some_iff, find?, hparts, horigin]
  -- a component with a null character is no way to anything
  by_cases hzero : (folder.parts ++ [name]).any (·.contains '\x00') = true
  · have hnone : ¬ ∀ part ∈ folder.parts ++ [name], '\x00' ∉ part := by
      obtain ⟨part, hpart, hmem⟩ := List.any_eq_true.mp hzero
      exact fun h => h part hpart (List.contains_iff_mem.mp hmem)
    rw [if_pos hzero]
    exact iff_of_false (by simp) fun h => hnone h.2.2
  · have hall : ∀ part ∈ folder.parts ++ [name], '\x00' ∉ part := by
      intro part hpart hmem
      exact hzero (List.any_eq_true.mpr ⟨part, hpart, List.contains_iff_mem.mpr hmem⟩)
    rw [if_neg hzero, walk?_append, Option.bind_assoc, Option.bind_eq_some_iff]
    constructor
    · rintro ⟨⟨place, hplace, hnode⟩, hfile⟩
      obtain ⟨place', hstep, hnode⟩ := Option.bind_eq_some_iff.mp hnode
      obtain ⟨hfolder, rfl⟩ := (walk?_singleton_eq_some_iff hname.ne_up).mp hstep
      exact ⟨⟨place, hplace, hfolder, hnode⟩, hfile, hall⟩
    · rintro ⟨⟨place, hplace, hfolder, hnode⟩, hfile, -⟩
      refine ⟨⟨place, hplace, ?_⟩, hfile⟩
      exact Option.bind_eq_some_iff.mpr
        ⟨_, (walk?_singleton_eq_some_iff hname.ne_up).mpr ⟨hfolder, rfl⟩, hnode⟩

end Files

/-! ## Candidates -/

namespace Resources

variable {r : Resources} {source name : Text} {path : Path} {node : Node}

/-- A source is the name of a file if it is not empty and is its own last component. -/
theorem isName_iff : isName source = true ↔ source ≠ [] ∧ (Path.read source).name = source := by
  simp [isName]

/-- A source that is its own last component is one component, and so has no slash in it. -/
theorem of_isName (h : isName source = true) :
    source ≠ [] ∧ '/' ∉ source ∧ source ≠ Path.here := by
  obtain ⟨hnil, hname⟩ := isName_iff.mp h
  have hmem := Path.name_mem_parts (p := Path.read source) (by rw [hname]; exact hnil)
  rw [hname] at hmem
  exact Path.of_mem_parts_read hmem

/-- What two dots are followed by is no extension. -/
theorem suffix_up_notMem_extensions : (Path.suffix Path.up).lower ∉ extensions := by decide

/-- An extension is longer than the names that are no names of files, so no candidate with an
extension is one of those. -/
theorem of_mem_extensions {extension : Text} (h : extension ∈ extensions) :
    3 < extension.length ∧ '/' ∉ extension := by
  simp only [extensions, List.mem_cons, List.not_mem_nil, or_false] at h
  rcases h with rfl | rfl | rfl | rfl | rfl | rfl <;> decide

/-- **The names that are tried** are those of files in a folder. -/
theorem isFileName_of_mem_candidates (h : isName source = true) (hname : name ∈ candidates source) :
    Path.IsFileName name := by
  obtain ⟨hnil, hslash, hhere⟩ := of_isName h
  rw [candidates] at hname
  split at hname
  next hsuffix =>
    obtain rfl := List.mem_singleton.mp hname
    refine ⟨hnil, hslash, hhere, ?_⟩
    rintro rfl
    exact suffix_up_notMem_extensions hsuffix
  next =>
    obtain ⟨extension, hextension, rfl⟩ := List.mem_map.mp hname
    obtain ⟨hlength, hbracket⟩ := of_mem_extensions hextension
    have hlong : 3 < (source ++ extension).length := by
      rw [List.length_append]
      exact Nat.lt_add_left _ hlength
    refine ⟨?_, by simp [hslash, hbracket], ?_, ?_⟩ <;> intro heq <;> rw [heq] at hlong
    · exact absurd hlong (by decide)
    · exact absurd hlong (by decide)
    · exact absurd hlong (by decide)

/-! ## The search -/

/-- The file of a source in one folder: the first of the candidates there that is a file. -/
def findIn? (r : Resources) (source : Text) (folder : Path) : Option (Path × Node) :=
  (candidates source).findSome? fun name =>
    (r.files.file? (folder.child name)).map fun node => (folder.child name, node)

/-- A search goes folder by folder, through all candidates in each. -/
theorem find?_of_isName (h : isName source = true) :
    r.find? source = r.folders.findSome? (r.findIn? source) := by
  rw [find?, paths, if_pos h]
  induction r.folders with
  | nil => rfl
  | cons folder folders ih =>
    rw [List.flatMap_cons, List.findSome?_append, ih, List.findSome?_map, List.findSome?_cons]
    change (r.findIn? source folder).or _ = _
    cases r.findIn? source folder <;> rfl

/-- A source that is no name of a file is not looked for at all. -/
theorem find?_of_not_isName (h : isName source = false) : r.find? source = none := by
  rw [find?, paths, h]
  rfl

theorem findIn?_eq_none_iff {folder : Path} :
    r.findIn? source folder = none ↔
      ∀ name ∈ candidates source, r.files.file? (folder.child name) = none := by
  rw [findIn?, List.findSome?_eq_none_iff]
  simp only [Option.map_eq_none_iff]

/-- What is found in one folder is the first candidate there that is a file. -/
theorem findIn?_eq_some_iff {folder : Path} :
    r.findIn? source folder = some (path, node) ↔
      ∃ names name others, candidates source = names ++ name :: others ∧ path = folder.child name ∧
        r.files.file? path = some node ∧
        ∀ name' ∈ names, r.files.file? (folder.child name') = none := by
  simp only [findIn?, List.findSome?_eq_some_iff, Option.map_eq_some_iff, Option.map_eq_none_iff,
    Prod.mk.injEq]
  constructor
  · rintro ⟨names, name, others, hsplit, ⟨node, hnode, rfl, rfl⟩, hnames⟩
    exact ⟨names, name, others, hsplit, rfl, hnode, hnames⟩
  · rintro ⟨names, name, others, hsplit, rfl, hnode, hnames⟩
    exact ⟨names, name, others, hsplit, ⟨node, hnode, rfl, rfl⟩, hnames⟩

/-- **What is found** is the first candidate that is a file: no folder before has one, and neither
does the folder have one under a name before. -/
theorem find?_eq_some_iff :
    r.find? source = some (path, node) ↔ isName source = true ∧
      ∃ before folder after, r.folders = before ++ folder :: after ∧
        (∀ folder' ∈ before, ∀ name ∈ candidates source,
          r.files.file? (folder'.child name) = none) ∧
        ∃ names name others, candidates source = names ++ name :: others ∧
          path = folder.child name ∧ r.files.file? path = some node ∧
          ∀ name' ∈ names, r.files.file? (folder.child name') = none := by
  cases h : isName source with
  | false => simp [find?_of_not_isName h]
  | true =>
    simp only [find?_of_isName h, List.findSome?_eq_some_iff, findIn?_eq_some_iff,
      findIn?_eq_none_iff, true_and]
    constructor
    · rintro ⟨before, folder, after, hsplit, hfound, hbefore⟩
      exact ⟨before, folder, after, hsplit, hbefore, hfound⟩
    · rintro ⟨before, folder, after, hsplit, hbefore, hfound⟩
      exact ⟨before, folder, after, hsplit, hfound, hbefore⟩

/-- **When nothing is found.** The source is empty or no single component, or no candidate is a file
in any of the folders. -/
theorem find?_eq_none_iff :
    r.find? source = none ↔ source = [] ∨ (Path.read source).name ≠ source ∨
      ∀ folder ∈ r.folders, ∀ name ∈ candidates source,
        r.files.file? (folder.child name) = none := by
  cases h : isName source with
  | false =>
    have hnot : source = [] ∨ (Path.read source).name ≠ source := by
      by_contra hall
      obtain ⟨hnil, hname⟩ := not_or.mp hall
      rw [isName_iff.mpr ⟨hnil, not_not.mp hname⟩] at h
      cases h
    exact iff_of_true (find?_of_not_isName h) (or_assoc.mp (.inl hnot))
  | true =>
    obtain ⟨hnil, hname⟩ := isName_iff.mp h
    simp only [find?_of_isName h, List.findSome?_eq_none_iff, findIn?_eq_none_iff, hnil, hname,
      ne_eq, not_true_eq_false, false_or]

end Resources

/-! ## Answers -/

namespace Lookup

variable {lookup : Lookup} {source : Text}

/-- What a lookup answers, and the failures that it reports. -/
def answer (lookup : Lookup) (source : Text) : Option Drawable × List Failure :=
  match lookup source with
  | .ok image => (some image, [])
  | .error failure => (none, [failure])

/-- A document gets the answer, and its failures are kept with those before. -/
theorem drawable_eq_answer (h : source ≠ []) (f : Flow.State) :
    f.drawable (some lookup) (some source) =
      ((lookup.answer source).1, { f with failures := f.failures ++ (lookup.answer source).2 }) := by
  obtain ⟨c, t, rfl⟩ := List.exists_cons_of_ne_nil h
  simp only [Flow.State.drawable, answer]
  cases lookup (c :: t) with
  | ok image => simp
  | error failure => rfl

end Lookup

namespace Resources

variable {r : Resources} {source : Text} {path : Path} {node : Node}

theorem exists_of_lookup_eq_ok {image : Drawable} (h : r.lookup source = .ok image) :
    ∃ path width height, r.find? source = some (path, .image width height) ∧
      image = ⟨source, ⟨0, 0, width, height⟩⟩ := by
  rw [lookup] at h
  split at h
  next => cases h
  next path width height hfind =>
    cases h
    exact ⟨path, width, height, hfind, rfl⟩
  next => cases h

/-- **Looking up an image.** What is opened is a file right in one of the folders, the first among
all candidates, folder by folder and in each in the order of their extensions. Nothing is opened
exactly if the source is empty or not its own last component, or no candidate is a file. There is
one report if there is no image, and none if there is one; an image is that of the file that was
opened. -/
theorem first_file_is_opened (r : Resources) (source : Text) :
    (∀ path node, r.find? source = some (path, node) →
      source ≠ [] ∧ (Path.read source).name = source ∧
      ∃ before folder after names name others,
        r.folders = before ++ folder :: after ∧ candidates source = names ++ name :: others ∧
        path = folder.child name ∧ Path.IsFileName name ∧
        r.files.Holds folder name node ∧ node.isFile = true ∧
        (∀ folder' ∈ before, ∀ name' ∈ candidates source,
          r.files.file? (folder'.child name') = none) ∧
        ∀ name' ∈ names, r.files.file? (folder.child name') = none) ∧
    (r.find? source = none ↔ source = [] ∨ (Path.read source).name ≠ source ∨
      ∀ folder ∈ r.folders, ∀ name ∈ candidates source,
        r.files.file? (folder.child name) = none) ∧
    (∀ image, (r.lookup.answer source).1 = some image →
      (r.lookup.answer source).2 = [] ∧
      ∃ path width height, r.find? source = some (path, .image width height) ∧
        image = ⟨source, ⟨0, 0, width, height⟩⟩) ∧
    ((r.lookup.answer source).1 = none →
      ∃ failure, (r.lookup.answer source).2 = [failure]) ∧
    ∀ f : Flow.State, source ≠ [] → f.drawable (some r.lookup) (some source) =
      ((r.lookup.answer source).1,
        { f with failures := f.failures ++ (r.lookup.answer source).2 }) := by
  refine ⟨?_, find?_eq_none_iff, ?_, ?_, fun f h => Lookup.drawable_eq_answer h f⟩
  · intro path node h
    obtain ⟨hname, before, folder, after, hfolders, hbefore, names, name, others, hnames, rfl, hfile,
      hfirst⟩ := find?_eq_some_iff.mp h
    obtain ⟨hnil, hself⟩ := isName_iff.mp hname
    -- the name is one of those that are tried, so it leads to no other place
    have hin : name ∈ candidates source := by simp [hnames]
    have hplain := isFileName_of_mem_candidates hname hin
    obtain ⟨hholds, hisFile, -⟩ := (Files.file?_child_eq_some_iff hplain).mp hfile
    exact ⟨hnil, hself, before, folder, after, names, name, others, hfolders, hnames, rfl, hplain,
      hholds, hisFile, hbefore, hfirst⟩
  · intro image h
    rw [Lookup.answer] at h ⊢
    cases hlookup : r.lookup source with
    | error failure =>
      rw [hlookup] at h
      cases h
    | ok image' =>
      rw [hlookup] at h
      cases h
      exact ⟨rfl, exists_of_lookup_eq_ok hlookup⟩
  · intro h
    rw [Lookup.answer] at h ⊢
    cases hlookup : r.lookup source with
    | error failure => exact ⟨failure, rfl⟩
    | ok image =>
      rw [hlookup] at h
      cases h

/-- Two folders, one below the base and one below the root; both have an image of the name, the
second with an extension that is tried before. -/
def twoFolders : Resources where
  folders := [.read "app/.".toList, .read "/stock".toList]
  files := {
    base := ["home".toList]
    nodes := [
      (["home".toList], .folder), (["home".toList, "app".toList], .folder),
      (["home".toList, "app".toList, "logo.png".toList], .folder),
      (["home".toList, "app".toList, "logo.gif".toList], .image 4 3),
      (["stock".toList], .folder), (["stock".toList, "logo.png".toList], .image 2 5)] }

theorem first_file_is_opened_twoFolders :
    (∃ folder name, twoFolders.find? "logo".toList = some (folder.child name, .image 4 3) ∧
      Path.IsFileName name ∧ twoFolders.files.Holds folder name (.image 4 3)) ∧
    twoFolders.find? "../home/app/logo".toList = none ∧
    (twoFolders.lookup.answer "logo".toList).2 = [] := by
  obtain ⟨hopened, -, himage, -, -⟩ := first_file_is_opened twoFolders "logo".toList
  obtain ⟨-, hnone, -⟩ := first_file_is_opened twoFolders "../home/app/logo".toList
  have hfind : twoFolders.find? "logo".toList =
      some ((Path.read "app".toList).child "logo.gif".toList, .image 4 3) := by decide +kernel
  obtain ⟨-, -, -, folder, -, -, name, -, -, -, hpath, hname, hholds, -⟩ := hopened _ _ hfind
  refine ⟨⟨folder, name, ?_, hname, hholds⟩, hnone.mpr (.inr (.inl (by decide))), ?_⟩
  · rw [hfind, hpath]
  · exact (himage ⟨"logo".toList, ⟨0, 0, 4, 3⟩⟩ (by decide +kernel)).1

end Resources

end Image

end StyledText
