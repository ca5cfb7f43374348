import RenderTree.Disk.RealPath
import RenderTree.Text.LowerCase

/-!
# Finding the files of components

A component is usually referred to without its extension, and by its directory where it has one of
its own. So a path stands for an ordered list of files, of which the first that exists counts.

A specifier is looked up from the directory of the file that imports it and then from the module
directory, if there is one. The root component is looked up from the working directory only.

* `scriptExtensions` — the extensions of components, in the order they are tried.
* `Path.candidates` — the files that a path stands for.
* `Path.componentName` — the name of a component, from the path of its file.
* `searchPath` — the candidates for a specifier, in the order they are tried.
* `Disk.chosen?` — the candidate that counts, among those files that may be read.
* `Disk.resolve` — the path of the file that a specifier stands for.
-/

namespace RenderTree

/-! ### Candidates -/

open RenderTree.Text

/-- The extensions of component files, in the order they are tried. -/
def scriptExtensions : List Text := [".js", ".jsx"]

/-- The name, without extension, of the file that stands for its directory. -/
def indexName : Text := "index"

namespace Path

/-- The text of `p` or, if it ends in an extension of component files, the text before it. -/
def stem (p : Path) : Text :=
  let (root, ext) := splitExtension p.text
  if scriptExtensions.contains (lower ext) then root else p.text

/-- The texts of the candidates, in order and possibly repeated: the path as it is written if it
has an extension, the stem with each extension, and the index file below the stem. -/
def candidateTexts (p : Path) : List Text :=
  let written := if (extension p.text).isEmpty then [] else [p.text]
  let directory := if p.stem.getLast? = some (Symbol.char '/') then p.stem else p.stem ++ "/"
  written ++ scriptExtensions.map (p.stem ++ ·)
    ++ scriptExtensions.map (directory ++ indexName ++ ·)

/-- The files that a path stands for, in the order they are tried. -/
def candidates (p : Path) : List Path :=
  p.candidateTexts.eraseDups.map ofText

/-- The name of a component: the last segment of its path without an extension of component files in
any letter case. -/
def componentName (p : Path) : Text :=
  match scriptExtensions.find? (fun e => e.isSuffixOf (lower p.name)) with
  | some e => p.name.take (p.name.length - e.length)
  | none => p.name

end Path

/-! ### Specifiers -/

/-- The candidates for a specifier, in the order they are tried. -/
def searchPath (specifier : Text) (importer moduleDir : Option Path) : List Path :=
  match importer with
  | none => (Path.ofText specifier).candidates
  | some file =>
    let near := (file.parent.join specifier).candidates
    match moduleDir with
    | none => near
    | some dir => near ++ (dir.join specifier).candidates.filter (fun p => p ∉ near)

namespace Disk

/-- Whether a path is that of a regular file that may be read. -/
def isReadableFile (d : Disk) (readable : Path → Bool) (cwd : Location) (p : Path) : Bool :=
  (d.file? cwd p.text).isSome && readable p

/-- The first candidate that is a regular file and may be read. An empty specifier has no candidates
that count. -/
def chosen? (d : Disk) (readable : Path → Bool) (cwd : Location) (specifier : Text)
    (importer moduleDir : Option Path) : Option Path :=
  if specifier = [] then none
  else (searchPath specifier importer moduleDir).find? (d.isReadableFile readable cwd)

/-- The real path of the first candidate that is a regular file and may be read. -/
def resolve (d : Disk) (readable : Path → Bool) (cwd : Location) (specifier : Text)
    (importer moduleDir : Option Path) : Option Path :=
  (d.chosen? readable cwd specifier importer moduleDir).map fun p => d.realOf cwd p.text

variable {d : Disk} {readable : Path → Bool} {cwd : Location} {specifier : Text}
  {importer : Option Path} {p : Path}

/-- The root component is not looked for in a module directory. -/
theorem resolve_root_moduleDir (d : Disk) (readable : Path → Bool) (cwd : Location)
    (specifier : Text) (dir dir' : Option Path) :
    d.resolve readable cwd specifier none dir = d.resolve readable cwd specifier none dir' :=
  rfl

/-- The candidate that counts without a module directory counts with one, too: the candidates in that
come behind all others. -/
theorem chosen?_moduleDir (h : d.chosen? readable cwd specifier importer none = some p)
    (dir : Option Path) : d.chosen? readable cwd specifier importer dir = some p := by
  rw [chosen?] at h ⊢
  split at h
  · cases h
  next hne =>
    rw [if_neg hne]
    cases importer with
    | none => exact h
    | some file =>
      cases dir with
      | none => exact h
      | some dir =>
        simp only [searchPath] at h ⊢
        rw [List.find?_append, h, Option.some_or]

/-- What resolves without a module directory resolves to the same with one. -/
theorem resolve_moduleDir (h : d.resolve readable cwd specifier importer none = some p)
    (dir : Option Path) : d.resolve readable cwd specifier importer dir = some p := by
  rw [resolve, Option.map_eq_some_iff] at h
  obtain ⟨q, hq, rfl⟩ := h
  rw [resolve, chosen?_moduleDir hq dir]
  rfl

end Disk

end RenderTree
