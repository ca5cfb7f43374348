import RenderTree.Path.Basic

/-!
# File trees

A finite tree of files, directories and symbolic links. Every entry has a location: the names that
lead to it from the root, none of them a dot or two dots.

* `Location` — where an entry is; its names are proper by construction.
* `Entry`, `Disk` — what is at a location, and all entries of a tree.
* `Disk.entry?`, `Disk.set`, `Disk.erase` — look an entry up, put it in place, take it out.
* `Disk.files` — the locations of regular files.
-/

namespace RenderTree

/-- Whether a text can be the name of an entry: a proper segment of a path, and not two dots. -/
def IsName (s : Text) : Prop :=
  IsSegment s ∧ s ≠ ".."

instance (s : Text) : Decidable (IsName s) :=
  inferInstanceAs (Decidable (_ ∧ _))

/-- A name is a segment of a path. -/
theorem IsName.isSegment {s : Text} (h : IsName s) : IsSegment s := h.1

/-- The names that lead from the root to an entry. -/
structure Location where
  names : List Text
  proper : ∀ s ∈ names, IsName s
deriving DecidableEq

namespace Location

/-- The location of the root. -/
def root : Location := ⟨[], by simp⟩

instance : Inhabited Location := ⟨root⟩

/-- The location of the directory that holds the entry; the root's is the root. -/
def parent (l : Location) : Location :=
  ⟨l.names.dropLast, fun s hs => l.proper s ((List.dropLast_sublist _).subset hs)⟩

/-- The location of the entry with a name in a directory. -/
def child (l : Location) (s : Text) (h : IsName s) : Location :=
  ⟨l.names ++ [s], by
    intro t ht
    rcases List.mem_append.1 ht with ht | ht
    · exact l.proper t ht
    · rw [List.mem_singleton.1 ht]; exact h⟩

/-- The absolute path of a location. -/
def toPath (l : Location) : Path :=
  ⟨.root, l.names, fun s hs => (l.proper s hs).1⟩

/-- The text of a location's path. -/
def text (l : Location) : Text :=
  l.toPath.text

/-- Whether a location is below another, or the same. -/
def isWithin (l top : Location) : Bool :=
  top.names.isPrefixOf l.names

end Location

/-- What is at a location. -/
inductive Entry where
  | file (bytes : List UInt8)
  | directory
  | link (target : Text)
deriving DecidableEq, Repr, Inhabited

/-- Whether an entry is a regular file. -/
def Entry.isFile : Entry → Bool
  | file _ => true
  | _ => false

/-- A finite tree of entries. The root is a directory, whatever is listed. -/
structure Disk where
  entries : List (Location × Entry)
deriving Inhabited

namespace Disk

/-- The disk that has only its root. -/
def empty : Disk := ⟨[]⟩

/-- What is at a location. -/
def entry? (d : Disk) (l : Location) : Option Entry :=
  if l = .root then some .directory else (d.entries.find? (fun x => x.1 = l)).map Prod.snd

/-- The disk with an entry put at a location, in place of what is there. -/
def set (d : Disk) (l : Location) (e : Entry) : Disk :=
  ⟨(l, e) :: d.entries.filter (fun x => x.1 != l)⟩

/-- The disk without the entry at a location and those below it. -/
def erase (d : Disk) (l : Location) : Disk :=
  ⟨d.entries.filter (fun x => !x.1.isWithin l)⟩

/-- The bytes of the regular file at a location. -/
def bytes? (d : Disk) (l : Location) : Option (List UInt8) :=
  match d.entry? l with
  | some (.file bytes) => some bytes
  | _ => none

/-- The locations of the regular files. -/
def files (d : Disk) : List Location :=
  (d.entries.map Prod.fst).filter (fun l => (d.bytes? l).isSome)

/-- A location with bytes at it is among those of the regular files. -/
theorem mem_files {d : Disk} {l : Location} (h : (d.bytes? l).isSome) : l ∈ d.files := by
  unfold bytes? at h
  split at h
  · rename_i bytes heq
    refine List.mem_filter.2 ⟨?_, by simp [bytes?, heq]⟩
    unfold entry? at heq
    split at heq
    · simp at heq
    · obtain ⟨x, hx, -⟩ := Option.map_eq_some_iff.1 heq
      have hl : x.1 = l := by simpa using List.find?_some hx
      exact List.mem_map.2 ⟨x, List.mem_of_find?_eq_some hx, hl⟩
  · simp at h

end Disk

end RenderTree
