import RenderTree.Disk.Basic
import RenderTree.Text.Quoted

/-!
# Looking paths up

A path is looked up segment by segment from the root or from a directory, following symbolic links,
of which a limited number counts as too many. Two dots lead to the directory that holds the one that
has been reached.

* `Trouble` — why a path cannot be used.
* `Disk.along`, `Disk.place` — the location that segments lead to, and what is there.
* `Disk.find` — the location that a path's text denotes, and what is there.
* `Disk.locate`, `Disk.exists`, `Disk.isFile` — what is known of existing entries.
* `Disk.read` — the bytes of the file that a path denotes.
* `Disk.openEmpty`, `Disk.append` — the steps of writing a file.
-/

namespace RenderTree

open RenderTree.Text

/-- Why a path cannot be used. -/
inductive Trouble where
  | notFound
  | denied
  | notADirectory
  | isADirectory
  | nameTooLong
  | tooManyLinks
  | embeddedNul
  | unencodable (f : SymbolFault)
deriving DecidableEq, Repr, Inhabited

/-- The number and the text of a trouble with files. A text that can be no path is none: it is refused
before files come into play. -/
def Trouble.title? : Trouble → Option (Nat × String)
  | notFound => some (2, "No such file or directory")
  | denied => some (13, "Permission denied")
  | notADirectory => some (20, "Not a directory")
  | isADirectory => some (21, "Is a directory")
  | nameTooLong => some (36, "File name too long")
  | tooManyLinks => some (40, "Too many levels of symbolic links")
  | embeddedNul => none
  | unencodable _ => none

/-- The message that tells of a trouble with the path `name`. -/
def Trouble.message (t : Trouble) (name : Text) : String :=
  match t, t.title? with
  | _, some (number, title) => s!"[Errno {number}] {title}: {quoted name}"
  | unencodable f, none => f.message
  | _, none => "embedded null byte"

namespace Disk

/-- The greatest number of bytes in a name. -/
def maxNameSize : Nat := 255

/-- The greatest number of bytes in the text of a path. -/
def maxPathSize : Nat := 4095

/-- The number of links that are followed in one look-up. -/
def maxLinks : Nat := 40

/-- The segments of a text, empty ones included. -/
def stepsOf (text : Text) : List Text :=
  pieces (Symbol.char '/') text

/-- Where the segments of a text begin: at the root if it begins with a slash, else at `here`. -/
def startOf (here : Location) (text : Text) : Location :=
  if text.head? = some (Symbol.char '/') then .root else here

/-- The location that segments lead to from `here`, and what is there. Only the last of them may
lead to nothing. Behind a link, `jump` goes on from where the link begins with all that is left. -/
def along (d : Disk) (jump : Location → List Text → Except Trouble (Location × Option Entry))
    (here : Location) : List Text → Except Trouble (Location × Option Entry)
  | [] => .ok (here, d.entry? here)
  | s :: rest =>
    if d.entry? here ≠ some .directory then .error .notADirectory
    else if h : IsName s then
      if maxNameSize < s.size then .error .nameTooLong
      else
        match d.entry? (here.child s h) with
        | none => if rest.isEmpty then .ok (here.child s h, none) else .error .notFound
        | some (.link target) => jump (startOf here target) (stepsOf target ++ rest)
        | some _ => along d jump (here.child s h) rest
    else along d jump (if s = ".." then here.parent else here) rest

/-- The location that segments lead to from a location, and what is there. Up to `links` links are
followed. -/
def place (d : Disk) : Nat → Location → List Text → Except Trouble (Location × Option Entry)
  | 0 => d.along (fun _ _ => .error .tooManyLinks)
  | links + 1 => d.along (d.place links)

/-- Why a text can be no path, whatever files there are. -/
def unnamable? (text : Text) : Option Trouble :=
  match symbolFault? Symbol.isByte 0 text with
  | some f => some (.unencodable f)
  | none => if text.contains '\x00' then some .embeddedNul else none

/-- Why a text is not looked up. -/
def refused? (text : Text) : Option Trouble :=
  (unnamable? text).or
    (if maxPathSize < text.size then some .nameTooLong
    else if text = [] then some .notFound
    else none)

/-- What is looked up is a short text. -/
theorem fits_of_refused? {text : Text} (h : refused? text = none) : text.size ≤ maxPathSize := by
  apply Nat.le_of_not_lt
  intro hsize
  rw [refused?, if_pos hsize] at h
  cases hname : unnamable? text <;> simp [hname] at h

/-- The location that a text denotes in the directory `cwd`, and what is there. -/
def find (d : Disk) (cwd : Location) (text : Text) : Except Trouble (Location × Option Entry) :=
  match refused? text with
  | some t => .error t
  | none => d.place maxLinks (startOf cwd text) (stepsOf text)

/-- The location of the entry that a text denotes in the directory `cwd`. -/
def locate (d : Disk) (cwd : Location) (text : Text) : Except Trouble Location :=
  match d.find cwd text with
  | .ok (l, some _) => .ok l
  | .ok (_, none) => .error .notFound
  | .error t => .error t

/-- Whether a text denotes an entry. -/
def exists? (d : Disk) (cwd : Location) (text : Text) : Bool :=
  (d.locate cwd text).isOk

/-- The location of the regular file that a text denotes. -/
def file? (d : Disk) (cwd : Location) (text : Text) : Option Location :=
  match d.locate cwd text with
  | .ok l => if (d.bytes? l).isSome then some l else none
  | .error _ => none

/-- The bytes of the file that a text denotes. -/
def read (d : Disk) (cwd : Location) (text : Text) : Except Trouble (List UInt8) :=
  match d.find cwd text with
  | .ok (_, some (.file bytes)) => .ok bytes
  | .ok (_, some _) => .error .isADirectory
  | .ok (_, none) => .error .notFound
  | .error t => .error t

/-- What is read has a short text. -/
theorem fits_of_read {d : Disk} {cwd : Location} {text : Text} {bytes : List UInt8}
    (h : d.read cwd text = .ok bytes) : text.size ≤ maxPathSize := by
  rw [read, find] at h
  cases hrefused : refused? text with
  | none => exact fits_of_refused? hrefused
  | some t => simp [hrefused] at h

/-- Opens the file that a text denotes for writing, at its location. It is made if it is not there, and
it is empty then. -/
def openEmpty (d : Disk) (cwd : Location) (text : Text) : Except Trouble (Location × Disk) :=
  match d.find cwd text with
  | .ok (l, some (.file _)) => .ok (l, d.set l (.file []))
  | .ok (l, none) => .ok (l, d.set l (.file []))
  | .ok (_, some _) => .error .isADirectory
  | .error t => .error t

/-- The disk with bytes added at the end of a file. -/
def append (d : Disk) (l : Location) (bytes : List UInt8) : Disk :=
  d.set l (.file ((d.bytes? l).getD [] ++ bytes))

end Disk

end RenderTree
