import RenderTree.Program

/-!
# Command line program

The outer layer: takes a picture of the files around the working directory, runs the program on it,
prints what it prints and writes the files that it has changed.

* `Disk.workTree?` — the nearest work tree around a location, where the version control is not asked.
* `takePicture` — the files below a directory.
* `main` — the program.
-/

namespace RenderTree

/-! ### Work trees -/

namespace Location

/-- The location that the first `n` names lead to. -/
def upTo (l : Location) (n : Nat) : Location :=
  ⟨l.names.take n, fun s hs => l.proper s (List.mem_of_mem_take hs)⟩

/-- A location and those of the directories around it, from the inside out. -/
def around (l : Location) : List Location :=
  ((List.range (l.names.length + 1)).map l.upTo).reverse

end Location

namespace Disk

/-- What is in a directory under a name. -/
def member? (d : Disk) (l : Location) (s : Text) : Option Entry :=
  if h : IsName s then d.entry? (l.child s h) else none

/-- The name of the store in its work tree. -/
def storeName : Text := ".git"

/-- Whether a location is that of a store: it has a head, objects and references. -/
def isStore (d : Disk) (l : Location) : Bool :=
  (d.member? l "HEAD").any Entry.isFile && d.member? l "objects" == some .directory
    && d.member? l "refs" == some .directory

/-- Whether a location is that of a work tree. -/
def isWorkTree (d : Disk) (l : Location) : Bool :=
  if h : IsName storeName then d.isStore (l.child storeName h) else false

/-- The nearest work tree around a location; none if the location is in a store. -/
def workTree? (d : Disk) (l : Location) : Option Location :=
  match l.around.find? (fun a => d.isWorkTree a || d.isStore a) with
  | some a => if d.isWorkTree a then some a else none
  | none => none

end Disk

/-! ### Files -/

/-- Puts an entry at the location of an absolute path. -/
def putAt (d : Disk) (path : String) (e : Entry) : Disk :=
  ⟨(Disk.lexical .root (Disk.stepsOf path), e) :: d.entries⟩

/-- Adds the files below the directory `path` to a disk. A link is followed once and for all. Of a
store of versions only the names at its top are taken. -/
partial def takePicture (d : Disk) (path : String) (deep : Bool := true) : IO Disk := do
  let mut d := putAt d path .directory
  for entry in ← (System.mkFilePath [path]).readDir do
    let name := path ++ "/" ++ entry.fileName
    match (← entry.path.symlinkMetadata).type with
    | .dir =>
      if deep then d ← takePicture d name (Text.ofString entry.fileName != Disk.storeName)
      else d := putAt d name .directory
    | .symlink => d := putAt d name (.link (← IO.FS.realPath entry.path).toString)
    | .file =>
      let bytes ← if deep then IO.FS.readBinFile entry.path else pure .empty
      d := putAt d name (.file bytes.toList)
    | .other => pure ()
  return d

/-- The nearest directory around `path` that has a store of versions, or `path` if there is none. -/
def topOf (path : String) : IO String := do
  let l := Disk.lexical .root (Disk.stepsOf path)
  let stored ← l.around.filterM fun a =>
    (System.mkFilePath [a.text.shown, Disk.storeName.shown]).pathExists
  return (stored.head?.map (·.text.shown)).getD path

/-- The directories around a location. -/
def aroundOf (l : Location) : Disk :=
  ⟨l.around.map (fun a => (a, .directory))⟩

/-- Writes the files that differ between two disks. -/
def writeChanges (before after : Disk) : IO Unit := do
  for l in after.files do
    if after.bytes? l != before.bytes? l then
      IO.FS.writeBinFile (System.mkFilePath [l.text.shown]) ⟨((after.bytes? l).getD []).toArray⟩

end RenderTree

open RenderTree in
/-- The program: its arguments, its output and its number. -/
def main (argv : List String) : IO UInt32 := do
  let here := (← IO.currentDir).toString
  let top ← topOf here
  let cwd := Disk.lexical .root (Disk.stepsOf here)
  let d ← takePicture (aroundOf (Disk.lexical .root (Disk.stepsOf top))) top
  let answer := (d.workTree? cwd).map fun l => Text.encode (l.text.shown ++ "\n")
  match start { disk := d, cwd := cwd } answer (argv.map Text.ofString) with
  | .ok o =>
    writeChanges d o.disk
    IO.print o.stdout
    IO.eprint o.stderr
    return o.exit.toUInt32
  | .error e =>
    IO.eprintln e.message.shown
    return Outcome.failure.toUInt32
