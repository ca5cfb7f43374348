import RenderTree.Component
import RenderTree.Resolve
import RenderTree.Source.Parse
import RenderTree.Text.Utf8
import RenderTree.Usage

/-!
# Walking from a root component

From the file of a root component on, every file is read for the components that it renders, and
each of those is looked up in turn. The walk goes no further where a component has no file, its file
is one of those on the way to it, it lies too deep, or its file cannot be read.

* `WalkOptions` — how deep files are read, and where and how components are looked up.
* `Host`, `Walker` — where a walk takes place, and how it goes there.
* `Walker.scan` — the components that a file renders.
* `Walker.component`, `Walker.components` — the trees of components that a file renders.
* `Walker.walk` — the tree of a root component.
-/

namespace RenderTree

open RenderTree.Text

/-! ### Options -/

/-- A depth that files are read to; the root's own components are always looked up. -/
abbrev Depth := { n : Nat // 1 ≤ n }

/-- The depth that a number stands for; below one it counts as one. -/
def Depth.ofInt (n : Int) : Depth :=
  ⟨max 1 n.toNat, Nat.le_max_left ..⟩

/-- How a walk goes. -/
structure WalkOptions where
  scanDepth : Option Depth := none
  moduleDir : Option Path := none
  hideThirdParty : Bool := false
  markupLibrary : Text := defaultMarkupLibrary
deriving DecidableEq, Inhabited

/-- Whether files of components at a depth are read. -/
def WalkOptions.reads (o : WalkOptions) (depth : Nat) : Bool :=
  match o.scanDepth with
  | none => true
  | some k => depth ≤ k.val

/-! ### Reading a file -/

/-- Where a walk takes place: the files, which of them may be read, and the trees that texts have. By
default all files may be read, and trees are made by the rules of the grammar. -/
structure Host where
  disk : Disk
  cwd : Location
  readable : Path → Bool := fun _ => true
  tree : Source.Script → Source.Tree := Source.Script.tree

/-- The bytes of the file that a text denotes, if it may be read. -/
def Host.read (h : Host) (text : Text) : Except Trouble (List UInt8) :=
  match h.disk.read h.cwd text with
  | .error t => .error t
  | .ok bytes => if h.readable (Path.ofText text) then .ok bytes else .error .denied

/-- A text is read alike by two hosts if there is the same at it and it may be read by both or none. -/
theorem Host.read_congr {h h' : Host} {text : Text}
    (hbytes : h'.disk.read h'.cwd text = h.disk.read h.cwd text)
    (hreadable : h'.readable (Path.ofText text) = h.readable (Path.ofText text)) :
    h'.read text = h.read text := by
  rw [Host.read, Host.read, hbytes, hreadable]

/-- Why the components that a file renders are not known. -/
inductive ScanFault where
  | trouble (t : Trouble)
  | undecodable (f : ByteFault)
  | unparsable (e : Source.ReadError)

/-- The message that tells why the file at a path cannot be read. -/
def ScanFault.message (file : Path) : ScanFault → String
  | trouble t => t.message file.text
  | undecodable f => f.message
  | unparsable e => e.message

/-- The module that a text is read as. -/
def Host.parse (h : Host) (text : String) : Except Source.ReadError Source.Module :=
  Source.parse text Source.Dialect.script.name h.tree

/-- A walker: where its walks take place, and how they go. -/
structure Walker extends Host where
  options : WalkOptions := {}

namespace Walker

/-- The bindings that the file at a path renders. -/
def scan (w : Walker) (p : Path) : Except ScanFault (List Binding) :=
  match w.read p.text with
  | .error t => .error (.trouble t)
  | .ok bytes =>
    match decode bytes with
    | .error f => .error (.undecodable f)
    | .ok text =>
      match w.parse (unixLines text) with
      | .error e => .error (.unparsable e)
      | .ok m => .ok (m.usedComponents m.imports w.options.markupLibrary)

/-- What can be read has a path with a short text. -/
theorem fits_of_scan {w : Walker} {p : Path} {used : List Binding} (h : w.scan p = .ok used) :
    p.text.size ≤ Disk.maxPathSize := by
  rw [scan, Host.read] at h
  cases hread : w.disk.read w.cwd p.text with
  | error t => simp [hread] at h
  | ok bytes => exact Disk.fits_of_read hread

/-- The path of the file that a specifier stands for. -/
def resolve (w : Walker) (specifier : Text) (importer : Option Path) : Option Path :=
  w.disk.resolve w.readable w.cwd specifier importer w.options.moduleDir

end Walker

/-! ### Walking -/

/-- A file that could not be read, and why. -/
structure ScanError where
  file : Path
  fault : ScanFault

/-- The message that tells of a file that could not be read. -/
def ScanError.message (e : ScanError) : Text :=
  "Error scanning " ++ e.file.text ++ ": " ++ e.fault.message e.file

namespace Walker

/-- A component that has no file, or none that can be read. -/
def unresolved (w : Walker) (facts : Facts) : Component :=
  .node { facts with status := .unresolved, hidden := w.options.hideThirdParty } []

mutual
/-- The tree of a component that a file renders, and the files below that could not be read. The file
is `importer`, those on the way to it are `above`, and the component has the depth `depth`. -/
def component (w : Walker) (importer : Path) (above : List Path) (depth : Nat) (b : Binding) :
    Component × List ScanError :=
  let facts : Facts := { name := b.localName, specifier := some b.specifier, depth := depth }
  match w.resolve b.specifier (some importer) with
  | none => (w.unresolved facts, [])
  | some p =>
    let found : Facts := { facts with path := some p }
    if _m : p ∈ importer :: above then (.node { found with status := .cycle } [], [])
    else if w.options.reads depth then
      match _s : w.scan p with
      | .error fault => (w.unresolved facts, [⟨p, fault⟩])
      | .ok used =>
        let below := components w p (importer :: above) (depth + 1) used
        (.node { found with status := .scanned } below.1, below.2)
    else (.node { found with status := .resolved } [], [])
termination_by (Path.spare Disk.maxPathSize (importer :: above), 0)
decreasing_by
  exact Prod.Lex.left _ _ (Path.spare_cons_lt (fits_of_scan _s) _m)

/-- The trees of several components that a file renders, and the files below that could not be
read. -/
def components (w : Walker) (importer : Path) (above : List Path) (depth : Nat) :
    List Binding → List Component × List ScanError
  | [] => ([], [])
  | b :: bs =>
    let first := component w importer above depth b
    let others := components w importer above depth bs
    (first.1 :: others.1, first.2 ++ others.2)
termination_by bs => (Path.spare Disk.maxPathSize (importer :: above), bs.length + 1)
decreasing_by
  · exact Prod.Lex.right _ (by simp)
  · exact Prod.Lex.right _ (by simp)
end

end Walker

/-- What a walk finds: the tree of the root component, and the files that could not be read. -/
structure Walked where
  root : Component
  errors : List ScanError
deriving Inhabited

/-- Why a walk finds nothing. -/
inductive WalkError where
  | rootNotFound (root : Path)
  | rootUnreadable (file : Path) (fault : ScanFault)

/-- The message that tells why a walk finds nothing. -/
def WalkError.message : WalkError → Text
  | rootNotFound root => "Could not find any components in " ++ root.text
  | rootUnreadable p fault =>
    "Could not read root component " ++ p.text ++ ": " ++ fault.message p

/-- The tree of the component that a path stands for. -/
def Walker.walk (w : Walker) (root : Path) : Except WalkError Walked :=
  match w.resolve root.text none with
  | none => .error (.rootNotFound root)
  | some p =>
    match w.scan p with
    | .error fault => .error (.rootUnreadable p fault)
    | .ok used =>
      let below := w.components p [] 1 used
      let facts : Facts := { name := root.componentName, path := some p, status := .scanned }
      .ok ⟨.node facts below.1, below.2⟩

end RenderTree
