import RenderTree.Disk.Lookup
import RenderTree.Display
import RenderTree.Json.Basic
import RenderTree.Text.Utf8

/-!
# Reports

A display tree as text, with a line for each label, or as JSON, and where it is written to.

* `Display.text` — the tree drawn with lines.
* `Display.toJson`, `Display.ofJson?` — the tree as a JSON value, and back.
* `Report.render` — the tree in a format.
* `Report.send` — writes a report to a file, or to the standard output, step by step.
* `Report.attempt`, `Report.write` — what comes of it, and what is left.
-/

namespace RenderTree

open RenderTree.Text

namespace Display

/-! ### Drawn trees -/

/-- What stands before a label: the branch to it from the label above. -/
def connector (last : Bool) : Text :=
  if last then "└── " else "├── "

/-- What stands below a connector: the branch to the siblings that follow, if there are any. -/
def continuation (last : Bool) : Text :=
  if last then "    " else "│   "

mutual
/-- The lines below the label of a tree, each beginning with `lead`. -/
def linesBelow (lead : Text) : Display → List Text
  | leaf _ => []
  | branch _ ds => siblingLines lead ds

/-- The lines of siblings, each beginning with `lead`. -/
def siblingLines (lead : Text) : List Display → List Text
  | [] => []
  | d :: ds =>
    (lead ++ connector ds.isEmpty ++ d.label)
      :: linesBelow (lead ++ continuation ds.isEmpty) d ++ siblingLines lead ds
end

/-- The lines of a tree: a label on each. -/
def lines (d : Display) : List Text :=
  d.label :: linesBelow [] d

/-- The tree drawn with lines. -/
def text (d : Display) : Text :=
  List.intercalate "\n" d.lines

/-! ### JSON -/

/-- Which of the members of a branch comes first. -/
inductive MemberOrder where
  | labelFirst | childrenFirst
deriving DecidableEq, Repr, Inhabited

/-- The key of a label. -/
def labelKey : Text := "label"

/-- The key of the trees below a label. -/
def childrenKey : Text := "children"

mutual
/-- The tree as a JSON value. -/
def toJson (order : MemberOrder) : Display → Json
  | leaf l => .object [(labelKey, .string l)]
  | branch l ds =>
    let children := Json.array (toJsonAll order ds)
    match order with
    | .labelFirst => .object [(labelKey, .string l), (childrenKey, children)]
    | .childrenFirst => .object [(childrenKey, children), (labelKey, .string l)]

/-- Several trees as JSON values. -/
def toJsonAll (order : MemberOrder) : List Display → List Json
  | [] => []
  | d :: ds => toJson order d :: toJsonAll order ds
end

mutual
/-- The tree that a JSON value stands for. -/
def ofJson? : Json → Option Display
  | .object [(k, .string l)] => if k = labelKey then some (leaf l) else none
  | .object [(k, .string l), (m, .array vs)] =>
    if k = labelKey ∧ m = childrenKey then (ofJsonAll? vs).map (branch l) else none
  | .object [(m, .array vs), (k, .string l)] =>
    if m = childrenKey ∧ k = labelKey then (ofJsonAll? vs).map (branch l) else none
  | _ => none

/-- The trees that JSON values stand for. -/
def ofJsonAll? : List Json → Option (List Display)
  | [] => some []
  | v :: vs =>
    match ofJson? v, ofJsonAll? vs with
    | some d, some ds => some (d :: ds)
    | _, _ => none
end

end Display

/-! ### Formats -/

/-- The formats of reports. -/
inductive Format where
  | text | json
deriving DecidableEq, Repr, Inhabited

namespace Format

/-- All formats. -/
def all : List Format := [text, json]

/-- The name of a format. -/
def name : Format → String
  | text => "text"
  | json => "json"

/-- The format of a name. -/
def ofName? (s : Text) : Option Format :=
  all.find? (fun f => ofString f.name == s)

end Format

/-- Why there is no report. -/
inductive ReportError where
  | unsupportedFormat (name : Text)
  | notWritten (output : Path) (t : Trouble)
  | noPath (t : Trouble)
  | unencodable (f : SymbolFault)
deriving DecidableEq

/-- The message that tells why there is no report. -/
def ReportError.message : ReportError → Text
  | unsupportedFormat name => "Unsupported output format: " ++ name
  | notWritten output t => "Failed to write " ++ output.text ++ ": " ++ t.message output.text
  | noPath t => t.message []
  | unencodable f => f.message

/-- Whether an error is reported as one of the report. An output whose text can be no path and a text
that cannot be written are not: they end the program. -/
def ReportError.isReported : ReportError → Bool
  | unsupportedFormat _ => true
  | notWritten _ _ => true
  | noPath _ => false
  | unencodable _ => false

namespace Report

open Display (MemberOrder)

/-- A tree in a format. -/
def render (d : Display) (format : Format) (order : MemberOrder := .labelFirst) : Text :=
  match format with
  | .text => d.text
  | .json => (d.toJson order).render

/-- A tree in the format of a name. -/
def renderNamed (d : Display) (format : Text) (order : MemberOrder := .labelFirst) :
    Except ReportError Text :=
  match Format.ofName? format with
  | some f => .ok (render d f order)
  | none => .error (.unsupportedFormat format)

/-- What writing a report leaves: the disk, and what is printed. -/
structure Written where
  disk : Disk
  stdout : String := ""
  stderr : String := ""

/-- A step of writing a report. If it fails, what was changed before it stays changed. -/
abbrev Step := ExceptT ReportError (StateM Written)

/-- The string that a text is, to be written. A text with surrogates cannot be written. -/
def encodable (text : Text) : Step String :=
  match toString? text with
  | .ok s => return s
  | .error f => throw (.unencodable f)

/-- Prints a text. -/
def print (text : Text) : Step Unit := do
  let s ← encodable text
  modify fun w => { w with stdout := w.stdout ++ s }

/-- Tells something apart from what is printed, surrogates as escapes. -/
def tell (text : Text) : Step Unit :=
  modify fun w => { w with stderr := w.stderr ++ text.shown }

/-- Opens an output, which empties the file that it denotes, if there is one. -/
def openOutput (cwd : Location) (p : Path) : Step Location := do
  match (← get).disk.openEmpty cwd p.text with
  | .ok (l, disk) =>
    modify fun w => { w with disk := disk }
    return l
  | .error t => throw (if t.title?.isSome then .notWritten p t else .noPath t)

/-- Adds a text at the end of a file. -/
def append (l : Location) (text : Text) : Step Unit := do
  let s ← encodable text
  modify fun w => { w with disk := w.disk.append l (encode s) }

/-- Writes a tree, and the end of its last line, to a file, or to the standard output if no file is
given. -/
def send (cwd : Location) (d : Display) (output : Option Path) (format : Text)
    (order : MemberOrder := .labelFirst) : Step Unit := do
  let content ← renderNamed d format order
  match output with
  | none => print (content ++ "\n")
  | some p =>
    let l ← openOutput cwd p
    append l content
    append l "\n"
    tell ("Component tree written: " ++ p.text ++ "\n")

/-- What comes of writing a tree, and what is left then, be it written or not. -/
def attempt (w : Written) (cwd : Location) (d : Display) (output : Option Path) (format : Text)
    (order : MemberOrder := .labelFirst) : Except ReportError Unit × Written :=
  (send cwd d output format order).run.run w

/-- What is left if a tree is written, with nothing printed before. -/
def write (disk : Disk) (cwd : Location) (d : Display) (output : Option Path) (format : Text)
    (order : MemberOrder := .labelFirst) : Except ReportError Written :=
  match attempt { disk := disk } cwd d output format order with
  | (.ok (), w) => .ok w
  | (.error e, _) => .error e

end Report

end RenderTree
