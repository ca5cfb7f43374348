import RenderTree.CommandLine.Arguments
import RenderTree.CommandLine.Flag

/-!
# The program

The program walks from the component that its arguments name and reports the tree that it finds. It
ends with zero if there is a report, and with a greater number and a message if there is none.

* `Outcome` — what is left when the program has ended.
* `run` — the program with its configuration.
* `start` — the program with its arguments.
-/

namespace RenderTree

open CommandLine

open Settings (WorkTreeAnswer)

/-- What is left when the program has ended: its number, what is printed, and the disk. -/
structure Outcome where
  exit : Nat
  stdout : String := ""
  stderr : String := ""
  disk : Disk
deriving Inhabited

/-- The number of a program that has done what it was asked for. -/
def Outcome.success : Nat := 0

/-- The number of a program that cannot do what it is asked for. -/
def Outcome.failure : Nat := 1

/-- The number of a program that is asked in the wrong way, or comes to an unexpected end. -/
def Outcome.misuse : Nat := 2

/-- The line that tells of an error. -/
def errorLine (message : Text) : String :=
  s!"Error: {message.shown}\n"

/-- The line that tells of an error that is not expected. -/
def unexpectedLine (message : Text) : String :=
  s!"Unexpected error: {message.shown}\n"

/-- The line that sums a walk and its presentation up. -/
def summaryLine (root : Component) (shown : Display) : String :=
  s!"Components: {root.nodes.length} found, {shown.count} shown, "
    ++ s!"{root.count .unresolved} unresolved, {root.count .cycle} cyclic\n"

/-- The lines that tell of files that could not be read. -/
def warningLines (errors : List ScanError) : String :=
  String.join (errors.map (fun e => s!"Warning: {e.message.shown}\n"))

/-- The output that a text names; an empty one names none. -/
def outputOf (output : Option Text) : Option Path :=
  match output with
  | none => none
  | some o => if o = [] then none else some (Path.ofText o)

/-- Reports what a walk has found. -/
def report (h : Host) (root : Text) (c : Configuration) (output : Option Text) (verbose : Bool)
    (found : Walked) : Outcome :=
  let warnings := if verbose then warningLines found.errors else ""
  if found.root.hasResolvedChildren then
    let shown := found.root.present c.presentation
    match Report.attempt { disk := h.disk } h.cwd shown (outputOf output) c.format.name with
    | (.ok (), w) =>
      { exit := Outcome.success
        stdout := w.stdout
        stderr := warnings ++ w.stderr ++ (if verbose then summaryLine found.root shown else "")
        disk := w.disk }
    | (.error e, w) =>
      { exit := if e.isReported then Outcome.failure else Outcome.misuse
        stdout := w.stdout
        stderr := warnings ++ w.stderr
          ++ (if e.isReported then errorLine e.message else unexpectedLine e.message)
        disk := w.disk }
  else
    { exit := Outcome.failure
      stderr := warnings ++ errorLine ("Could not find any components in " ++ root)
      disk := h.disk }

/-- Walks from the component that `root` names and reports what is found. -/
def run (h : Host) (root : Text) (c : Configuration) (output : Option Text := none)
    (verbose : Bool := false) : Outcome :=
  match c.walkOptions h.disk h.cwd with
  | .error e => { exit := Outcome.misuse, stderr := unexpectedLine e.message, disk := h.disk }
  | .ok options =>
    match Walker.walk { h with options := options } (Path.ofText root) with
    | .error e => { exit := Outcome.failure, stderr := errorLine e.message, disk := h.disk }
    | .ok found => report h root c output verbose found

/-- The outcome of a program that ends with its arguments. -/
def Ending.outcome (d : Disk) : Ending → Outcome
  | .help => { exit := Outcome.success, stdout := help, disk := d }
  | .version =>
    { exit := Outcome.success, stdout := s!"{programName} {programVersion}\n", disk := d }
  | .wrong e =>
    { exit := Outcome.misuse
      stderr := usage ++ s!"{programName}: error: {e.message.shown}\n"
      disk := d }

/-- The program with its arguments, where the version control answers in some way. A configuration
that no report is made of ends it without an outcome. -/
def start (h : Host) (answer : WorkTreeAnswer) (argv : List Text) : Except ConfigError Outcome :=
  match CommandLine.read argv with
  | .error e => .ok (Ending.outcome h.disk e)
  | .ok a =>
    match a.root with
    | none => .ok { exit := Outcome.failure, stdout := help, disk := h.disk }
    | some root =>
      match Settings.load h answer a.config with
      | .ok s => .ok (run h root (s.merge a.overrides) a.output a.verbose)
      | .error e =>
        if e.isReported then
          .ok
            { exit := Outcome.failure
              stderr := s!"Configuration error: {e.message.shown}\n"
              disk := h.disk }
        else .error e

end RenderTree
