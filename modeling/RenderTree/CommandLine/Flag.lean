import RenderTree.Settings

/-!
# Flags of the command line

The flags, and what is printed about them: a line on the use of the command line, and a page on all
that it takes, for screens of eighty columns.

* `Flag` — the flags, each with its names, its value and what is said of it.
* `Flag.named` — all names with their flags, in the order in which they are listed.
* `usage`, `help` — the line and the page.
-/

namespace RenderTree.CommandLine

/-- A flag of the command line. -/
inductive Flag where
  | help | hideContainers | hideThirdParty | moduleDir | scanDepth | format | output | config
  | verbose | version
deriving DecidableEq, Repr, Inhabited

namespace Flag

/-- All flags, in the order in which they are listed. -/
def all : List Flag :=
  [help, hideContainers, hideThirdParty, moduleDir, scanDepth, format, output, config, verbose,
    version]

/-- The names of a flag, the short one first. -/
def names : Flag → List String
  | help => ["-h", "--help"]
  | hideContainers => ["-c", "--hide-containers"]
  | hideThirdParty => ["-t", "--hide-third-party"]
  | moduleDir => ["-m", "--module-dir"]
  | scanDepth => ["-s", "--scan-depth"]
  | format => ["-f", "--format"]
  | output => ["-o", "--output"]
  | config => ["--config"]
  | verbose => ["-v", "--verbose"]
  | version => ["--version"]

/-- What stands for the value of a flag; none if the flag takes no value. -/
def value? : Flag → Option String
  | moduleDir => some "DIR"
  | scanDepth => some "DEPTH"
  | format => some ("\x7b" ++ ",".intercalate (Format.all.map Format.name) ++ "\x7d")
  | output => some "OUTPUT"
  | config => some "CONFIG"
  | _ => none

/-- What is said of a flag. -/
def about : Flag → String
  | help => "show this help message and exit"
  | hideContainers => "Hide redux container components"
  | hideThirdParty => "Hide third party components"
  | moduleDir => "Path to additional modules not included in the root component directory"
  | scanDepth => "Deepest level of the hierarchy whose files are scanned (minimum 1)"
  | format => "Output format (default: text)"
  | output => "Output file (default: stdout)"
  | config => s!"Configuration file path (default: {Settings.defaultFile.shown})"
  | verbose => "Report files that could not be read or parsed"
  | version => "show program's version number and exit"

/-- All names with their flags, in the order in which they are listed. -/
def named : List (String × Flag) :=
  all.flatMap (fun f => f.names.map (fun n => (n, f)))

/-- The flag of a name. -/
def ofName? (s : Text) : Option Flag :=
  (named.find? (fun n => Text.ofString n.1 == s)).map Prod.snd

/-- How a flag is called in messages. -/
def title (f : Flag) : String :=
  "/".intercalate f.names

end Flag

/-! ### Help -/

/-- The name of the program. -/
def programName : String := "component-hierarchy"

/-- The version of the program. -/
def programVersion : String := "0.1.0"

/-- The line on the use of the command line. -/
def usage : String :=
  s!"usage: {programName} [opts] <path/to/rootComponent>\n"

/-- The number of columns that lines may fill. -/
def pageWidth : Nat := 78

/-- The column that explanations begin in. -/
def helpColumn : Nat := 24

/-- The parts of a word, which may be put on different lines: each ends behind a hyphen. -/
def wordParts : List Char → List (List Char)
  | [] => []
  | c :: cs =>
    match wordParts cs with
    | [] => [[c]]
    | p :: ps => if c = '-' then [c] :: p :: ps else (c :: p) :: ps

/-- The parts of a text that may be put on different lines, each with the blanks before it. -/
def textParts (text : String) : List (Nat × List Char) :=
  (Text.pieces ' ' text.toList).flatMap fun word =>
    match wordParts word with
    | [] => []
    | p :: ps => (1, p) :: ps.map (fun p => (0, p))

/-- Puts parts on lines of at most `width` characters, behind those of the line `line`. -/
def fill (width : Nat) (line : List Char) : List (Nat × List Char) → List (List Char)
  | [] => if line.isEmpty then [] else [line]
  | (blanks, part) :: parts =>
    if line.isEmpty then fill width part parts
    else if line.length + blanks + part.length ≤ width then
      fill width (line ++ List.replicate blanks ' ' ++ part) parts
    else line :: fill width part parts

/-- A text put on lines of at most `width` characters. -/
def wrap (width : Nat) (text : String) : List String :=
  (fill width [] (textParts text)).map String.ofList

/-- So many blanks. -/
def blanks (n : Nat) : String :=
  String.ofList (List.replicate n ' ')

/-- What is said of something that the command line takes: its names in the left column, what they
mean in the right one. -/
def helpEntry (names about : String) : String :=
  let lines := wrap (pageWidth - helpColumn) about
  let left := "  " ++ names
  if names.length + 4 ≤ helpColumn then
    left ++ blanks (helpColumn - left.length) ++ ("\n" ++ blanks helpColumn).intercalate lines ++ "\n"
  else
    left ++ "\n" ++ String.join (lines.map (fun l => blanks helpColumn ++ l ++ "\n"))

/-- The names of a flag with what stands for its value. -/
def flagNames (f : Flag) : String :=
  ", ".intercalate (f.names.map fun n =>
    match f.value? with
    | some v => n ++ " " ++ v
    | none => n)

/-- The page on all that the command line takes. -/
def help : String :=
  usage ++ "\nReact component hierarchy viewer.\n\npositional arguments:\n"
    ++ helpEntry "root" "Root component file (the .js/.jsx extension may be omitted)"
    ++ "\noptions:\n" ++ String.join (Flag.all.map (fun f => helpEntry (flagNames f) f.about))

end RenderTree.CommandLine
