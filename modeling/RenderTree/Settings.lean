import RenderTree.Disk.RealPath
import RenderTree.Json.Reader
import RenderTree.Report
import RenderTree.Walk

/-!
# Settings

What can be set by a configuration file, what by arguments, and what holds where neither sets it.

* `Key` — what can be set, and by which values.
* `Settings` — what a configuration file sets.
* `Settings.ofMembers` — the settings that the members of a JSON object make.
* `Settings.load` — the settings of a configuration file.
* `Settings.merge` — the configuration that settings and arguments make.
* `Configuration.walkOptions`, `Configuration.presentation` — what a configuration means.
-/

namespace RenderTree

open RenderTree.Text

/-! ### Keys -/

/-- What can be set. -/
inductive Key where
  | hideContainers | hideThirdParty | moduleDir | scanDepth | containerMarker | markupLibrary | format
deriving DecidableEq, Repr, Inhabited

namespace Key

/-- All keys. -/
def all : List Key :=
  [hideContainers, hideThirdParty, moduleDir, scanDepth, containerMarker, markupLibrary, format]

/-- The name of a key in a file. -/
def name : Key → String
  | hideContainers => "hide_containers"
  | hideThirdParty => "hide_third_party"
  | moduleDir => "module_dir"
  | scanDepth => "scan_depth"
  | containerMarker => "container_marker"
  | markupLibrary => "markup_library"
  | format => "format"

/-- The key of a name. -/
def ofName? (s : Text) : Option Key :=
  all.find? (fun k => ofString k.name == s)

/-- Whether a value is of the kind that a key takes. -/
def accepts : Key → Json → Bool
  | hideContainers, .bool _ => true
  | hideThirdParty, .bool _ => true
  | moduleDir, .string _ => true
  | scanDepth, .integer _ => true
  | containerMarker, .string _ => true
  | markupLibrary, .string _ => true
  | format, .string _ => true
  | _, _ => false

end Key

/-! ### Settings -/

/-- What a configuration file sets. -/
structure Settings where
  hideContainers : Option Bool := none
  hideThirdParty : Option Bool := none
  moduleDir : Option Text := none
  scanDepth : Option Int := none
  containerMarker : Option Text := none
  markupLibrary : Option Text := none
  format : Option Format := none
deriving DecidableEq, Repr, Inhabited

/-- Why a configuration cannot be used. -/
inductive ConfigError where
  | notFound (path : Text)
  | unreadable (path : Text) (t : Trouble)
  | undecodable (f : ByteFault)
  | malformed (path : Text) (f : Json.Fault)
  | longNumber (f : Json.Fault)
  | noWorkTree (e : Disk.Unreal)
  | notAnObject
  | unknownKey (name : Text)
  | invalidValue (key : Key) (value : Json)
  | unsupportedFormat (name : Text)

namespace ConfigError

/-- The message that tells why a configuration cannot be used. -/
def message : ConfigError → Text
  | notFound path => "Configuration file not found: " ++ path
  | unreadable path t => "Error reading config file " ++ path ++ ": " ++ t.message path
  | undecodable f => f.message
  | malformed path f => "Invalid JSON in config file " ++ path ++ ": " ++ f.message
  | longNumber f => f.message
  | noWorkTree e => e.message
  | notAnObject => "Configuration file must contain a JSON object"
  | unknownKey name => "Unknown configuration key: " ++ name
  | invalidValue key value => "Invalid value for " ++ ofString key.name ++ ": " ++ value.inMessage
  | unsupportedFormat name =>
    "Invalid value for " ++ ofString Key.format.name ++ ": " ++ quoted name ++ " (expected one of: "
      ++ ", ".intercalate (Format.all.map Format.name) ++ ")"

/-- Whether an error is reported as one of the configuration. Bytes that are no text, numbers that are
too long and a work tree without a real path are not: they end the program. -/
def isReported : ConfigError → Bool
  | undecodable _ => false
  | longNumber _ => false
  | noWorkTree _ => false
  | _ => true

end ConfigError

namespace Settings

/-- What is wrong with a member of a configuration, apart from the name of a format. -/
def memberError? (m : Text × Json) : Option ConfigError :=
  match Key.ofName? m.1 with
  | none => some (.unknownKey m.1)
  | some key => if key.accepts m.2 then none else some (.invalidValue key m.2)

/-- The truth value that members have for a key. -/
def bool? (key : Key) (ms : List (Text × Json)) : Option Bool :=
  match Json.find? key.name ms with
  | some (.bool b) => some b
  | _ => none

/-- The text that members have for a key. -/
def string? (key : Key) (ms : List (Text × Json)) : Option Text :=
  match Json.find? key.name ms with
  | some (.string s) => some s
  | _ => none

/-- The whole number that members have for a key. -/
def integer? (key : Key) (ms : List (Text × Json)) : Option Int :=
  match Json.find? key.name ms with
  | some (.integer n) => some n
  | _ => none

/-- The settings that members make, with a format that is found already. -/
def take (ms : List (Text × Json)) (format : Option Format) : Settings :=
  { hideContainers := bool? .hideContainers ms
    hideThirdParty := bool? .hideThirdParty ms
    moduleDir := string? .moduleDir ms
    scanDepth := integer? .scanDepth ms
    containerMarker := string? .containerMarker ms
    markupLibrary := string? .markupLibrary ms
    format := format }

/-- The settings that members make. Of several errors the first counts, but the name of a format only
if there is no other. -/
def ofMembers (ms : List (Text × Json)) : Except ConfigError Settings :=
  match ms.findSome? memberError? with
  | some e => .error e
  | none =>
    match string? .format ms with
    | none => .ok (take ms none)
    | some name =>
      match Format.ofName? name with
      | some f => .ok (take ms (some f))
      | none => .error (.unsupportedFormat name)

/-- The settings that a JSON value makes. -/
def ofJson : Json → Except ConfigError Settings
  | .object ms => ofMembers ms
  | _ => .error .notAnObject

/-- The members that make settings. -/
def members (s : Settings) : List (Text × Json) :=
  [(Key.hideContainers.name, s.hideContainers.map Json.bool),
   (Key.hideThirdParty.name, s.hideThirdParty.map Json.bool),
   (Key.moduleDir.name, s.moduleDir.map Json.string),
   (Key.scanDepth.name, s.scanDepth.map Json.integer),
   (Key.containerMarker.name, s.containerMarker.map Json.string),
   (Key.markupLibrary.name, s.markupLibrary.map Json.string),
   (Key.format.name, s.format.map (fun f => Json.string (ofString f.name)))].filterMap
    (fun m => m.2.map (fun v => (m.1, v)))

/-! ### Configuration files -/

/-- The name of the configuration file that is read if no other is asked for. -/
def defaultFile : Text := "component-hierarchy.config.json"

/-- The settings of a configuration file with these bytes. -/
def ofBytes (path : Text) (bytes : List UInt8) : Except ConfigError Settings :=
  match decode bytes with
  | .error f => .error (.undecodable f)
  | .ok text =>
    match Json.parse (unixLines text) with
    | .error f => .error (if f.flaw.isFormal then .malformed path f else .longNumber f)
    | .ok v => ofJson v

/-- What the version control prints when it is asked for the work tree around the working directory:
some bytes, or none if it is not there or knows of no work tree. -/
abbrev WorkTreeAnswer := Option (List UInt8)

/-- The real path of the work tree by an answer. -/
def workTree? (h : Host) : WorkTreeAnswer → Except ConfigError (Option Path)
  | none => .ok none
  | some bytes =>
    match decode bytes with
    | .error f => .error (.undecodable f)
    | .ok text =>
      match h.disk.realPath h.cwd (Path.ofText (trim isSpace (unixLines text))).text with
      | .error e => .error (.noWorkTree e)
      | .ok top => .ok (some top)

/-- The configuration file that is asked for, or else that of the work tree, or that of the working
directory if it is in none. -/
def fileOf (h : Host) (answer : WorkTreeAnswer) : Option Text → Except ConfigError Text
  | some file => .ok file
  | none =>
    match workTree? h answer with
    | .error e => .error e
    | .ok (some top) => .ok (top.join defaultFile).text
    | .ok none => .ok defaultFile

/-- The settings of the configuration file at a path. The one that is read by default need not be
there. -/
def load (h : Host) (answer : WorkTreeAnswer) (path : Option Text) : Except ConfigError Settings :=
  match fileOf h answer path with
  | .error e => .error e
  | .ok file =>
    if h.disk.exists? h.cwd file then
      match h.read file with
      | .error t => .error (.unreadable file t)
      | .ok bytes => ofBytes file bytes
    else if path.isSome then .error (.notFound file)
    else .ok {}

end Settings

/-! ### Configurations -/

/-- What arguments set. Those that hide can only be set, not taken back. -/
structure Overrides where
  hideContainers : Bool := false
  hideThirdParty : Bool := false
  moduleDir : Option Text := none
  scanDepth : Option Int := none
  format : Option Format := none
deriving DecidableEq, Repr, Inhabited

/-- A configuration: everything is set that needs to be. -/
structure Configuration where
  hideContainers : Bool := false
  hideThirdParty : Bool := false
  moduleDir : Option Text := none
  scanDepth : Option Int := none
  containerMarker : Text := defaultContainerMarker
  markupLibrary : Text := defaultMarkupLibrary
  format : Format := .text
deriving DecidableEq, Repr, Inhabited

/-- The configuration that settings and arguments make: arguments count before settings, and settings
before what holds by default. -/
def Settings.merge (s : Settings) (a : Overrides) : Configuration :=
  let standard : Configuration := {}
  { hideContainers := a.hideContainers || s.hideContainers.getD standard.hideContainers
    hideThirdParty := a.hideThirdParty || s.hideThirdParty.getD standard.hideThirdParty
    moduleDir := a.moduleDir.or s.moduleDir
    scanDepth := a.scanDepth.or s.scanDepth
    containerMarker := s.containerMarker.getD standard.containerMarker
    markupLibrary := s.markupLibrary.getD standard.markupLibrary
    format := (a.format.or s.format).getD standard.format }

namespace Configuration

/-- The members of a configuration, those that need not be set included. -/
def members (c : Configuration) : List (Text × Json) :=
  [(Key.hideContainers.name, .bool c.hideContainers),
   (Key.hideThirdParty.name, .bool c.hideThirdParty),
   (Key.moduleDir.name, (c.moduleDir.map Json.string).getD .null),
   (Key.scanDepth.name, (c.scanDepth.map Json.integer).getD .null),
   (Key.containerMarker.name, .string c.containerMarker),
   (Key.markupLibrary.name, .string c.markupLibrary),
   (Key.format.name, .string c.format.name)]

/-- The settings that make a configuration. -/
def toSettings (c : Configuration) : Settings :=
  { hideContainers := some c.hideContainers
    hideThirdParty := some c.hideThirdParty
    moduleDir := c.moduleDir
    scanDepth := c.scanDepth
    containerMarker := some c.containerMarker
    markupLibrary := some c.markupLibrary
    format := some c.format }

/-- The real path of the module directory. An empty one counts as none. -/
def moduleRoot (c : Configuration) (d : Disk) (cwd : Location) :
    Except Disk.Unreal (Option Path) :=
  match c.moduleDir with
  | none => .ok none
  | some dir =>
    if dir = [] then .ok none
    else (d.realPath cwd (Path.ofText dir).text).map some

/-- How a walk goes by a configuration. -/
def walkOptions (c : Configuration) (d : Disk) (cwd : Location) :
    Except Disk.Unreal WalkOptions :=
  (c.moduleRoot d cwd).map fun dir =>
    { scanDepth := c.scanDepth.map Depth.ofInt
      moduleDir := dir
      hideThirdParty := c.hideThirdParty
      markupLibrary := c.markupLibrary }

/-- How a tree is presented by a configuration. -/
def presentation (c : Configuration) : Presentation :=
  { hideContainers := c.hideContainers, containerMarker := c.containerMarker }

end Configuration

end RenderTree
