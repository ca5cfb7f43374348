import RenderTree.CommandLine.Flag

/-!
# Arguments of the command line

Arguments are sorted first: flags with or without a value, plain ones, and the separator, behind
which all are plain. Long names may be shortened as long as they are not ambiguous, short flags may be
joined, and a number with a minus sign is plain. The sorted arguments are then read from left to
right.

* `Text.wholeNumber?` — the whole number that a text stands for: a sign, if any, and decimal digits of
  any script, between which single underscores may stand, with blanks around them.
* `Piece`, `sortArguments` — the sorted arguments.
* `Arguments`, `read` — what they say.
* `UsageError.message` — what is wrong with them.
-/

namespace RenderTree.Text

/-! ### Whole numbers -/

/-- The code points of the digits zero; those of the other digits follow. -/
def zeroDigits : List Nat :=
  [0x30, 0x660, 0x6f0, 0x7c0, 0x966, 0x9e6, 0xa66, 0xae6, 0xb66, 0xbe6, 0xc66, 0xce6, 0xd66,
   0xde6, 0xe50, 0xed0, 0xf20, 0x1040, 0x1090, 0x17e0, 0x1810, 0x1946, 0x19d0, 0x1a80, 0x1a90,
   0x1b50, 0x1bb0, 0x1c40, 0x1c50, 0xa620, 0xa8d0, 0xa900, 0xa9d0, 0xa9f0, 0xaa50, 0xabf0,
   0xff10, 0x104a0, 0x10d30, 0x11066, 0x110f0, 0x11136, 0x111d0, 0x112f0, 0x11450, 0x114d0,
   0x11650, 0x116c0, 0x11730, 0x118e0, 0x11950, 0x11c50, 0x11d50, 0x11da0, 0x16a60, 0x16ac0,
   0x16b50, 0x1d7ce, 0x1d7d8, 0x1d7e2, 0x1d7ec, 0x1d7f6, 0x1e140, 0x1e2f0, 0x1e950, 0x1fbf0]

/-- The value of a decimal digit. -/
def digit? : Symbol → Option Nat
  | .char c => (zeroDigits.find? (fun z => z ≤ c.toNat && c.toNat < z + 10)).map (c.toNat - ·)
  | .surrogate _ => none

/-- The values of digits, between which single underscores may stand. -/
def digits? : Text → Option (List Nat)
  | [] => none
  | [s] => (digit? s).map (fun d => [d])
  | s :: .char '_' :: t =>
    match digit? s, digits? t with
    | some d, some ds => some (d :: ds)
    | _, _ => none
  | s :: t =>
    match digit? s, digits? t with
    | some d, some ds => some (d :: ds)
    | _, _ => none

/-- The sign at the beginning of a text, whether it is negative, and what follows. -/
def signOf : Text → Bool × Text
  | .char '-' :: t => (true, t)
  | .char '+' :: t => (false, t)
  | t => (false, t)

/-- The greatest number of digits of a whole number. -/
def maxNumberSize : Nat := 4300

/-- The number that a text stands for. -/
def wholeNumber? (t : Text) : Option Int :=
  let (negative, t) := signOf (trim isBlank t)
  match digits? t with
  | none => none
  | some ds =>
    if maxNumberSize < ds.length then none
    else
      let n : Nat := ds.foldl (fun n d => 10 * n + d) 0
      some (if negative then -(n : Int) else n)

end RenderTree.Text

namespace RenderTree.CommandLine

open RenderTree.Text

/-- What is wrong with arguments. -/
inductive UsageError where
  | ambiguous (argument : Text) (names : List String)
  | missingValue (f : Flag)
  | needlessValue (f : Flag) (value : Text)
  | notANumber (value : Text)
  | notAFormat (value : Text)
  | unrecognized (arguments : List Text)
deriving DecidableEq, Repr

/-- The message that tells what is wrong with arguments. -/
def UsageError.message : UsageError → Text
  | ambiguous argument names =>
    "ambiguous option: " ++ argument ++ " could match " ++ ", ".intercalate names
  | missingValue f => s!"argument {f.title}: expected one argument"
  | needlessValue f value => s!"argument {f.title}: ignored explicit argument {quoted value}"
  | notANumber value => s!"argument {Flag.scanDepth.title}: invalid int value: {quoted value}"
  | notAFormat value =>
    s!"argument {Flag.format.title}: invalid choice: {quoted value} (choose from "
      ++ ", ".intercalate (Format.all.map (fun f => quoted f.name)) ++ ")"
  | unrecognized arguments => "unrecognized arguments: " ++ List.intercalate " " arguments

/-! ### Sorting -/

/-- A sorted argument: a flag by one of its names, with what follows the name in the argument. -/
inductive Piece where
  | plain (s : Text)
  | separator
  | flag (f : Flag) (short : Bool) (value : Option Text)
  | unknown (s : Text)
deriving DecidableEq, Repr

/-- Whether a text is a number with a minus sign; a line feed may follow it. -/
def isNegativeNumber (cs : Text) : Bool :=
  match cs with
  | .char '-' :: rest =>
    let number := if rest.getLast? = some (Symbol.char '\n') then rest.dropLast else rest
    let isDigit (s : Symbol) : Bool := (digit? s).isSome
    match number.dropWhile isDigit with
    | [] => !number.isEmpty
    | .char '.' :: fraction => !fraction.isEmpty && fraction.all isDigit
    | _ => false
  | _ => false

/-- The part of a text before the first equals sign, and the part behind it, if there is one. -/
def splitEquals (cs : Text) : Text × Option Text :=
  match cs.dropWhile (· != Symbol.char '=') with
  | [] => (cs, none)
  | _ :: value => (beforeFirst (Symbol.char '=') cs, some value)

/-- The flags that an argument can stand for by the beginning of a name, with that name: long names
shortened, or a short name with what follows it. -/
def readings (cs : Text) : List (String × Piece) :=
  if (ofString "--").isPrefixOf cs then
    let (start, value) := splitEquals cs
    (Flag.named.filter (fun n => start.isPrefixOf (ofString n.1))).map
      (fun n => (n.1, .flag n.2 false value))
  else
    (Flag.named.filter (fun n => ofString n.1 = cs.take 2)).map
      (fun n => (n.1, .flag n.2 true (some (cs.drop 2))))

/-- Whether a name is a short one. -/
def isShort (name : Text) : Bool :=
  name.length == 2

/-- Sorts an argument that is not the separator. -/
def sortArgument (s : Text) : Except UsageError Piece :=
  if s.head? ≠ some (Symbol.char '-') then .ok (.plain s)
  else
    match Flag.ofName? s with
    | some f => .ok (.flag f (isShort s) none)
    | none =>
      if s.length = 1 then .ok (.plain s)
      else
        let (name, value) := splitEquals s
        match value, Flag.ofName? name with
        | some v, some f => .ok (.flag f (isShort name) (some v))
        | _, _ =>
          match readings s with
          | [(_, piece)] => .ok piece
          | [] =>
            if isNegativeNumber s || s.contains ' ' then .ok (.plain s) else .ok (.unknown s)
          | several => .error (.ambiguous s (several.map Prod.fst))

/-- Sorts arguments. Behind the first separator all are plain. -/
def sortArguments : List Text → Except UsageError (List Piece)
  | [] => .ok []
  | s :: rest =>
    if s = ofString "--" then .ok (.separator :: rest.map .plain)
    else
      match sortArgument s with
      | .error e => .error e
      | .ok piece => (sortArguments rest).map (piece :: ·)

/-! ### Reading -/

/-- What arguments say: the root component, what they set, where the report goes, and the arguments
that say nothing. -/
structure Arguments where
  root : Option Text := none
  overrides : Overrides := {}
  output : Option Text := none
  config : Option Text := none
  verbose : Bool := false
  extras : List Text := []
deriving DecidableEq, Repr, Inhabited

/-- Why the program ends with its arguments: help or its version are asked for, or something is
wrong. -/
inductive Ending where
  | help
  | version
  | wrong (e : UsageError)
deriving DecidableEq, Repr

/-- What a flag without a value adds to arguments. -/
def Arguments.withFlag (a : Arguments) : Flag → Except Ending Arguments
  | .help => .error .help
  | .version => .error .version
  | .hideContainers => .ok { a with overrides := { a.overrides with hideContainers := true } }
  | .hideThirdParty => .ok { a with overrides := { a.overrides with hideThirdParty := true } }
  | .verbose => .ok { a with verbose := true }
  | f => .error (.wrong (.missingValue f))

/-- What a flag with a value adds to arguments. -/
def Arguments.withValue (a : Arguments) (f : Flag) (value : Text) : Except Ending Arguments :=
  match f with
  | .moduleDir => .ok { a with overrides := { a.overrides with moduleDir := some value } }
  | .scanDepth =>
    match wholeNumber? value with
    | some n => .ok { a with overrides := { a.overrides with scanDepth := some n } }
    | none => .error (.wrong (.notANumber value))
  | .format =>
    match Format.ofName? value with
    | some f => .ok { a with overrides := { a.overrides with format := some f } }
    | none => .error (.wrong (.notAFormat value))
  | .output => .ok { a with output := some value }
  | .config => .ok { a with config := some value }
  | f => .error (.wrong (.needlessValue f value))

/-- The flags that are joined in an argument: `f`, which takes no value, and those whose letters
follow. The last of them may take a value, which is what is left of the argument, if anything is;
else it waits for the next argument. -/
def joined (f : Flag) : Text → Except UsageError (List Flag × Flag × Option Text)
  | [] => .ok ([], f, none)
  | c :: cs =>
    match Flag.ofName? [.char '-', c] with
    | none => .error (.needlessValue f (c :: cs))
    | some g =>
      if g.value?.isSome then
        .ok ([f], g, if cs.isEmpty then none else some cs)
      else (joined g cs).map (fun (fs, last, value) => (f :: fs, last, value))

/-- The flags of one argument, the last apart, and the value of that one in the argument. -/
def flagsOf (f : Flag) (short : Bool) (value : Option Text) :
    Except UsageError (List Flag × Flag × Option Text) :=
  match value with
  | none => .ok ([], f, none)
  | some v =>
    if f.value?.isSome then .ok ([], f, some v)
    else if short && !v.isEmpty then joined f v
    else .error (.needlessValue f v)

/-- Reads sorted arguments from left to right. The first plain argument is the root component, and a
separator next to it is dropped. -/
def readPieces (a : Arguments) (pieces : List Piece) : Except Ending Arguments :=
  match pieces with
  | [] => .ok a
  | .plain s :: rest =>
    if a.root.isSome then readPieces { a with extras := a.extras ++ [s] } rest
    else
      match rest with
      | .separator :: rest => readPieces { a with root := some s } rest
      | rest => readPieces { a with root := some s } rest
  | .separator :: rest =>
    if a.root.isSome then readPieces { a with extras := a.extras ++ [ofString "--"] } rest
    else readPieces a rest
  | .unknown s :: rest => readPieces { a with extras := a.extras ++ [s] } rest
  | .flag f short value :: rest =>
    match flagsOf f short value with
    | .error e => .error (.wrong e)
    | .ok (fs, last, value) =>
      match last.value?, value, rest with
      | none, _, rest => do readPieces (← (fs ++ [last]).foldlM Arguments.withFlag a) rest
      | some _, some v, rest => do
        readPieces (← (← fs.foldlM Arguments.withFlag a).withValue last v) rest
      | some _, none, .plain v :: rest => do
        readPieces (← (← fs.foldlM Arguments.withFlag a).withValue last v) rest
      | some _, none, _ => .error (.wrong (.missingValue last))
termination_by pieces.length

/-- What arguments say, or why the program ends with them. -/
def read (argv : List Text) : Except Ending Arguments :=
  match sortArguments argv with
  | .error e => .error (.wrong e)
  | .ok pieces => do
    let a ← readPieces {} pieces
    if a.extras.isEmpty then return a else .error (.wrong (.unrecognized a.extras))

end RenderTree.CommandLine
