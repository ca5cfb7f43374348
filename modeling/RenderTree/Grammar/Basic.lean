import RenderTree.Source.Reader

/-!
# Rules of the grammar

The rules that refer to each other are the `Symbol`s; every rule is a reader that is given the
readers of all symbols (`Rules`), so that each can be stated on its own.

* `Mode` — what an expression has to know about its surroundings.
* `Symbol`, `Rules` — the rules that recur, and a reader for each.
* `identifier`, `bindingName`, `propertyName` — names in their different places.
* `stringLiteral`, `templateLiteral`, `numberLiteral`, `regexLiteral` — literals.
-/

namespace RenderTree.Grammar

open RenderTree.Source
open RenderTree.Source.Reader

/-- What an expression has to know about its surroundings. -/
structure Mode where
  /-- The operator `in` may be used. -/
  allowIn : Bool := true
  /-- A line end may close the statement. -/
  line : Bool := false
  /-- The expression is an item of an object or array literal. -/
  literal : Bool := false
  /-- Arrow functions name no result type. -/
  plainArrow : Bool := false
  /-- The expression is what a class extends. -/
  heritage : Bool := false
deriving DecidableEq, Repr, Inhabited

/-- The rules that recur. -/
inductive Symbol where
  | statement
  | expression (mode : Mode)
  | operand (mode : Mode)
  | construction
  | pattern
  | element
  | type (line : Bool)
  | operandType (line : Bool)
deriving DecidableEq, Repr

/-- A reader for each rule that recurs. -/
abbrev Rules : Type := Symbol → Reader Unit

/-- The character at the lexeme at hand. -/
def nextChar : Reader Char := do
  return charAt (← script).text (← place).here

/-! ### Words -/

/-- The words that are no names in the script dialect. -/
def reservedWords : List String :=
  ["break", "case", "catch", "class", "const", "continue", "debugger", "default", "delete", "do",
    "else", "export", "extends", "false", "finally", "for", "function", "if", "import", "in",
    "instanceof", "new", "null", "return", "super", "switch", "this", "throw", "true", "try",
    "typeof", "var", "void", "while", "with"]

/-- The words that begin an expression and are no operands by themselves; the typed dialect has no
other reserved words where an expression stands. -/
def operandWords : List String :=
  ["function", "class", "new", "this", "super", "null", "true", "false", "undefined", "typeof",
    "void", "delete", "await", "yield", "import"]

/-- The words between two operands. -/
def operatorWords : List String :=
  ["in", "instanceof", "as", "satisfies"]

/-- Reads a name that a declaration binds. -/
def bindingName : Reader Unit := do
  let w ← word
  if w == "" || (!(← isTyped) && reservedWords.contains w) then stop
  else wordAs .identifier

/-- Reads a name where an expression stands. The word `export` is a name there. -/
def identifier : Reader Unit := do
  let w ← word
  let reserved := if ← isTyped then operandWords else reservedWords.erase "export"
  if w == "" || reserved.contains w || w == "await" || w == "yield" then stop
  else wordAs .identifier

/-- Whether a statement may end behind the word at hand, because its line ends there. -/
def endsStatement : Reader Bool :=
  ahead (do
    wordAs .identifier
    if (← closedBy true).isNone then refuse)

/-- Reads a name with a hash in front. -/
def privateName : Reader Unit := do
  let text := (← script).text
  let i := (← place).here
  let j := wordEnd text (i + 1)
  if charAt text i == '#' && i + 1 < j then lexeme .propertyName j else stop

/-- Reads the name of a type, which is no token of its own class. -/
def typeName : Reader Unit := do
  let w ← word
  if w == "" then stop else wordAs (.sign w)

/-! ### Literals -/

/-- Reads a string. -/
def stringLiteral : Reader Unit := do
  match stringEnd (← script).text (← place).here with
  | some j => lexeme .string j
  | none => stop

/-- Reads a number. -/
def numberLiteral : Reader Unit := do
  let i := (← place).here
  let j := numberEnd (← script).text i
  if i < j then lexeme .number j else stop

/-- Reads a regular expression. -/
def regexLiteral : Reader Unit := do
  match regexEnd (← script).text (← place).here with
  | some j => lexeme .regex j
  | none => stop

/-- The end of the characters of a template from `i` on: the offset of the closing quote or of an
opening `${`. -/
def templateCharsEnd (text : Array Char) : Nat → Nat → Option Nat
  | 0, _ => none
  | fuel + 1, i =>
    if i < text.size then
      let c := charAt text i
      if c == '\x60' then some i
      else if c == '$' && charAt text (i + 1) == '\x7b' then some i
      else if c == '\\' then
        match escapeEnd text i with
        | some j => templateCharsEnd text fuel j
        | none => none
      else templateCharsEnd text fuel (i + 1)
    else none

/-- Goes on from the offset `i` as it stands, white space and comments included. -/
def resumeAt (i : Nat) : Reader Unit := do
  setPlace { (← place) with here := i, last := i, waiting := [] }

/-- Reads a template from the offset `i` behind its opening quote or a substitution; `inside` reads
what is between the braces of a substitution. -/
def templateRest (opening : Nat) (inside : Reader Unit) (chars : Kind) :
    Nat → Nat → Reader Unit
  | 0, _ => stop
  | fuel + 1, i => do
    let text := (← script).text
    match templateCharsEnd text (text.size - i + 1) i with
    | none => stuckAt opening (.leaf .error opening opening)
    | some j =>
      resumeAt i
      if i < j then lexeme chars j
      resumeAt j
      if charAt text j == '\x60' then lexeme (.sign "\x60") (j + 1)
      else
        node .group (do
          lexeme (.sign "$\x7b") (j + 2)
          inside
          sign "\x7d")
        templateRest opening inside chars fuel (← place).last

/-- Reads what stands between template quotes, the quotes included. -/
def template (inside : Reader Unit) (chars : Kind) : Reader Unit := do
  let i := (← place).here
  if charAt (← script).text i == '\x60' then
    lexeme (.sign "\x60") (i + 1)
    templateRest i inside chars ((← script).text.size + 1) (i + 1)
  else stop

end RenderTree.Grammar
