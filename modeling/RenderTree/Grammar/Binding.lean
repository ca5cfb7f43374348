import RenderTree.Grammar.Types

/-!
# Patterns and parameters

What a declaration, a parameter or the left side of an assignment can bind.

* `patternRule` — a name, a place in an object or array, or a pattern that takes one apart.
* `target` — what a variable declaration binds.
* `parameters`, `signature` — a parameter list, with types in the typed dialect.
* `decorator` — what stands behind an `@`.
-/

namespace RenderTree.Grammar

open RenderTree.Source
open RenderTree.Source.Reader

/-- Reads one or more expressions with commas between them. -/
def sequence (rec : Rules) (mode : Mode) : Reader Unit :=
  grow (rec (.expression mode)) (do
    sign ","
    rec (.expression mode)
    return .group)

/-- Reads `= e`. -/
def initialiser (rec : Rules) (mode : Mode) : Reader Unit := do
  sign "="
  withRole .value (rec (.expression mode))

/-- Reads a pattern that takes an object apart. -/
def objectPattern (rec : Rules) : Reader Unit :=
  let default := optional (initialiser rec {})
  node .object (do
    sign "\x7b"
    sparse
      (node .spread (do sign "..."; rec .pattern)
        <|> node .pair (do propertyName rec; sign ":"; rec .pattern; default)
        <|> node .pair (do
          check ("\x7b[".toList.contains (← nextChar))
          rec .pattern
          initialiser rec {})
        <|> node .pair (do
          check (!(reservedWords.contains (← word)) || (← isTyped))
          wordAs .propertyName
          default))
    sign "\x7d")

/-- Reads a pattern that takes an array apart. -/
def arrayPattern (rec : Rules) : Reader Unit :=
  node .array (do
    sign "["
    sparse (do rec .pattern; optional (initialiser rec {}))
    sign "]")

/-- Reads a pattern that takes an object or an array apart. -/
def destructuring (rec : Rules) : Reader Unit := do
  match ← nextChar with
  | '\x7b' => objectPattern rec
  | '[' => arrayPattern rec
  | _ => stop

/-- A pattern. -/
def patternRule (rec : Rules) : Reader Unit := do
  match ← nextChar with
  | '\x7b' | '[' => destructuring rec
  | '.' => node .spread (do sign "..."; rec .pattern)
  | _ =>
    let object : Reader Unit := do
      keywords ["this", "super"]
      if !(".[".toList.contains (← nextChar)) then refuse
    grow ((do check ((← word) != "undefined"); identifier) <|> object)
      (do
        unlessClosed true true
        (do sign "."; privateName <|> wordAs .propertyName; return .member)
          <|> (do sign "["; sequence rec {}; sign "]"; return .subscript))

/-- Reads what a variable declaration binds. -/
def target (rec : Rules) : Reader Unit :=
  withRole .name (bindingName <|> destructuring rec)

/-! ### Decorators -/

/-- Reads the arguments of a call. -/
def arguments (rec : Rules) : Reader Unit :=
  withRole .arguments (valueArguments rec)

/-- Reads a decorator. -/
def decorator (rec : Rules) : Reader Unit :=
  node .group (do
    sign "@"
    (do
      typedOnly
      node .parenthesised (do sign "("; rec (.expression {}); sign ")"))
    <|> (do
      grow bindingName (do
        sign "."
        wordAs .propertyName
        return .member)
      optional (do
        optional (do typedOnly; typeArguments rec)
        arguments rec)))

/-- Reads decorators. Where none of the words follows, the decorators are at fault. -/
def decorators (rec : Rules) (words : List String) : Reader Unit := do
  let p ← place
  many (decorator rec)
  let q ← place
  if p.here < q.here && !words.contains (← word) then
    stuckAt q.here (.leaf .error p.here q.here)

/-! ### Parameters -/

/-- Reads the words in front of a parameter of the typed dialect, each of which is a name itself
where nothing else can be the parameter. -/
def parameterHead : List (List String) → Reader Unit
  | [] => pure ()
  | words :: groups => do
    optional (do
      keywords words
      if (← word) == "" && !("\x7b[.".toList.contains (← nextChar)) then refuse)
    parameterHead groups

/-- Reads a parameter. -/
def parameter (rec : Rules) : Reader Unit := do
  if ← isTyped then
    node .group (do
      many (decorator rec)
      parameterHead [accessWords, ["override"], ["readonly"]]
      keyword "this" <|> rec .pattern
      optional (sign "?")
      optional (ascription rec false)
      optional (initialiser rec {}))
  else do
    rec .pattern
    optional (initialiser rec {})

/-- Reads a parameter list with its parentheses. -/
def parameters (rec : Rules) : Reader Unit :=
  node .group (do
    sign "("
    optional (closedList (parameter rec))
    sign ")")

/-- Reads the parameters of a function, with type parameters and a result type in the typed
dialect. -/
def signature (rec : Rules) : Reader Unit := do
  if ← isTyped then callSignature rec (parameters rec) true else parameters rec

/-- Reads a block of statements that ends a statement, so that at the end of the text its closing brace
alone is missing. -/
def block (rec : Rules) : Reader Unit :=
  node (.statement .block) (do
    sign "\x7b"
    many (rec .statement)
    closing "\x7d")

/-- Reads a block of statements in an expression, where more than the closing brace is missing at the
end of the text. -/
def innerBlock (rec : Rules) : Reader Unit :=
  node (.statement .block) (do
    sign "\x7b"
    many (rec .statement)
    sign "\x7d")

end RenderTree.Grammar
