import RenderTree.Grammar.Basic

/-!
# Types

The types of the typed dialect: annotations, type parameters and arguments, object and function
types.

* `typeRule`, `operandTypeRule` — a type, and a type without operators of its own.
* `ascription`, `resultType` — what stands behind a colon.
* `typeParameters`, `typeArguments` — what stands between angle brackets.
* `objectType` — the members of an interface or object type.
-/

namespace RenderTree.Grammar

open RenderTree.Source
open RenderTree.Source.Reader

/-- Reads `: T`. -/
def ascription (rec : Rules) (line : Bool) : Reader Unit :=
  node .group (do sign ":"; rec (.type line))

/-- Reads a condition on a parameter, `x is T`, or the assertion of one. -/
def predicate (rec : Rules) (line : Bool) : Reader Unit :=
  (do
    keyword "asserts"
    unlessClosed line false
    (do keyword "this" <|> bindingName
        optional (do keyword "is"; rec (.type line))))
  <|> (do
    keyword "this" <|> bindingName
    keyword "is"
    rec (.type line))

/-- Reads `: T`, where `T` may be a condition on a parameter. -/
def resultType (rec : Rules) (line : Bool) : Reader Unit :=
  node .group (do
    sign ":"
    node .group (predicate rec line) <|> rec (.type line))

/-- Reads type arguments with their brackets. -/
def typeArguments (rec : Rules) : Reader Unit :=
  node .group (do
    looseSign "<"
    closedList (rec (.type false))
    looseSign ">")

/-- Reads a type parameter with its bound and its default. -/
def typeParameter (rec : Rules) : Reader Unit := do
  optional (do keyword "const"; check ((← word) != ""))
  typeName
  optional (do keyword "extends" <|> sign ":"; rec (.type false))
  optional (do sign "="; rec (.type false))

/-- Reads type parameters with their brackets. -/
def typeParameters (rec : Rules) : Reader Unit :=
  node .group (do
    looseSign "<"
    closedList (typeParameter rec)
    looseSign ">")

/-- Reads a property's name; any word may be one. -/
def propertyName (rec : Rules) : Reader Unit :=
  wordAs .propertyName <|> privateName <|> stringLiteral <|> numberLiteral
    <|> node .group (do sign "["; rec (.expression {}); sign "]")

/-! ### Words in front of a member -/

/-- Whether a member's name may begin at the lexeme at hand. -/
def atMemberName : Reader Bool := do
  let c ← nextChar
  return (← word) != "" || "[#\x22'".toList.contains c || c.isDigit

/-- Reads one of several words in front of a member. It is one only if the member's name or one of
the signs follows, where `line` says so on the same line; otherwise it is the name itself. -/
def modifier (line : Bool) (signs : List Char) (words : List String) : Reader Unit := do
  keywords words
  unlessClosed line false
  if !((← atMemberName) || signs.contains (← nextChar)) then refuse

/-- Reads words of several groups, in their order, at most one of each group. -/
def modifiers (line : Bool) (signs : List Char) : List (List String) → Reader Unit
  | [] => pure ()
  | words :: groups => do
    optional (modifier line signs words)
    modifiers line signs groups

/-- The words that say who may use a member. -/
def accessWords : List String :=
  ["public", "private", "protected"]

/-- Reads the words in front of a method of a class or an object, up to its name. -/
def methodHead (typed line : Bool) : Reader Unit := do
  let groups := if typed then [accessWords, ["static"], ["override"], ["readonly"], ["async"]]
    else [["static"], ["async"]]
  modifiers line ['*'] groups
  optional (modifier line [] ["get", "set"] <|> sign "*")

/-- Reads the words in front of a property of an object type. -/
def propertyHead : Reader Unit :=
  modifiers true [] [accessWords, ["static"], ["override"], ["readonly"]]

/-- Reads a modifier of an index signature, such as the `?:` of `[K in T]?: U`, and its type. -/
def indexAscription (rec : Rules) (line : Bool) : Reader Unit := do
  looseSign "-?:" <|> looseSign "+?:" <|> looseSign "?:" <|> sign ":"
  rec (.type line)

/-- Reads an index signature or the clause of a mapped type. -/
def indexSignature (rec : Rules) : Reader Unit :=
  node .group (do
    optional (do optional (oneOf ["+", "-"]); keyword "readonly")
    sign "["
    (do bindingName; sign ":"; rec (.type false))
      <|> (do
        typeName
        keyword "in"
        rec (.type false)
        optional (do keyword "as"; rec (.type false)))
    sign "]"
    indexAscription rec true)

/-- Reads a parameter list with its type parameters and its result type. -/
def callSignature (rec : Rules) (parameters : Reader Unit) (line : Bool) : Reader Unit := do
  optional (typeParameters rec)
  parameters
  optional (resultType rec line)

/-- Reads a member of an object type. -/
def typeMember (rec : Rules) (parameters : Reader Unit) : Reader Unit :=
  node .group (callSignature rec parameters true)
  <|> node .group (do
    optional (keyword "abstract")
    keyword "new"
    optional (typeParameters rec)
    parameters
    optional (ascription rec true))
  <|> indexSignature rec
  <|> node .group (do
    methodHead true true
    propertyName rec
    optional (sign "?")
    callSignature rec parameters true)
  <|> node .group (do
    propertyHead
    propertyName rec
    optional (sign "?")
    optional (ascription rec true))

/-- Reads an object type with its braces, which may have bars inside. -/
def objectType (rec : Rules) (parameters : Reader Unit) : Reader Unit :=
  let separator := oneOf [",", ";"] <|> lineEnd false
  node .group (do
    let exact ← (looseSign "\x7b|" *> pure true) <|> (sign "\x7b" *> pure false)
    optional (do
      optional (oneOf [",", ";"])
      typeMember rec parameters
      many (do separator; typeMember rec parameters)
      optional separator)
    if exact then looseSign "|\x7d" else sign "\x7d")

/-- Reads a member of a tuple type. -/
def tupleMember (rec : Rules) : Reader Unit :=
  (do
    optional (sign "...")
    bindingName
    optional (sign "?")
    sign ":"
    rec (.type false))
  <|> (do
    optional (sign "...")
    rec (.type false)
    optional (sign "?"))

/-- Reads a type's name, qualified or not, with its arguments. Behind a type's name an angle bracket
always opens arguments. -/
def namedType (rec : Rules) : Reader Unit := do
  (do
    -- All segments of a qualified name but the last are names of values.
    bindingName
    sign "."
    many (do bindingName; sign ".")
    typeName)
  <|> typeName
  if (← nextChar) == '<' then typeArguments rec

/-- Reads arguments of values with their parentheses. -/
def valueArguments (rec : Rules) : Reader Unit :=
  node .arguments (do
    sign "("
    sparse (node .spread (do sign "..."; rec (.expression {})) <|> rec (.expression {}))
    sign ")")

/-- Reads a member's name behind a dot. -/
def memberName : Reader Unit :=
  privateName <|> wordAs .propertyName

/-- Reads a type that another module gives away, found by a call of `import`. -/
def importedType (rec : Rules) (line : Bool) : Reader Unit :=
  grow (do keyword "import"; valueArguments rec)
    (do
      unlessClosed line false
      (do sign "."; memberName) <|> valueArguments rec
      return .group)

/-- Reads what `typeof` is applied to in a type. -/
def queriedName (rec : Rules) (line : Bool) : Reader Unit := do
  grow
    (do
      if (← word) == "import" then
        keyword "import"
        valueArguments rec
      else keyword "this" <|> identifier)
    (do
      unlessClosed line false
      (do sign "." <|> sign "?."; memberName)
        <|> (do
          optional (sign "?.")
          sign "["
          stringLiteral <|> numberLiteral
          sign "]")
        <|> valueArguments rec
      return .group)
  optional (do
    unlessClosed line false
    typeArguments rec)

/-- Reads a type that a keyword names. -/
def keywordType : Reader Unit := do
  match ← word with
  | "string" | "number" => wordAs .literalTypeName
  | "unique" => do keyword "unique"; keyword "symbol"
  | w =>
    if ["any", "boolean", "symbol", "void", "unknown", "never", "object", "this", "true", "false",
        "null", "undefined", "const"].contains w then wordAs (.sign w)
    else stop

/-- Words that begin an expression or statement and name no type. -/
def nonTypeWords : List String :=
  ["in", "instanceof", "extends", "is", "new", "function", "class", "if", "return", "var", "let",
    "import"]

/-- Reads a type that no operator stands in front of or behind. -/
def simpleType (rec : Rules) (parameters : Reader Unit) (line : Bool) : Reader Unit := do
  match ← nextChar with
  | '(' => node .group (do sign "("; rec (.type false); sign ")")
  | '\x7b' => objectType rec parameters
  | '[' => node .group (do sign "["; listed (tupleMember rec); sign "]")
  | '\x22' | '\'' => stringLiteral
  | '\x60' =>
    node .group (template
      (do
        (do keyword "infer"; typeName) <|> rec (.type false)) .group)
  | '*' => sign "*"
  | '?' => node .group (do sign "?"; rec (.operandType line))
  | '-' => node .group (do sign "-"; numberLiteral)
  | '+' => node .group (do sign "+"; numberLiteral)
  | c =>
    if c.isDigit || c == '.' then numberLiteral
    else
      let w ← word
      if w == "typeof" then node .group (do keyword "typeof"; queriedName rec line)
      else if w == "keyof" then node .group (do keyword "keyof"; rec (.operandType line))
      else if w == "readonly" then node .group (do keyword "readonly"; rec (.type line))
      else if w == "infer" then
        node .group (do
          keyword "infer"
          typeName
          optional (do keyword "extends"; rec (.type line)))
      else if w == "unique" then keywordType
      else if nonTypeWords.contains w then stop
      else keywordType <|> node .group (namedType rec)

/-- Reads a function type or a constructor type. -/
def functionType (rec : Rules) (parameters : Reader Unit) (line : Bool) : Reader Unit := do
  let c ← nextChar
  let w ← word
  if c == '(' || c == '<' || w == "new" || w == "abstract" then
    attempt (if line then 0 else 1) (node .group (do
      optional (keyword "abstract")
      let makes ← (keyword "new" *> pure true) <|> pure false
      optional (typeParameters rec)
      parameters
      sign "=>"
      if makes then rec (.type line)
      else node .group (predicate rec line) <|> rec (.type line)))
  else refuse

/-- A type with its array brackets and look-ups. -/
def operandTypeRule (rec : Rules) (parameters : Reader Unit) (line : Bool) : Reader Unit :=
  grow (simpleType rec parameters line)
    (do
      unlessClosed line false
      sign "["
      optional (rec (.type false))
      sign "]"
      return .group)

/-- A type: operands joined by `|` and `&`, and possibly a condition on them. -/
def typeRule (rec : Rules) (parameters : Reader Unit) (line : Bool) : Reader Unit :=
  let operator : Reader Unit := do
    unlessClosed line false
    let text := (← script).text
    let i := (← place).here
    if charAt text (i + 1) == '\x7d' then refuse
    oneOf ["|", "&"]
  let operand : Reader Unit :=
    functionType rec parameters line <|> importedType rec line <|> rec (.operandType line)
  grow
    (do
      optional operator
      operand)
    (do
      operator <* operand
        <|> (do
          keyword "extends"
          rec (.type false)
          sign "?"
          rec (.type false)
          sign ":"
          rec (.type line))
      return .group)

end RenderTree.Grammar
