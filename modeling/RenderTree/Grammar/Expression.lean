import RenderTree.Grammar.Markup

/-!
# Expressions

Operators are read as one flat chain, since no analysis asks how they bind; calls, members and
assignments keep their structure.

* `primary` — an operand without operators.
* `suffix` — what goes on with an operand: members, arguments, templates.
* `operandRule`, `expressionRule`, `constructionRule` — the rules of this module that recur.
-/

namespace RenderTree.Grammar

open RenderTree.Source
open RenderTree.Source.Reader

/-! ### Functions and classes -/

/-- Reads a function's words up to its name; the result says whether it is a generator. -/
def functionHead : Reader Bool := do
  optional (do
    keyword "async"
    if (← word) != "function" then refuse)
  keyword "function"
  (sign "*" *> pure true) <|> pure false

/-- Reads a function expression. -/
def functionExpression (rec : Rules) : Reader Unit :=
  node .group (do
    let _ ← functionHead
    optional bindingName
    signature rec
    innerBlock rec)

/-- Reads a class's heritage. -/
def heritage (rec : Rules) : Reader Unit := do
  let clause : Reader Unit := node .group (do
    keyword "extends"
    if ← isTyped then
      listed1 (do
        rec (.operand { heritage := true })
        optional (typeArguments rec))
    else rec (.expression {}))
  let implements : Reader Unit := node .group (do
    typedOnly
    keyword "implements"
    listed1 (rec (.type false)))
  optional clause
  optional implements

/-- Reads the words in front of a field of a class. -/
def fieldHead : Reader Unit := do
  if ← isTyped then
    let front : List String → Reader Unit := modifier true []
    (do front ["declare"]; optional (front accessWords))
      <|> (do optional (front accessWords); optional (front ["declare"]))
    front ["accessor"]
      <|> (do front ["abstract"]; optional (front ["readonly"]))
      <|> (do front ["readonly"]; front ["abstract"])
      <|> modifiers true [] [["static"], ["override"], ["readonly"]]
  else modifiers true [] [["static"]]

/-- Reads a method without a body; one that is abstract says so. -/
def bareMethod (rec : Rules) : Reader Unit :=
  node .group (do
    (do
      optional (modifier true [] accessWords)
      modifier true ['*'] ["abstract"]
      modifiers true ['*'] [["override"]]
      optional (modifier true [] ["get", "set"] <|> sign "*"))
    <|> methodHead true true
    propertyName rec
    optional (sign "?")
    callSignature rec (parameters rec) true)

/-- Reads a method with its body. -/
def method (rec : Rules) (line : Bool) : Reader Unit :=
  node .group (do
    methodHead (← isTyped) line
    propertyName rec
    optional (do typedOnly; sign "?")
    signature rec
    block rec)

/-- Reads a field of a class. -/
def field (rec : Rules) : Reader Unit :=
  node .group (do
    fieldHead
    propertyName rec
    optional (do typedOnly; oneOf ["?", "!"])
    optional (do typedOnly; ascription rec true)
    optional (initialiser rec { line := true }))

/-- Reads a member of a class. -/
def classMember (rec : Rules) : Reader Unit := do
  many (decorator rec)
  (node .group (do keyword "static"; block rec))
    <|> (do method rec true; optional (semicolon false))
    <|> (do typedOnly; bareMethod rec; sign "," <|> semicolon false)
    <|> (do field rec; (do typedOnly; sign ",") <|> semicolon (← madeValue))
    <|> (do typedOnly; indexSignature rec; sign "," <|> semicolon false)

/-- Reads the body of a class; `brace` reads the brace that ends it. -/
def classBody (rec : Rules) (brace : Reader Unit) : Reader Unit :=
  node .group (do
    sign "\x7b"
    many (sign ";" <|> classMember rec)
    brace)

/-- Reads a class from the word `class` on; `name` reads its name and `brace` the brace that ends
it. -/
def classRest (rec : Rules) (name brace : Reader Unit) : Reader Unit := do
  keyword "class"
  name
  optional (do typedOnly; typeParameters rec)
  heritage rec
  classBody rec brace

/-- Reads the name of a class, which in the typed dialect is the name of a type. -/
def className : Reader Unit := do
  if ["extends", "implements"].contains (← word) then stop
  else if ← isTyped then typeName else bindingName

/-- Reads a class expression. -/
def classExpression (rec : Rules) : Reader Unit :=
  node .group (do
    decorators rec ["class"]
    classRest rec (optional className) (sign "\x7d"))

/-! ### Arrow functions -/

/-- Reads the body of an arrow function. -/
def arrowBody (rec : Rules) (mode : Mode) : Reader Unit := do
  let expression := rec (.expression { mode with literal := false, heritage := false })
  if (← nextChar) == '\x7b' then attempt 2 (innerBlock rec) <|> expression else expression

/-- Reads an arrow function of one parameter without parentheses. -/
def shortArrow (rec : Rules) (mode : Mode) : Reader Unit :=
  node .group (do
    identifier
    sign "=>"
    arrowBody rec mode)

/-- Reads an arrow function from its parameter list on. -/
def longArrow (rec : Rules) (mode : Mode) : Reader Unit :=
  node .group (do
    attempt (if mode.plainArrow then 3 else 4) (do
      optional (do typedOnly; typeParameters rec)
      parameters rec
      optional (do
        typedOnly
        check (!mode.plainArrow)
        resultType rec false)
      sign "=>")
    arrowBody rec mode)

/-! ### Literals -/

/-- Reads a member of an object literal. An initialiser is allowed here, as in a pattern, and noted
until it is known whether the literal is one. -/
def objectMember (rec : Rules) : Reader Unit :=
  node .spread (do sign "..."; rec (.expression { literal := true }))
  <|> node .pair (do propertyName rec; sign ":"; rec (.expression { literal := true }))
  <|> method rec false
  <|> node .pair (do
    check (!(reservedWords.contains (← word)) || (← isTyped))
    wordAs .propertyName
    optional (do
      initialiser rec {}
      setPlace { (← place) with cover := true }))

/-- Reads an object literal. -/
def objectLiteral (rec : Rules) : Reader Unit :=
  node .object (do
    sign "\x7b"
    sparse (objectMember rec)
    sign "\x7d")

/-- Reads an array literal. -/
def arrayLiteral (rec : Rules) : Reader Unit :=
  node .array (do
    sign "["
    sparse (node .spread (do sign "..."; rec (.expression { literal := true }))
      <|> rec (.expression { literal := true }))
    sign "]")

/-- Reads an object or array literal. A member that only a pattern may have is let pass if the
literal is assigned to or is part of another literal. -/
def literal (mode : Mode) (r : Reader Unit) : Reader Unit := do
  let outer := (← place).cover
  setPlace { (← place) with cover := false }
  r
  let p ← place
  if p.cover && !(← atSign "=") then
    check mode.literal
  else setPlace { p with cover := outer }

/-- Reads a template. -/
def templateLiteral (rec : Rules) : Reader Unit :=
  node .template (template (sequence rec {}) .group)

/-- Reads an expression in parentheses, with its type in the typed dialect. -/
def parenthesised (rec : Rules) : Reader Unit :=
  node .parenthesised (do
    sign "("
    sequence rec {}
    optional (do typedOnly; ascription rec false)
    sign ")")

/-! ### Operands -/

/-- Reads a comment that begins with `<!--` or `-->`, where an operand or statement may begin. -/
def markupRemarks : Reader Unit :=
  many (do
    let text := (← script).text
    let i := (← place).here
    if standsAt text "<!--".toList i || standsAt text "-->".toList i then
      lexeme .htmlComment (endOf text (fun c => !isLineEnd c) i)
    else refuse)

/-- Reads the word `import` where it begins an operand: its own description, or what a member is taken
of or a call made of. -/
def importWord : Reader Unit :=
  node .group (do
    keyword "import"
    sign "."
    keyword "meta")
  <|> (do
    keyword "import"
    if !("(.".toList.contains (← nextChar)) then stop)

/-- Reads the word `new` where nothing is constructed, so that it is a name of the typed dialect. -/
def bareNew : Reader Unit := do
  typedOnly
  wordAs .identifier
  if (← word) != "" then refuse
  let ended := (← script).text.size ≤ (← place).here
  if !(ended || ";,)]\x7d=:?&|*%^><!~+-".toList.contains (← nextChar)) then refuse

/-- Reads an operand that begins with a word. -/
def wordOperand (rec : Rules) (mode : Mode) (w : String) : Reader Unit := do
  match w with
  | "function" => functionExpression rec
  | "class" => classExpression rec
  | "new" => bareNew <|> rec .construction
  | "import" => importWord
  | "this" | "super" | "null" | "true" | "false" | "undefined" => wordAs (.sign w)
  | "async" =>
    if mode.line && (← endsStatement) then identifier
    else functionExpression rec
      <|> node .group (do keyword "async"; shortArrow rec mode <|> longArrow rec mode)
      <|> shortArrow rec mode
      <|> identifier
  | _ => shortArrow rec mode <|> identifier

/-- Reads an operand without operators or suffixes. -/
def primary (rec : Rules) (mode : Mode) : Reader Unit := do
  markupRemarks
  let w ← word
  if w != "" then
    if ["await", "yield", "typeof", "void", "delete"].contains w then stop
    else wordOperand rec mode w <|> stop
  else match ← nextChar with
    | '(' => longArrow rec mode <|> parenthesised rec
    | '[' => literal mode (arrayLiteral rec)
    | '\x7b' => literal mode (objectLiteral rec)
    | '\x22' | '\'' => stringLiteral
    | '\x60' => templateLiteral rec
    | '/' => regexLiteral
    | '<' => (do typedOnly; longArrow rec mode) <|> rec .element
    | '#' => do
      privateName
      if (← word) != "in" then stop
    | '@' => classExpression rec
    | _ => numberLiteral <|> stop

/-- Whether an operand may begin at the lexeme at hand, on this line. -/
def atOperand : Reader Bool := do
  let w ← word
  if w != "" then return !operatorWords.contains w
  let c ← nextChar
  let text := (← script).text
  let i := (← place).here
  return "([\x7b\x22'\x60!~+-/<@#".toList.contains c || i < numberEnd text i

/-- Reads type arguments behind an operand, and the arguments of a call behind them. Without a
call, no operand may follow, or the brackets would be comparisons. -/
def typedSuffix (rec : Rules) (mode : Mode) : Reader Kind := do
  typedOnly
  attempt (if mode.heritage then 5 else 6) (do
    typeArguments rec
    if (← nextChar) != '(' then
      if mode.heritage then refuse
      else if (← closedBy true).isSome then pure ()
      else if ← atOperand then refuse)
  if (← nextChar) == '(' then
    arguments rec
    return .call
  else return .group

/-- What goes on with an operand. -/
def suffix (rec : Rules) (mode : Mode) : Reader Kind := do
  unlessClosed mode.line true
  match ← nextChar with
  | '.' => do sign "."; memberName; return .member
  | '?' => do
    sign "?."
    match ← nextChar with
    | '(' => do arguments rec; return .call
    | '[' => do sign "["; sequence rec {}; sign "]"; return .subscript
    | '<' => do typedOnly; typeArguments rec; arguments rec; return .call
    | _ => do memberName; return .member
  | '[' => do sign "["; sequence rec {}; sign "]"; return .subscript
  | '(' => do arguments rec; return .call
  | '\x60' => do
    if (← madeLast).any (fun t => t.kind == .element) then refuse
    withRole .arguments (templateLiteral rec)
    return .call
  | '+' => do sign "++"; return .group
  | '-' => do sign "--"; return .group
  | '!' => do typedOnly; sign "!"; return .group
  | '<' => typedSuffix rec mode
  | _ => refuse

/-- What is constructed, from the word `new` on. -/
def constructionRule (rec : Rules) : Reader Unit :=
  node .group (do
    keyword "new"
    (do sign "."; keyword "target")
      <|> (do
        if (← word) == "new" then rec .construction
        else if (← nextChar) == '<' then stop
        else grow (primary rec {}) (do
          match ← nextChar with
          | '.' => do sign "."; memberName; return .member
          | '?' => do sign "?."; memberName; return .member
          | '[' => do sign "["; sequence rec {}; sign "]"; return .subscript
          | '\x60' => do withRole .arguments (templateLiteral rec); return .call
          | '!' => do typedOnly; sign "!"; return .group
          | _ => refuse)
        optional (do
          typedOnly
          typeArguments rec
          if (← nextChar) != '(' && (← atOperand) then refuse)
        if (← nextChar) == '(' then arguments rec))

/-- The operators that assign. -/
def assignmentSigns : List String :=
  ["=", "+=", "-=", "*=", "/=", "%=", "**=", "<<=", ">>=", ">>>=", "&=", "|=", "^=", "&&=", "||=",
    "??="]

mutual
/-- Whether a tree that was read as an expression can be assigned to: a name, a place in a value, or
a literal of them that takes a value apart. An `item` of such a literal may have a value of its
own for when nothing is assigned to it. -/
def isTarget (item : Bool) : Tree → Bool
  | .node kind _ _ _ parts =>
    match kind with
    | .identifier | .member | .subscript => true
    | .object | .array => areItems parts
    | .group => parts.getLast?.any (fun t => t.kind == .sign "!")
    | .spread => item && endsInTarget false parts
    | .pair => item && (!parts.any (fun t => t.kind == .sign ":") || endsInTarget true parts)
    | .assignment => item && beginsWithTarget parts && parts.any (fun t => t.kind == .sign "=")
    | .sign s => item && ["[", "]", "\x7b", "\x7d", ","].contains s
    | .comment => item
    | _ => false

/-- Whether the items of a literal can be assigned to. -/
def areItems : List Tree → Bool
  | [] => true
  | t :: ts => isTarget true t && areItems ts

/-- Whether the last of some trees can be assigned to. -/
def endsInTarget (item : Bool) : List Tree → Bool
  | [] => false
  | [t] => isTarget item t
  | _ :: ts => endsInTarget item ts

/-- Whether the first of some trees can be assigned to. -/
def beginsWithTarget : List Tree → Bool
  | [] => false
  | t :: _ => isTarget false t
end

/-- Whether a tree can stand on the left of an assignment sign, which for taking a value apart has
to be the `plain` one. -/
def assignable (plain : Bool) (t : Tree) : Bool :=
  match t.kind with
  | .parenthesised => true
  | .object | .array => plain && isTarget false t
  | _ => isTarget false t

/-- An operand with the operators in front of it, its suffixes, and what is assigned to it. -/
def operandRule (rec : Rules) (mode : Mode) : Reader Unit := do
  let c ← nextChar
  let signed : Reader Unit := node .group (do
    oneOf ["!", "~", "-", "+", "++", "--"]
    rec (.operand mode))
  let worded : Reader Unit := node .group (do
    keywords ["typeof", "void", "delete", "await"]
    rec (.operand mode))
  let comment := standsAt (← script).text "-->".toList (← place).here
  if "!~-+".toList.contains c && !comment then signed
  else if ["typeof", "void", "delete", "await"].contains (← word) then worded
  else
    grow (grow (primary rec mode) (suffix rec mode)) (do
      let plain ← atSign "="
      if !(← madeLast).any (assignable plain) || mode.heritage then refuse
      oneOf assignmentSigns
      rec (.expression { mode with literal := false })
      return .assignment)

/-- The operators between two operands. -/
def binarySigns : List String :=
  ["&&", "||", "??", ">>>", ">>", "<<", "&", "^", "|", "+", "-", "**", "*", "/", "%", "<=", "<",
    "===", "==", "!==", "!=", ">=", ">"]

/-- Reads an operator between operands and the operand behind it, or the rest of a conditional. -/
def chainSuffix (rec : Rules) (mode : Mode) : Reader Unit := do
  unlessClosed mode.line true
  let right := rec (.operand { mode with literal := false })
  match ← word with
  | "in" => do
    if !mode.allowIn then refuse
    keyword "in"
    right
  | "instanceof" => do keyword "instanceof"; right
  | "as" => do
    typedOnly
    keyword "as"
    keyword "const" <|> rec (.type mode.line)
  | "satisfies" => do
    typedOnly
    keyword "satisfies"
    rec (.type mode.line)
  | "" =>
    if ← atSign "?" then
      sign "?"
      (do
        rec (.expression {})
        sign ":")
      <|> (do
        typedOnly
        rec (.expression { plainArrow := true })
        sign ":")
      rec (.expression { mode with literal := false })
    else do
      oneOf binarySigns
      right
  | _ => refuse

/-- Reads a `yield` expression. -/
def yieldExpression (rec : Rules) (mode : Mode) : Reader Unit :=
  node .group (do
    keyword "yield"
    optional (do
      unlessClosed mode.line true
      optional (sign "*")
      rec (.expression mode)))

/-- An expression without commas. -/
def expressionRule (rec : Rules) (mode : Mode) : Reader Unit := do
  if (← word) == "yield" then yieldExpression rec mode
  else grow (rec (.operand mode)) (do
    chainSuffix rec mode
    return .group)

end RenderTree.Grammar
