import RenderTree.Grammar.Module

/-!
# Statements

* `declaration` — functions, classes, variables, and the declarations of the typed dialect.
* `forStatement`, `switchStatement`, … — the statements that steer the flow.
* `statementRule` — the rule for all of them.
-/

namespace RenderTree.Grammar

open RenderTree.Source
open RenderTree.Source.Reader

/-! ### Declarations -/

/-- Reads a variable with its initialiser. -/
def declarator (rec : Rules) (mode : Mode) : Reader Unit :=
  node .declarator (do
    (do
      typedOnly
      withRole .name bindingName
      sign "!"
      ascription rec mode.line)
    <|> (do
      target rec
      optional (do typedOnly; ascription rec mode.line)
      optional (initialiser rec mode)))

/-- Reads the declaration of variables by `let` or `const`. -/
def lexicalDeclaration (rec : Rules) : Reader Unit :=
  node (.statement .lexical) (do
    keywords ["let", "const"]
    listed1 (declarator rec { line := true })
    semicolon (← madeValue))

/-- Reads the declaration of variables by `var`. -/
def variableDeclaration (rec : Rules) : Reader Unit :=
  node (.statement .variables) (do
    keyword "var"
    listed1 (declarator rec { line := true })
    semicolon (← madeValue))

/-- Reads the declaration of a function; without a body it is a signature of the typed dialect. -/
def functionDeclaration (rec : Rules) : Reader Unit := do
  let _ ← nodeOf (do
    let generator ← functionHead
    bindingName
    signature rec
    (do
      block rec
      optional (lineEnd false)
      return .statement (if generator then .generator else .function))
    <|> (do
      typedOnly
      if generator then refuse
      semicolon false
      return .statement .functionSignature))

/-- Reads the declaration of a class. -/
def classDeclaration (rec : Rules) : Reader Unit := do
  let _ ← nodeOf (do
    decorators rec ["class", "abstract", "export"]
    if (← isTyped) && (← word) == "abstract" then
      keyword "abstract"
      classRest rec className (closing "\x7d")
      return .statement .abstractClass
    else
      classRest rec className (closing "\x7d")
      optional (lineEnd false)
      return .statement .classLike)

/-- Reads the declaration of a type. -/
def typeAlias (rec : Rules) : Reader Unit :=
  node (.statement .typeAlias) (do
    keyword "type"
    typeName
    optional (typeParameters rec)
    sign "="
    rec (.type true)
    semicolon false)

/-- Reads the declaration of an interface. -/
def interfaceDeclaration (rec : Rules) : Reader Unit :=
  node (.statement .interface) (do
    keyword "interface"
    typeName
    optional (typeParameters rec)
    optional (do keyword "extends"; listed1 (rec (.operandType false)))
    objectType rec (parameters rec))

/-- Reads the declaration of an enumeration. -/
def enumDeclaration (rec : Rules) : Reader Unit :=
  node (.statement .enumeration) (do
    optional (keyword "const")
    keyword "enum"
    bindingName
    sign "\x7b"
    optional (closedList (node .group (do propertyName rec; optional (initialiser rec {}))))
    closing "\x7d")

/-- Reads a namespace. -/
def namespaceDeclaration (rec : Rules) : Reader Unit :=
  node .group (do
    keyword "namespace"
    stringLiteral <|> qualifiedName
    optional (block rec))

/-- Reads the declaration of a module by its name. -/
def moduleDeclaration (rec : Rules) : Reader Unit :=
  node (.statement .module) (do
    keyword "module"
    stringLiteral <|> qualifiedName
    optional (block rec))

/-- Reads a declaration of the typed dialect that the word `w` begins; `ambient` reads what can
stand behind `declare`. -/
def typedDeclaration (rec : Rules) (ambient : Reader Unit) (w : String) : Reader Unit := do
  typedOnly
  match w with
  | "type" => typeAlias rec
  | "interface" => interfaceDeclaration rec
  | "enum" | "const" => enumDeclaration rec
  | "abstract" => classDeclaration rec
  | "namespace" => namespaceDeclaration rec
  | "module" => moduleDeclaration rec
  | "import" => importAlias
  | "declare" => node (.statement .ambient) (do keyword "declare"; ambient)
  | _ => refuse

/-- Reads a declaration of the script dialect that the word `w` begins. -/
def scriptDeclaration (rec : Rules) (w : String) : Reader Unit := do
  match w with
  | "function" | "async" => functionDeclaration rec
  | "class" => classDeclaration rec
  | "let" | "const" => lexicalDeclaration rec
  | "var" => variableDeclaration rec
  | _ => if (← nextChar) == '@' then classDeclaration rec else stop

/-- Reads a declaration that `declare` may stand in front of. -/
def ambientDeclaration (rec : Rules) : Reader Unit := do
  let w ← word
  typedDeclaration rec refuse w
    <|> scriptDeclaration rec w
    <|> (do keyword "global"; block rec)

/-- Reads a declaration. -/
def declaration (rec : Rules) : Reader Unit := do
  let w ← word
  typedDeclaration rec (ambientDeclaration rec) w <|> scriptDeclaration rec w

/-! ### Loops -/

/-- Reads what a loop over a collection binds in each round. -/
def loopTarget (rec : Rules) : Reader Unit :=
  (do
    let kind ← word
    keywords ["var", "let", "const"]
    if kind == "let" && operatorWords.contains (← word) then refuse
    if kind == "let" && (← word) == "of" then refuse
    bindingName <|> destructuring rec
    if kind == "var" then optional (initialiser rec { allowIn := false }))
  <|> destructuring rec
  <|> (do
    grow (primary rec { allowIn := false }) (suffix rec {})
    check ((← madeLast).any (assignable false)))

/-- Reads the head of a loop over a collection, between its parentheses. -/
def overHead (rec : Rules) : Reader Unit := do
  loopTarget rec
  keywords ["in", "of"]
  sequence rec {}

/-- Reads the head of a counting loop, between its parentheses. -/
def countHead (rec : Rules) : Reader Unit := do
  let mode : Mode := { allowIn := false }
  (do
    keywords ["var", "let", "const"]
    listed1 (declarator rec mode)
    sign ";")
  <|> (do optional (sequence rec mode); sign ";")
  optional (sequence rec {})
  sign ";"
  optional (sequence rec {})

/-- Reads a `for` loop of either kind. -/
def forStatement (rec : Rules) : Reader Unit := do
  let _ ← nodeOf (do
    keyword "for"
    let kind ← (do
        optional (keyword "await")
        sign "("
        overHead rec
        return Kind.statement .loopOver)
      <|> (do
        sign "("
        countHead rec
        return Kind.statement .loop)
    sign ")"
    rec .statement
    return kind)

/-! ### Other statements -/

/-- Reads one case of a `switch`. -/
def switchCase (rec : Rules) : Reader Unit :=
  node .group (do
    (do keyword "case"; sequence rec {}) <|> keyword "default"
    sign ":"
    many (rec .statement))

/-- Reads a `try` statement. -/
def guardedStatement (rec : Rules) : Reader Unit :=
  node (.statement .guarded) (do
    keyword "try"
    block rec
    optional (do
      keyword "catch"
      optional (do
        sign "("
        bindingName <|> destructuring rec
        optional (do typedOnly; ascription rec false)
        sign ")")
      block rec)
    optional (do keyword "finally"; block rec))

/-- Reads a statement that jumps to the end or the beginning of a loop or a labelled statement. -/
def jumpStatement (w : String) (form : Form) : Reader Unit :=
  node (.statement form) (do
    keyword w
    semicolon false <|> (do wordAs .propertyName; semicolon false))

/-- Reads an expression as a statement. -/
def expressionStatement (rec : Rules) : Reader Unit :=
  node (.statement .expression) (do
    sequence rec { line := true }
    semicolon true)

/-- Reads a statement with a label in front. -/
def labelledStatement (rec : Rules) : Reader Unit :=
  node (.statement .labelled) (do
    let w ← word
    if (reservedWords.erase "export").contains w then refuse
    wordAs .propertyName
    sign ":"
    rec .statement)

/-- Reads a block as a statement. -/
def blockStatement (rec : Rules) : Reader Unit :=
  node (.statement .block) (do
    sign "\x7b"
    many (rec .statement)
    closing "\x7d"
    optional (lineEnd false))

/-- Reads a block or an expression that begins with an object literal. What could be a label in a
block or a key in an object is a key, if the rest allows it. -/
def braced (rec : Rules) : Reader Unit := do
  let keyed ← ahead (do sign "\x7b"; wordAs .propertyName; sign ":")
  if keyed then expressionStatement rec <|> blockStatement rec
  else attempt 7 (blockStatement rec) <|> expressionStatement rec

/-- Reads a namespace, which is an expression in its own right. -/
def namespaceStatement (rec : Rules) : Reader Unit :=
  node (.statement .expression) (do
    typedOnly
    namespaceDeclaration rec
    semicolon true)

/-- The words that begin a statement, but are names where their line ends behind them. -/
def contextualWords (typed : Bool) : List String :=
  ["let", "async", "export"] ++ if typed then ["type", "declare", "namespace", "module"] else []

/-- Reads the word `export` and looks for what can be exported behind it. Where something else
stands there, the word is a name. -/
def exportHead (rec : Rules) : Reader Unit := do
  many (decorator rec)
  keyword "export"
  let w ← word
  let typed ← isTyped
  let words := ["default", "function", "async", "class", "let", "const", "var"]
  let typedWords := ["type", "interface", "enum", "abstract", "namespace", "module", "import",
    "declare", "as"]
  if w != "" then
    if !(words.contains w || (typed && typedWords.contains w)) then refuse
  else
    if !("*\x7b@".toList.contains (← nextChar) || (typed && (← atSign "="))) then refuse

/-- Reads a statement that the reserved word `w` begins. -/
def reservedStatement (rec : Rules) (w : String) : Reader Unit := do
  match w with
  | "import" => importStatement rec <|> importAlias <|> expressionStatement rec
  | "export" =>
    if ← ahead (exportHead rec) then exportStatement rec (declaration rec)
    else labelledStatement rec <|> expressionStatement rec
  | "var" | "const" => declaration rec
  | "function" | "class" => declaration rec <|> expressionStatement rec
  | "if" =>
    node (.statement .conditional) (do
      keyword "if"
      parenthesised rec
      rec .statement
      optional (do keyword "else"; rec .statement))
  | "for" => forStatement rec
  | "while" =>
    node (.statement .whileLoop) (do keyword "while"; parenthesised rec; rec .statement)
  | "do" =>
    node (.statement .doLoop) (do
      keyword "do"
      rec .statement
      keyword "while"
      parenthesised rec
      optional (semicolon false))
  | "switch" =>
    node (.statement .switch) (do
      keyword "switch"
      parenthesised rec
      node .group (do sign "\x7b"; many (switchCase rec); closing "\x7d"))
  | "try" => guardedStatement rec
  | "throw" =>
    node (.statement .throwing) (do
      keyword "throw"
      sequence rec { line := true }
      semicolon true)
  | "return" =>
    node (.statement .returning) (do
      keyword "return"
      semicolon false <|> (do sequence rec { line := true }; semicolon true))
  | "break" => jumpStatement w .breaking
  | "continue" => jumpStatement w .continuing
  | "debugger" => node (.statement .debugger) (do keyword "debugger"; semicolon false)
  | "with" =>
    node (.statement .withScope) (do keyword "with"; parenthesised rec; rec .statement)
  | "this" | "super" | "null" | "true" | "false" | "new" | "typeof" | "void" | "delete" =>
    expressionStatement rec
  | _ => stop

/-- Any statement. -/
def statementRule (rec : Rules) : Reader Unit := do
  markupRemarks
  let w ← word
  if w == "" then
    match ← nextChar with
    | '\x7b' => braced rec
    | ';' => node (.statement .empty) (sign ";")
    | '@' =>
      classDeclaration rec <|> exportStatement rec (declaration rec) <|> expressionStatement rec
    | _ => expressionStatement rec
  else if (contextualWords (← isTyped)).contains w && (← endsStatement) then
    expressionStatement rec
  else if reservedWords.contains w then reservedStatement rec w
  else
    labelledStatement rec
      <|> (if w == "namespace" then namespaceStatement rec else declaration rec)
      <|> expressionStatement rec

end RenderTree.Grammar
