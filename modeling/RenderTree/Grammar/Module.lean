import RenderTree.Grammar.Expression

/-!
# Imports and exports

The statements by which a module takes names from other modules and gives names to them.

* `importStatement`, `importAlias` — imports.
* `exportStatement` — exports of names, declarations and values.
-/

namespace RenderTree.Grammar

open RenderTree.Source
open RenderTree.Source.Reader

/-- Reads the specifier behind `from`. -/
def fromClause : Reader Unit := do
  keyword "from"
  withRole .source stringLiteral

/-- Reads a name under which a module gives something away. The word `default` is a name like others
in the typed dialect alone. -/
def sharedName : Reader Unit :=
  bindingName <|> keyword "default" <|> stringLiteral

/-- Reads what a name is renamed to. -/
def renamed (r : Reader Unit) : Reader Unit := do
  keyword "as"
  withRole .alias r

/-- Reads the word `type` or `typeof` in front of a name; before one of `others` it is
a name itself. -/
def typeMarker (others : List String) : Reader Unit := do
  typedOnly
  keywords ["type", "typeof"]
  let w ← word
  let c ← nextChar
  if others.contains w || (w == "" && ",=\x7d".toList.contains c) then refuse

/-- Reads one name of an import in braces. -/
def importSpecifier : Reader Unit :=
  node .importSpecifier (do
    optional (typeMarker ["as"])
    (do withRole .name sharedName; renamed bindingName)
      <|> withRole .name bindingName)

/-- Reads an import of a whole module. -/
def namespaceImport : Reader Unit :=
  node .namespaceImport (do sign "*"; keyword "as"; bindingName)

/-- Reads an import of names in braces. -/
def namedImports : Reader Unit :=
  node .namedImports (do sign "\x7b"; listed importSpecifier; sign "\x7d")

/-- Reads what an import binds. -/
def importClause : Reader Unit :=
  node .importClause
    (namespaceImport <|> namedImports
      <|> (do
        bindingName
        optional (do sign ","; namespaceImport <|> namedImports)))

/-- Reads the attributes of an import. -/
def importAttributes (rec : Rules) : Reader Unit :=
  node .group (do
    keyword "with" <|> (do typedOnly; keyword "assert")
    objectLiteral rec)

/-- Reads an import of a module by a call. -/
def importRequire : Reader Unit :=
  node .group (do
    typedOnly
    bindingName
    sign "="
    keyword "require"
    sign "("
    withRole .source stringLiteral
    sign ")")

/-- Reads an import statement. -/
def importStatement (rec : Rules) : Reader Unit :=
  node (.statement .importing) (do
    keyword "import"
    optional (typeMarker ["from"])
    importRequire
      <|> (do importClause; fromClause)
      <|> withRole .source stringLiteral
    optional (importAttributes rec)
    semicolon false)

/-- Reads a name with the names of namespaces in front. -/
def qualifiedName : Reader Unit :=
  grow bindingName (do
    sign "."
    wordAs .propertyName
    return .member)

/-- Reads an import that names another name. -/
def importAlias : Reader Unit :=
  node (.statement .importAlias) (do
    typedOnly
    keyword "import"
    bindingName
    sign "="
    qualifiedName
    semicolon false)

/-- Reads one name of an export in braces. -/
def exportSpecifier : Reader Unit :=
  node .group (do
    optional (typeMarker ["as"])
    withRole .name sharedName
    optional (renamed sharedName))

/-- Reads an export of names in braces. -/
def exportClause : Reader Unit :=
  node .group (do sign "\x7b"; listed exportSpecifier; sign "\x7d")

/-- Reads an export statement; `declaration` reads a declaration. -/
def exportStatement (rec : Rules) (declaration : Reader Unit) : Reader Unit :=
  node (.statement .exporting) (do
    decorators rec ["class", "abstract", "export"]
    keyword "export"
    (do
      sign "*"
      optional (node .group (renamed sharedName))
      fromClause
      semicolon false)
    <|> (do
      exportClause
      optional fromClause
      semicolon false)
    <|> (do
      keyword "default"
      withRole .declaration declaration
        <|> (do
          withRole .value (rec (.expression { line := true }))
          semicolon true))
    <|> withRole .declaration declaration
    <|> (do
      typedOnly
      (do
        keyword "type"
        exportClause
        optional fromClause
        semicolon false)
      <|> (do
        sign "="
        rec (.expression { line := true })
        semicolon true)
      <|> (do
        keyword "as"
        keyword "namespace"
        bindingName
        semicolon false)))

end RenderTree.Grammar
