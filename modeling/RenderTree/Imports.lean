import RenderTree.Source.Parse
import RenderTree.Text.LowerCase

/-!
# Imports

The names that a module binds by its imports, and the specifiers they come from. Imports of style
sheets, images, fonts and data are left out, so that none of them is taken for a component.

* `Binding` — a name and the specifier it was imported from.
* `isAsset` — whether a specifier denotes something other than code.
* `Module.imports` — the bindings of a module, in source order.
-/

namespace RenderTree

open RenderTree.Source
open RenderTree.Text

/-- A name that an import binds, with the specifier as it is written. -/
structure Binding where
  localName : String
  specifier : String
deriving DecidableEq, Repr, Inhabited

/-! ### Assets -/

/-- Extensions of style sheets. -/
def styleExtensions : List Text := [".css", ".scss", ".sass", ".less", ".styl"]

/-- Extensions of images. -/
def imageExtensions : List Text :=
  [".svg", ".png", ".jpg", ".jpeg", ".gif", ".webp", ".ico", ".bmp"]

/-- Extensions of fonts. -/
def fontExtensions : List Text := [".woff", ".woff2", ".ttf", ".eot", ".otf"]

/-- Extensions of data files. -/
def dataExtensions : List Text := [".json"]

/-- The extensions of all assets. -/
def assetExtensions : List Text :=
  styleExtensions ++ imageExtensions ++ fontExtensions ++ dataExtensions

/-- Whether the last segment of a specifier, without its query, has the extension of an asset in
any letter case. -/
def isAsset (specifier : Text) : Bool :=
  let path := lower (beforeFirst (Symbol.char '?') specifier)
  let segment := afterLast (Symbol.char '/') path
  segment.contains '.' && assetExtensions.contains ('.' :: afterLast (Symbol.char '.') segment)

/-! ### Bindings -/

/-- A string without its quotes. -/
def unquote (s : String) : String :=
  match s.toList with
  | q :: c :: cs =>
    if (q == '\'' || q == '\x22') && (c :: cs).getLast? == some q then
      String.ofList (c :: cs).dropLast
    else s
  | _ => s

namespace Source.Module

/-- The texts of those trees that are plain identifiers. -/
def identifiers (m : Module) (ts : List Tree) : List String :=
  (ts.filter (fun t => t.kind == .identifier)).map m.textOf

/-- The names that an import clause binds. -/
def boundNames (m : Module) (clause : Tree) : List String :=
  clause.children.flatMap fun part =>
    match part.kind with
    | .identifier => [m.textOf part]
    | .namespaceImport => m.identifiers part.children
    | .namedImports =>
      (part.children.filter (fun t => t.kind == .importSpecifier)).flatMap fun t =>
        m.identifiers ((t.child? .alias).or (t.child? .name)).toList
    | _ => []

/-- The specifier of an import statement, if it has one. -/
def importSource (m : Module) (statement : Tree) : Option String :=
  (statement.child? .source).map (fun t => unquote (m.textOf t))

/-- The bindings of one statement. -/
def importsOf (m : Module) (statement : Tree) : List Binding :=
  if statement.kind == .statement .importing then
    match m.importSource statement with
    | some specifier =>
      if specifier == "" || isAsset specifier then []
      else
        (statement.children.filter (fun t => t.kind == .importClause)).flatMap fun clause =>
          (m.boundNames clause).map (fun name => ⟨name, specifier⟩)
    | none => []
  else []

/-- The bindings of a module, in source order. -/
def imports (m : Module) : List Binding :=
  m.declarations.flatMap m.importsOf

end Source.Module

end RenderTree
